/-!
# Places in a YAML text

A YAML text is read from its beginning to its end, and what a character means
depends on where it stands.  The cursor holds what is still to be read and its
place.  Before the reading begins all line breaks but two rare ones are made the
same, and a text with characters that do not print is refused.
-/

namespace Statechart

namespace Yaml

/-- A place in a text. -/
structure Place where
  /-- How many characters come before. -/
  index : Nat
  line : Nat
  column : Nat
deriving DecidableEq, Repr

/-- What is still to be read and where it begins. -/
structure Cursor where
  place : Place
  rest : List Char

def isBreak (c : Char) : Bool :=
  c == '\n' || c == '\u2028' || c == '\u2029'

def isSpace (c : Char) : Bool :=
  c == ' ' || c == '\t'

/-- Whether a mark may stand before these characters: a blank, the end of the
line, or nothing. -/
def isSeparated (rest : List Char) : Bool :=
  rest.head?.all (fun c => isSpace c || isBreak c)

def Place.after (place : Place) (c : Char) : Place :=
  if isBreak c then ⟨place.index + 1, place.line + 1, 0⟩
  else ⟨place.index + 1, place.line, place.column + 1⟩

/-- The place after some characters of the same line. -/
def Place.along (place : Place) (count : Nat) : Place :=
  ⟨place.index + count, place.line, place.column + count⟩

/-- Whether these characters, at the beginning of a line, begin with the given
mark of a document. -/
def isMark (mark : String) (rest : List Char) : Bool :=
  rest.take 3 == mark.toList && isSeparated (rest.drop 3)

/-- Whether a mark of a document's beginning or end stands at a place. -/
def isDocumentMark (place : Place) (rest : List Char) : Bool :=
  place.column == 0 && (isMark "---" rest || isMark "..." rest)

def isReadable (c : Char) : Bool :=
  let code := c.toNat
  c == '\t' || c == '\n' || c == '\r' || (0x20 ≤ code && code ≤ 0x7e) || code == 0x85 ||
    (0xa0 ≤ code && code ≤ 0xfffd) || 0x10000 ≤ code

/-- Characters with a line feed in place of each carriage return, next line, or
carriage return and line feed. -/
def unifyBreaks : List Char → List Char
  | [] => []
  | '\r' :: '\n' :: rest => '\n' :: unifyBreaks rest
  | c :: rest => (if c == '\r' || c == '\u0085' then '\n' else c) :: unifyBreaks rest

namespace Cursor

/-- The beginning of a text, none if it holds characters that it may not. -/
def ofText? (text : String) : Option Cursor :=
  let chars := text.toList
  if chars.all isReadable then some ⟨⟨0, 0, 0⟩, unifyBreaks chars⟩ else none

/-- The cursor after some characters of the same line. -/
def along (cursor : Cursor) (count : Nat) : Cursor :=
  ⟨cursor.place.along count, cursor.rest.drop count⟩

end Cursor

end Yaml

end Statechart
