import Statechart.Yaml.Lines
import Statechart.Yaml.Plain
import Statechart.Yaml.Quoted

/-!
# YAML tokens

A text is cut into tokens with the columns at which the open blocks are indented
on a stack: a block begins where something is indented further than the
innermost of them, and ends where something is indented less.  That a scalar is
the key of an entry shows only at the colon after it, on the same line and not
too far away, so its place is kept until then.

Anchors, tags and directives are not read.
-/

namespace Statechart

namespace Yaml

/-- A token of a YAML text. -/
inductive Token where
  | scalar (text : String) (isPlain : Bool)
  | documentStart
  | documentEnd
  /-- A block of items begins. -/
  | sequenceStart
  /-- A block of entries begins. -/
  | mappingStart
  | blockEnd
  /-- The dash before an item. -/
  | item
  | key
  | value
  | openBracket
  | closeBracket
  | openBrace
  | closeBrace
  | comma
deriving DecidableEq, Repr

/-- Where the key of an entry may have begun. -/
structure PossibleKey where
  place : Place
  /-- How many tokens come before it. -/
  tokensBefore : Nat
  /-- Whether nothing but a key can begin there. -/
  isRequired : Bool

/-- The greatest length of a key that no mark announces. -/
def keyLimit : Nat :=
  1024

/-- Whether the colon of a key would have to come before a place. -/
def PossibleKey.isStale (key : PossibleKey) (place : Place) : Bool :=
  key.place.line < place.line || key.place.index + keyLimit < place.index

/-- A key that may still turn out to be one, none if it was required to. -/
def PossibleKey.refresh? (place : Place) : Option PossibleKey → Option (Option PossibleKey)
  | none => some none
  | some key =>
    if !key.isStale place then some (some key)
    else if key.isRequired then none
    else some none

/-- A scan in progress. -/
structure Scan where
  cursor : Cursor
  /-- The tokens found, the last one first. -/
  found : List Token := []
  /-- How many tokens were found. -/
  count : Nat := 0
  /-- The columns of the open blocks, the innermost one first. -/
  indents : List Nat := []
  /-- Whether a key may begin here. -/
  mayBeginKey : Bool := true
  possibleKey : Option PossibleKey := none
  /-- The possible keys outside each open bracket and brace. -/
  outerKeys : List (Option PossibleKey) := []

namespace Scan

def isFlow (scan : Scan) : Bool :=
  !scan.outerKeys.isEmpty

/-- The column at which the innermost block begins, zero where there is none. -/
def indent (scan : Scan) : Nat :=
  scan.indents.head?.getD 0

/-- The least column of what belongs to the innermost block. -/
def least (scan : Scan) : Nat :=
  if scan.indents.isEmpty then 0 else scan.indent + 1

def push (scan : Scan) (token : Token) : Scan :=
  { scan with found := token :: scan.found, count := scan.count + 1 }

def along (scan : Scan) (count : Nat) : Scan :=
  { scan with cursor := scan.cursor.along count }

/-! ## Blocks -/

/-- Whether a block that begins at a column is within the innermost one. -/
def opensBlock (scan : Scan) (column : Nat) : Bool :=
  !scan.isFlow && scan.indents.head?.all (· < column)

/-- Begins a block here unless the innermost one is at the same column. -/
def openBlock (scan : Scan) (token : Token) : Scan :=
  let column := scan.cursor.place.column
  if scan.opensBlock column then { scan.push token with indents := column :: scan.indents }
  else scan

/-- Ends the blocks whose columns have a property. -/
def closeWhile (scan : Scan) (isClosed : Nat → Bool) : Scan :=
  if scan.isFlow then scan
  else
    let closed := scan.indents.takeWhile isClosed
    { scan with
      indents := scan.indents.drop closed.length
      found := closed.map (fun _ => .blockEnd) ++ scan.found
      count := scan.count + closed.length }

def closeAll (scan : Scan) : Scan :=
  scan.closeWhile (fun _ => true)

/-! ## Keys -/

/-- Gives up the keys whose colon would have to have come; none if one of them
was required. -/
def refreshKeys? (scan : Scan) : Option Scan := do
  let place := scan.cursor.place
  return { scan with
    possibleKey := ← PossibleKey.refresh? place scan.possibleKey
    outerKeys := ← scan.outerKeys.mapM (PossibleKey.refresh? place) }

/-- Gives up the possible key, none if it was required. -/
def dropKey? (scan : Scan) : Option Scan :=
  if scan.possibleKey.any (·.isRequired) then none else some { scan with possibleKey := none }

/-- Keeps this place if a key may begin here.  It has to if the innermost block
is at its column. -/
def saveKey? (scan : Scan) : Option Scan := do
  if !scan.mayBeginKey then return scan
  let place := scan.cursor.place
  let key : PossibleKey := {
    place
    tokensBefore := scan.count
    isRequired := !scan.isFlow && scan.indents.head? == some place.column }
  return { ← scan.dropKey? with possibleKey := some key }

/-- Takes the possible key for one: its tokens come after the mark of a key, and
after that of a block if it begins one. -/
def resolveKey (scan : Scan) (key : PossibleKey) : Scan :=
  let later := scan.count - key.tokensBefore
  let column := key.place.column
  let opens := scan.opensBlock column
  { scan with
    found := scan.found.take later ++
      .key :: (if opens then [.mappingStart] else []) ++ scan.found.drop later
    count := scan.count + (if opens then 2 else 1)
    indents := if opens then column :: scan.indents else scan.indents
    possibleKey := none }

/-! ## Single tokens -/

/-- Passes over blanks, comments and line breaks, and over a byte order mark at
the beginning of a line, which takes up a column.  A tab may not stand where a
key may begin, unless brackets or braces are open. -/
def skipBlanks (isFlow mayBeginKey isComment : Bool) (place : Place) :
    List Char → Bool × Cursor
  | [] => (mayBeginKey, ⟨place, []⟩)
  | c :: rest =>
    if isBreak c then
      skipBlanks isFlow (mayBeginKey || !isFlow) false (place.after c) rest
    else if isComment || c == ' ' || (c == '\t' && (isFlow || !mayBeginKey)) then
      skipBlanks isFlow mayBeginKey isComment (place.after c) rest
    else if c == '#' then
      skipBlanks isFlow mayBeginKey true (place.after c) rest
    else if c == '\ufeff' && place.column == 0 then
      skipBlanks isFlow mayBeginKey false (place.after c) rest
    else
      (mayBeginKey, ⟨place, c :: rest⟩)

/-- Goes to the next token and ends the blocks that it is not in. -/
def advance? (scan : Scan) : Option Scan := do
  let (mayBeginKey, cursor) :=
    skipBlanks scan.isFlow scan.mayBeginKey false scan.cursor.place scan.cursor.rest
  let scan ← { scan with mayBeginKey, cursor }.refreshKeys?
  return scan.closeWhile (cursor.place.column < ·)

/-- Takes the mark of a document's beginning or end. -/
def takeDocumentMark? (scan : Scan) (token : Token) : Option Scan := do
  let scan ← scan.closeAll.dropKey?
  return { (scan.push token).along 3 with mayBeginKey := false }

def takeOpening? (scan : Scan) (token : Token) : Option Scan := do
  let scan ← scan.saveKey?
  return { (scan.push token).along 1 with
    mayBeginKey := true
    possibleKey := none
    outerKeys := scan.possibleKey :: scan.outerKeys }

def takeClosing? (scan : Scan) (token : Token) : Option Scan := do
  let scan ← scan.dropKey?
  let scan := { (scan.push token).along 1 with mayBeginKey := false }
  match scan.outerKeys with
  | [] => return scan
  | key :: outerKeys => return { scan with possibleKey := key, outerKeys }

def takeComma? (scan : Scan) : Option Scan := do
  return { ((← scan.dropKey?).push .comma).along 1 with mayBeginKey := true }

/-- Takes a dash, which begins a block of items where there is none. -/
def takeDash? (scan : Scan) : Option Scan := do
  if !scan.isFlow && !scan.mayBeginKey then none
  let scan ← (scan.openBlock .sequenceStart).dropKey?
  return { (scan.push .item).along 1 with mayBeginKey := true }

/-- Takes a question mark, which announces a key. -/
def takeQuestion? (scan : Scan) : Option Scan := do
  if !scan.isFlow && !scan.mayBeginKey then none
  let scan ← (scan.openBlock .mappingStart).dropKey?
  return { (scan.push .key).along 1 with mayBeginKey := !scan.isFlow }

def takeColon? (scan : Scan) : Option Scan :=
  match scan.possibleKey with
  | some key =>
    some { ((scan.resolveKey key).push .value).along 1 with mayBeginKey := false }
  | none =>
    if !scan.isFlow && !scan.mayBeginKey then none
    else
      some { ((scan.openBlock .mappingStart).push .value).along 1 with
        mayBeginKey := !scan.isFlow }

/-- Takes a scalar between apostrophes or quotes. -/
def takeQuoted? (scan : Scan) (read : Place → List Char → Option (String × Cursor)) :
    Option Scan := do
  let scan ← scan.saveKey?
  let opened := scan.cursor.along 1
  let (text, cursor) ← read opened.place opened.rest
  return { scan.push (.scalar text false) with cursor, mayBeginKey := false }

def takeLines? (scan : Scan) (isFolded : Bool) : Option Scan := do
  let scan ← scan.dropKey?
  let (text, cursor) ← readBlockScalar? isFolded scan.least scan.indent (scan.cursor.along 1)
  return { scan.push (.scalar text false) with cursor, mayBeginKey := true }

def takePlain? (scan : Scan) : Option Scan := do
  let scan ← scan.saveKey?
  let found ←
    readPlain? scan.isFlow scan.least "" .nothing scan.cursor.place scan.cursor.rest
  return { scan.push (.scalar found.text true) with
    cursor := found.cursor
    mayBeginKey := found.isBroken }

/-- Takes the token that begins with a character. -/
def take? (scan : Scan) (c : Char) (rest : List Char) : Option Scan :=
  let isFlow := scan.isFlow
  let isFirst := scan.cursor.place.column == 0
  if isFirst && isMark "---" (c :: rest) then scan.takeDocumentMark? .documentStart
  else if isFirst && isMark "..." (c :: rest) then scan.takeDocumentMark? .documentEnd
  else if c == '[' then scan.takeOpening? .openBracket
  else if c == '\x7b' then scan.takeOpening? .openBrace
  else if c == ']' then scan.takeClosing? .closeBracket
  else if c == '\x7d' then scan.takeClosing? .closeBrace
  else if c == ',' then scan.takeComma?
  else if c == '-' && isSeparated rest then scan.takeDash?
  else if c == '?' && (isFlow || isSeparated rest) then scan.takeQuestion?
  else if c == ':' && (isFlow || isSeparated rest) then scan.takeColon?
  else if c == '|' && !isFlow then scan.takeLines? false
  else if c == '>' && !isFlow then scan.takeLines? true
  else if c == '\x27' then scan.takeQuoted? (readSingleQuoted? "" .nothing)
  else if c == '"' then
    scan.takeQuoted? (fun place input => readDoubleQuoted? "" .nothing place 0 [] input)
  else if mayBeginPlain isFlow c rest then scan.takePlain?
  else none

/-- The tokens of a text, within a number of tokens. -/
def tokensWithin? : Nat → Scan → Option (List Token)
  | 0, _ => none
  | limit + 1, scan => do
    let scan ← scan.advance?
    match scan.cursor.rest with
    | [] => return (← scan.closeAll.dropKey?).found.reverse
    | c :: rest => tokensWithin? limit (← scan.take? c rest)

end Scan

/-- The tokens of a text, none if it cannot be cut into tokens. -/
def Token.ofText? (text : String) : Option (List Token) := do
  let cursor ← Cursor.ofText? text
  Scan.tokensWithin? (cursor.rest.length + 1) { cursor }

end Yaml

end Statechart
