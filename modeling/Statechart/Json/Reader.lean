import Statechart.Json.Tree
import Statechart.Text.Digits

/-!
# Reading JSON texts

A text is cut into tokens, and a machine with a stack of open containers takes
the tokens one at a time.  What comes out is the tree of the text, of which a
reader then takes the value.
-/

namespace Statechart

namespace Json

/-- A token of a JSON text: `leaf` is a literal or a number, and neither it nor a
text need have a value. -/
inductive Token where
  | openArray
  | closeArray
  | openObject
  | closeObject
  | colon
  | comma
  | text (content : Option String)
  | leaf (value : Option Value)

def isTokenBlank (c : Char) : Bool :=
  c == ' ' || c == '\n' || c == '\t' || c == '\r'

def codeUnit? (a b c d : Char) : Option Nat :=
  Text.numberOfDigits? 16 [a, b, c, d]

/-- The character of a backslash escape of one letter. -/
def shortEscape? (c : Char) : Option Char :=
  if c == '"' || c == '\\' || c == '/' then some c
  else if c == 'n' then some '\n'
  else if c == 't' then some '\t'
  else if c == 'r' then some '\r'
  else if c == 'b' then some '\x08'
  else if c == 'f' then some '\x0c'
  else none

def isHighUnit (unit : Nat) : Bool :=
  0xd800 ≤ unit && unit ≤ 0xdbff

def isLowUnit (unit : Nat) : Bool :=
  0xdc00 ≤ unit && unit ≤ 0xdfff

def pairedChar (high low : Nat) : Char :=
  Char.ofNat (0x10000 + (high - 0xd800) * 0x400 + (low - 0xdc00))

/-- Reads a string after its opening quote, up to its closing one.  With half of
a pair of code units in it there is no text. -/
def readString? (text : Option String) : List Char → Option (Option String × List Char)
  | [] => none
  | '"' :: rest => some (text, rest)
  | '\\' :: 'u' :: a :: b :: c :: d :: rest =>
    match codeUnit? a b c d with
    | none => none
    | some unit =>
      if isHighUnit unit then
        match rest with
        | '\\' :: 'u' :: e :: f :: g :: h :: after =>
          match (codeUnit? e f g h).filter isLowUnit with
          | none => readString? none ('\\' :: 'u' :: e :: f :: g :: h :: after)
          | some low => readString? (text.map (·.push (pairedChar unit low))) after
        | rest => readString? none rest
      else if isLowUnit unit then
        readString? none rest
      else
        readString? (text.map (·.push (Char.ofNat unit))) rest
  | '\\' :: c :: rest =>
    match shortEscape? c with
    | none => none
    | some plain => readString? (text.map (·.push plain)) rest
  | c :: rest =>
    if c.toNat < 0x20 then none else readString? (text.map (·.push c)) rest

def readToken? : List Char → Option (Token × List Char)
  | '[' :: rest => some (.openArray, rest)
  | ']' :: rest => some (.closeArray, rest)
  | '\x7b' :: rest => some (.openObject, rest)
  | '\x7d' :: rest => some (.closeObject, rest)
  | ':' :: rest => some (.colon, rest)
  | ',' :: rest => some (.comma, rest)
  | '"' :: rest => (readString? (some "") rest).map (fun found => (.text found.1, found.2))
  | 'n' :: 'u' :: 'l' :: 'l' :: rest => some (.leaf (some .null), rest)
  | 't' :: 'r' :: 'u' :: 'e' :: rest => some (.leaf (some (.bool true)), rest)
  | 'f' :: 'a' :: 'l' :: 's' :: 'e' :: rest => some (.leaf (some (.bool false)), rest)
  | input => (Number.read? input).map (fun found => (.leaf (found.1.map .number), found.2))

/-- The tokens of a text of at most `limit` characters, after those found so far. -/
def tokensWithin (found : Array Token) : Nat → List Char → Option (Array Token)
  | _, [] => some found
  | 0, _ :: _ => none
  | limit + 1, c :: rest =>
    if isTokenBlank c then
      tokensWithin found limit rest
    else
      match readToken? (c :: rest) with
      | none => none
      | some (token, after) => tokensWithin (found.push token) limit after

def tokens? (text : String) : Option (Array Token) :=
  tokensWithin #[] text.toList.length text.toList

/-- An open container: the items or the fields so far, the last one first, and
the name of the field being read. -/
inductive Frame where
  | items (found : List Tree)
  | fields (found : List (Option String × Tree)) (name : Option String)

/-- What may come next. -/
inductive Awaiting where
  | value
  | valueOrEnd
  | name
  | nameOrEnd
  | colon
  | separator
  | nothing (result : Tree)

/-- A reading in progress. -/
structure Reading where
  frames : List Frame
  awaiting : Awaiting

namespace Reading

def start : Reading :=
  ⟨[], .value⟩

/-- Something complete goes into the innermost open container. -/
def complete (frames : List Frame) (content : Tree) : Reading :=
  match frames with
  | [] => ⟨[], .nothing content⟩
  | .items found :: outer => ⟨.items (content :: found) :: outer, .separator⟩
  | .fields found name :: outer => ⟨.fields ((name, content) :: found) none :: outer, .separator⟩

def takeValue? (frames : List Frame) : Token → Option Reading
  | .leaf value => some (complete frames (.leaf value))
  | .text content => some (complete frames (.leaf (content.map .string)))
  | .openArray => some ⟨.items [] :: frames, .valueOrEnd⟩
  | .openObject => some ⟨.fields [] none :: frames, .nameOrEnd⟩
  | _ => none

/-- Closes the innermost container if the token fits it. -/
def close? : List Frame → Token → Option Reading
  | .items found :: outer, .closeArray => some (complete outer (.array found.reverse))
  | .fields found _ :: outer, .closeObject => some (complete outer (.object found.reverse))
  | _, _ => none

def takeName? : List Frame → Token → Option Reading
  | .fields found _ :: outer, .text name => some ⟨.fields found name :: outer, .colon⟩
  | _, _ => none

def afterComma : List Frame → Awaiting
  | .fields _ _ :: _ => .name
  | _ => .value

def take? (reading : Reading) (token : Token) : Option Reading :=
  match reading.awaiting, token with
  | .value, token => takeValue? reading.frames token
  | .valueOrEnd, .closeArray => close? reading.frames token
  | .valueOrEnd, token => takeValue? reading.frames token
  | .name, token => takeName? reading.frames token
  | .nameOrEnd, .closeObject => close? reading.frames token
  | .nameOrEnd, token => takeName? reading.frames token
  | .colon, .colon => some { reading with awaiting := .value }
  | .separator, .comma => some { reading with awaiting := afterComma reading.frames }
  | .separator, token => close? reading.frames token
  | _, _ => none

end Reading

/-- The tree of a JSON text, none if the text is not one. -/
def Tree.ofText? (text : String) : Option Tree := do
  let tokens ← tokens? text
  let reading ← tokens.foldlM Reading.take? Reading.start
  match reading.awaiting with
  | .nothing content => some content
  | _ => none

/-- The value of a JSON text, none if the text has none. -/
def parse? (text : String) : Option Value := do
  (← Tree.ofText? text).value?

end Json

end Statechart
