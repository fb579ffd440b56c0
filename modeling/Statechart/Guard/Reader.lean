import Statechart.Guard.Basic
import Statechart.Text.Alphanumeric

/-!
# Reading guards

A guard is a disjunction of conjunctions of possibly negated primaries: a
guard in parentheses, `In("state")`, a truth literal, a field, or a field
compared with a value.  Blanks may stand between the parts.

A reader takes characters from the front of its input and yields what is left.
Nesting is bounded by the length of the input, because every parenthesis takes
a character.
-/

namespace Statechart

namespace Guard

/-- Why a text is not a guard. -/
inductive Flaw where
  | empty
  | trailing (offset : Nat)
  | closingExpected
  | closingAfterStateExpected
  | stringExpected
  | unterminatedString
  | rootExpected
  | emptyField
  | badNumber (numeral : String)
  | infiniteNumber (isMinus : Bool)
deriving DecidableEq, Repr

def Flaw.message : Flaw → String
  | .empty => "empty guard expression"
  | .trailing offset => s!"unexpected input at offset {offset}"
  | .closingExpected => "expected ')'"
  | .closingAfterStateExpected => "expected ')' after In(\"...\""
  | .stringExpected => "expected string"
  | .unterminatedString => "unterminated string"
  | .rootExpected => "field must start with 'ctx.' or '_event.'"
  | .emptyField => "empty field name"
  | .badNumber numeral => s!"invalid number: '{numeral}'"
  | .infiniteNumber isMinus =>
    if isMinus then "number out of range: -inf" else "number out of range: inf"

/-- Reads a `Result` from the front of an input and yields what is left. -/
abbrev Reader (Result : Type) :=
  List Char → Except Flaw (Result × List Char)

def skip? (beginning : String) (input : List Char) : Option (List Char) :=
  if beginning.toList.isPrefixOf input then some (input.drop beginning.toList.length) else none

/-- What follows a keyword that does not continue into a longer name. -/
def skipKeyword? (word : String) (input : List Char) : Option (List Char) :=
  match skip? word input with
  | none => none
  | some [] => some []
  | some (c :: rest) => if Text.isNameChar c then none else some (c :: rest)

/-- Reads up to a closing quote.  A backslash keeps the next character from
closing; both stay part of the string. -/
def readQuoted (quote : Char) : List Char → Option (List Char × List Char)
  | [] => none
  | '\\' :: [] => none
  | '\\' :: c :: rest =>
    (readQuoted quote rest).map (fun found => ('\\' :: c :: found.1, found.2))
  | c :: rest =>
    if c = quote then some ([], rest)
    else (readQuoted quote rest).map (fun found => (c :: found.1, found.2))

def readString : Reader String
  | c :: rest =>
    if c = '"' ∨ c = '\'' then
      match readQuoted c rest with
      | some (content, rest) => .ok (String.ofList content, rest)
      | none => .error .unterminatedString
    else
      .error .stringExpected
  | [] => .error .stringExpected

/-- A numeral: an optional minus, digits, and optionally a point and digits. -/
structure Numeral where
  isMinus : Bool
  whole : List Char
  fraction : Option (List Char)
deriving DecidableEq, Repr

namespace Numeral

def chars (numeral : Numeral) : List Char :=
  (if numeral.isMinus then ['-'] else []) ++ numeral.whole ++
    match numeral.fraction with
    | none => []
    | some digits => '.' :: digits

def digits (numeral : Numeral) : List Char :=
  numeral.whole ++ numeral.fraction.getD []

def value (numeral : Numeral) : Float :=
  let mantissa := numeral.digits.foldl (fun n c => 10 * n + (c.toNat - '0'.toNat)) 0
  let magnitude := Float.ofScientific mantissa true (numeral.fraction.getD []).length
  if numeral.isMinus then -magnitude else magnitude

/-- Takes the longest numeral, possibly without digits, from the front. -/
def take (input : List Char) : Numeral × List Char :=
  let (isMinus, afterSign) :=
    match input with
    | '-' :: rest => (true, rest)
    | rest => (false, rest)
  let whole := afterSign.takeWhile Char.isDigit
  match afterSign.drop whole.length with
  | '.' :: rest =>
    let fraction := rest.takeWhile Char.isDigit
    (⟨isMinus, whole, some fraction⟩, rest.drop fraction.length)
  | rest => (⟨isMinus, whole, none⟩, rest)

end Numeral

def readNumber : Reader Float := fun input =>
  let (numeral, rest) := Numeral.take (Text.skipBlanks input)
  if numeral.digits.isEmpty then
    .error (.badNumber (String.ofList numeral.chars))
  else
    .ok (numeral.value, rest)

/-- Reads a value to compare with: a literal, a string or a finite number. -/
def readValue : Reader Json.Value := fun input =>
  let input := Text.skipBlanks input
  match skipKeyword? "true" input with
  | some rest => .ok (.bool true, rest)
  | none =>
  match skipKeyword? "false" input with
  | some rest => .ok (.bool false, rest)
  | none =>
  match skipKeyword? "null" input with
  | some rest => .ok (.null, rest)
  | none =>
  match input with
  | '"' :: _ | '\'' :: _ => (readString input).map (fun found => (.string found.1, found.2))
  | _ => do
    let (x, rest) ← readNumber input
    if x.isInf then
      .error (.infiniteNumber (x < 0))
    else
      .ok (.number (.real x), rest)

/-- Reads a field: its root and the longest path after it. -/
def readField : Reader Field := fun input =>
  let path (root : FieldRoot) (rest : List Char) : Except Flaw (Field × List Char) :=
    let chars := rest.takeWhile Text.isPathChar
    if chars.isEmpty then
      .error .emptyField
    else
      .ok (⟨root, String.ofList chars⟩, rest.drop chars.length)
  match skip? "ctx." input with
  | some rest => path .context rest
  | none =>
    match skip? "_event." input with
    | some rest => path .event rest
    | none => .error .rootExpected

/-- Reads a field and what it is compared with, if anything. -/
def readComparison : Reader Guard := fun input => do
  let (field, rest) ← readField input
  let against (join : Json.Value → Guard) (rest : List Char) :=
    (readValue rest).map (fun found => (join found.1, found.2))
  let bounded (order : Comparison) (rest : List Char) :=
    (readNumber rest).map (fun found => (compare order field found.1, found.2))
  match Text.skipBlanks rest with
  | '=' :: '=' :: rest => against (equal field) rest
  | '!' :: '=' :: rest => against (unequal field) rest
  | '>' :: '=' :: rest => bounded .atLeast rest
  | '<' :: '=' :: rest => bounded .atMost rest
  | '>' :: rest => bounded .above rest
  | '<' :: rest => bounded .below rest
  | rest => .ok (truthy field, rest)

/-- Reads a state id and the parenthesis after it. -/
def readActive : Reader Guard := fun input => do
  let (state, rest) ← readString (Text.skipBlanks input)
  match Text.skipBlanks rest with
  | ')' :: rest => .ok (active state, rest)
  | _ => .error .closingAfterStateExpected

/-- Reads a primary, with a reader for the guard in parentheses. -/
def readPrimary (nested : Reader Guard) : Reader Guard := fun input =>
  match Text.skipBlanks input with
  | '(' :: rest => do
    let (inner, rest) ← nested rest
    match Text.skipBlanks rest with
    | ')' :: rest => .ok (inner, rest)
    | _ => .error .closingExpected
  | input =>
    match skip? "In(" input with
    | some rest => readActive rest
    | none =>
    match skipKeyword? "true" input with
    | some rest => .ok (literal true, rest)
    | none =>
    match skipKeyword? "false" input with
    | some rest => .ok (literal false, rest)
    | none => readComparison input

/-- Counts the negation signs at the front, blanks between them allowed.  The
sign of an inequality is not one of them. -/
def takeNegations : List Char → Nat × List Char
  | [] => (0, [])
  | '!' :: '=' :: rest => (0, '!' :: '=' :: rest)
  | '!' :: rest =>
    let (count, rest) := takeNegations rest
    (count + 1, rest)
  | c :: rest => if Text.isBlank c then takeNegations rest else (0, c :: rest)

def negated : Nat → Guard → Guard
  | 0, guard => guard
  | count + 1, guard => negation (negated count guard)

/-- Reads a primary under any number of negation signs. -/
def readUnary (primary : Reader Guard) : Reader Guard := fun input => do
  let (count, rest) := takeNegations input
  let (inner, rest) ← primary rest
  .ok (negated count inner, rest)

/-- Reads further operands as long as the doubled mark comes before one, at most
`limit` of them, and joins them to the left. -/
def readOperands (mark : Char) (join : Guard → Guard → Guard) (operand : Reader Guard) :
    Nat → Guard → Reader Guard
  | 0, left, input => .ok (left, Text.skipBlanks input)
  | limit + 1, left, input =>
    match Text.skipBlanks input with
    | first :: second :: rest =>
      if first = mark ∧ second = mark then do
        let (right, rest) ← operand (Text.skipBlanks rest)
        readOperands mark join operand limit (join left right) rest
      else
        .ok (left, first :: second :: rest)
    | rest => .ok (left, rest)

/-- Reads one or more operands joined to the left by a doubled mark. -/
def readChain (mark : Char) (join : Guard → Guard → Guard) (operand : Reader Guard) :
    Reader Guard := fun input => do
  let (first, rest) ← operand input
  readOperands mark join operand rest.length first rest

/-- Reads a guard with parentheses nested at most `depth` deep.  An input of no
more characters than `depth` cannot nest deeper. -/
def readWithin : Nat → Reader Guard
  | 0 => fun _ => .error .rootExpected
  | depth + 1 =>
    readChain '|' either (readChain '&' both (readUnary (readPrimary (readWithin depth))))

/-- The number of bytes of a sequence of characters. -/
def byteCount (chars : List Char) : Nat :=
  chars.foldl (fun count c => count + c.utf8Size) 0

def parse (text : String) : Except Flaw Guard := do
  let input := Text.trimChars text.toList
  if input.isEmpty then
    .error .empty
  else
    let (guard, rest) ← readWithin input.length input
    match Text.skipBlanks rest with
    | [] => .ok guard
    | rest => .error (.trailing (byteCount input - byteCount rest))

end Guard

end Statechart
