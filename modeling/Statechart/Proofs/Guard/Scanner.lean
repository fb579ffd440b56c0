import Statechart.Guard.Reader

/-!
# Scanning guards at byte offsets

A text is stored as bytes, and a character takes one to four of them.  A scanner
keeps the offset of the next byte, looks ahead by slicing the text there and
moves on by a number of bytes.  A slice that does not begin and end between
characters is an error of its own, and so is a scan that does not come to an end
within the steps allowed to it.
-/

namespace Statechart

namespace Guard

/-- The characters after a number of bytes, if they end between characters. -/
def cut? : Nat → List Char → Option (List Char)
  | 0, chars => some chars
  | _ + 1, [] => none
  | offset + 1, c :: rest =>
    if c.utf8Size ≤ offset + 1 then cut? (offset + 1 - c.utf8Size) rest else none

/-- The characters within a number of bytes, if they end between characters. -/
def front? : Nat → List Char → Option (List Char)
  | 0, _ => some []
  | _ + 1, [] => none
  | bytes + 1, c :: rest =>
    if c.utf8Size ≤ bytes + 1 then
      (front? (bytes + 1 - c.utf8Size) rest).map (c :: ·)
    else
      none

/-- Why a scan yields nothing. -/
inductive Halt where
  | flaw (flaw : Flaw)
  | betweenBoundaries
  | unfinished

/-- Scans from an offset and yields the offset after what it took. -/
abbrev Scan (Result : Type) :=
  StateT Nat (Except Halt) Result

namespace Scan

variable {Result : Type}

def fail (flaw : Flaw) : Scan Result :=
  throw (.flaw flaw)

/-- A slice, which has to end between characters. -/
def slice (found : Option Result) : Scan Result :=
  match found with
  | some chars => return chars
  | none => throw .betweenBoundaries

def advance (bytes : Nat) : Scan Unit :=
  modify (· + bytes)

section

variable (text : List Char)

def remaining : Scan (List Char) := do
  slice (cut? (← get) text)

def peek : Scan (Option Char) := do
  return (← remaining text).head?

def startsWith (beginning : String) : Scan Bool := do
  return beginning.toList.isPrefixOf (← remaining text)

/-- Whether a word comes next that does not continue into a longer name. -/
def startsWithKeyword (word : String) : Scan Bool := do
  let rest ← remaining text
  if word.toList.isPrefixOf rest then
    return !((← slice (cut? (byteCount word.toList) rest)).head?.any Text.isNameChar)
  else
    return false

/-- The characters from an earlier offset up to the one reached. -/
def taken (start : Nat) : Scan (List Char) := do
  let stop ← get
  let rest ← slice (cut? start text)
  if start ≤ stop then slice (front? (stop - start) rest) else throw .betweenBoundaries

/-- Moves past the characters of a class, each of so many bytes, in fewer steps
than allowed. -/
def skipWhile (test : Char → Bool) (bytes : Char → Nat) : Nat → Scan Unit
  | 0 => throw .unfinished
  | steps + 1 => do
    match ← peek text with
    | none => return
    | some c =>
      if test c then
        advance (bytes c)
        skipWhile test bytes steps

/-- More steps than there are characters. -/
def steps : Nat :=
  text.length + 1

def skipBlanks : Scan Unit :=
  skipWhile text Text.isBlank Char.utf8Size (steps text)

def skipDigits : Scan Unit :=
  skipWhile text Char.isDigit (fun _ => 1) (steps text)

def skipChar : Scan Unit := do
  match ← peek text with
  | some c => advance c.utf8Size
  | none => return

/-- Up to the closing quote.  A backslash keeps the next character from closing. -/
def quoted (quote : Char) (start : Nat) : Nat → Scan String
  | 0 => throw .unfinished
  | steps + 1 => do
    match ← peek text with
    | none => fail .unterminatedString
    | some c =>
      if c = quote then
        let content ← taken text start
        advance 1
        return String.ofList content
      else if c = '\\' then
        advance 1
        skipChar text
        quoted quote start steps
      else
        advance c.utf8Size
        quoted quote start steps

def string : Scan String := do
  match ← peek text with
  | some quote =>
    if quote = '"' ∨ quote = '\'' then
      advance 1
      quoted text quote (← get) (steps text)
    else
      fail .stringExpected
  | none => fail .stringExpected

/-- The number that all of the characters are the numeral of. -/
def number? (chars : List Char) : Option Float :=
  let (numeral, rest) := Numeral.take chars
  if rest.isEmpty ∧ ¬ numeral.digits.isEmpty then some numeral.value else none

def skipSign : Scan Unit := do
  if (← peek text) = some '-' then
    advance 1

def skipFraction : Scan Unit := do
  if (← peek text) = some '.' then
    advance 1
    skipDigits text

def skipNumeral : Scan Unit := do
  skipSign text
  skipDigits text
  skipFraction text

def number : Scan Float := do
  skipBlanks text
  let start ← get
  skipNumeral text
  let chars ← taken text start
  match number? chars with
  | some x => return x
  | none => fail (.badNumber (String.ofList chars))

def value : Scan Json.Value := do
  skipBlanks text
  if ← startsWithKeyword text "true" then
    advance 4
    return .bool true
  if ← startsWithKeyword text "false" then
    advance 5
    return .bool false
  if ← startsWithKeyword text "null" then
    advance 4
    return .null
  let next ← peek text
  if next = some '"' ∨ next = some '\'' then
    return .string (← string text)
  let x ← number text
  if x.isInf then
    fail (.infiniteNumber (x < 0))
  else
    return .number (.real x)

def root : Scan FieldRoot := do
  if ← startsWith text "ctx." then
    advance 4
    return .context
  if ← startsWith text "_event." then
    advance 7
    return .event
  fail .rootExpected

def path (root : FieldRoot) : Scan Field := do
  let start ← get
  skipWhile text Text.isPathChar Char.utf8Size (steps text)
  let path ← taken text start
  if path.isEmpty then
    fail .emptyField
  else
    return ⟨root, String.ofList path⟩

def field : Scan Field := do
  path text (← root text)

def comparison : Scan Guard := do
  skipBlanks text
  let field ← field text
  skipBlanks text
  if ← startsWith text "==" then
    advance 2
    return equal field (← value text)
  if ← startsWith text "!=" then
    advance 2
    return unequal field (← value text)
  if ← startsWith text ">=" then
    advance 2
    return compare .atLeast field (← number text)
  if ← startsWith text "<=" then
    advance 2
    return compare .atMost field (← number text)
  if (← peek text) = some '>' then
    advance 1
    return compare .above field (← number text)
  if (← peek text) = some '<' then
    advance 1
    return compare .below field (← number text)
  return truthy field

def closing (flaw : Flaw) : Scan Unit := do
  if (← peek text) = some ')' then
    advance 1
  else
    fail flaw

def stateId : Scan Guard := do
  advance 3
  skipBlanks text
  let state ← string text
  skipBlanks text
  closing text .closingAfterStateExpected
  return active state

def primary (nested : Scan Guard) : Scan Guard := do
  skipBlanks text
  if (← peek text) = some '(' then
    advance 1
    let inner ← nested
    skipBlanks text
    closing text .closingExpected
    return inner
  if ← startsWith text "In(" then
    return (← stateId text)
  if ← startsWithKeyword text "true" then
    advance 4
    return literal true
  if ← startsWithKeyword text "false" then
    advance 5
    return literal false
  comparison text

def unary (nested : Scan Guard) : Nat → Scan Guard
  | 0 => throw .unfinished
  | steps + 1 => do
    skipBlanks text
    if (← peek text) = some '!' ∧ ¬ (← startsWith text "!=") then
      advance 1
      skipBlanks text
      return negation (← unary nested steps)
    primary text nested

/-- Further operands, each after the mark. -/
def operands (mark : String) (join : Guard → Guard → Guard) (operand : Scan Guard) :
    Nat → Guard → Scan Guard
  | 0, _ => throw .unfinished
  | steps + 1, left => do
    skipBlanks text
    if ← startsWith text mark then
      advance 2
      skipBlanks text
      operands mark join operand steps (join left (← operand))
    else
      return left

def chain (mark : String) (join : Guard → Guard → Guard) (operand : Scan Guard) : Scan Guard := do
  operands text mark join operand (steps text) (← operand)

/-- A guard with fewer parentheses around one another than allowed. -/
def within : Nat → Scan Guard
  | 0 => throw .unfinished
  | depth + 1 => chain text "||" either (chain text "&&" both (unary text (within depth) (steps text)))

/-- A guard and nothing after it. -/
def guard : Scan Guard := do
  let guard ← within text (steps text)
  skipBlanks text
  let offset ← get
  if offset < byteCount text then
    fail (.trailing offset)
  return guard

end

end Scan

/-- Scans a text from its first byte, blanks around it left out. -/
def scan (text : String) : Except Halt Guard :=
  let input := Text.trimChars text.toList
  if input.isEmpty then
    .error (.flaw .empty)
  else
    (Scan.guard input).run' 0

end Guard

end Statechart
