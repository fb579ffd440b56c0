import Statechart.Json.Value
import Statechart.Text.Digits

/-!
# What plain scalars stand for

A scalar of a YAML text that has no quotes may stand for nothing, a truth value
or a number.  Digits after a leading zero are no number.  An integer has at most
128 bits: decimal digits beyond that are a double, and what is too large for a
double as well is a text.
-/

namespace Statechart

namespace Yaml

def isVoid (text : String) : Bool :=
  ["", "~", "null", "Null", "NULL"].contains text

def truth? (text : String) : Option Bool :=
  if ["true", "True", "TRUE"].contains text then some true
  else if ["false", "False", "FALSE"].contains text then some false
  else none

/-- The number of an integer without its sign: decimal, or in the base that its
first two characters name. -/
def magnitude? : List Char → Option Nat
  | '0' :: 'x' :: digits => Text.numberOfDigits? 16 digits
  | '0' :: 'o' :: digits => Text.numberOfDigits? 8 digits
  | '0' :: 'b' :: digits => Text.numberOfDigits? 2 digits
  | '0' :: _ :: _ => none
  | digits => Text.numberOfDigits? 10 digits

/-- Whether a number has a minus sign, and what follows its sign. -/
def cutSign : List Char → Bool × List Char
  | '-' :: rest => (true, rest)
  | '+' :: rest => (false, rest)
  | rest => (false, rest)

def integer? (text : String) : Option Int :=
  let (isMinus, rest) := cutSign text.toList
  ((magnitude? rest).map (fun number => if isMinus then -(number : Int) else number)).filter
    (fun n => -Int.pow 2 127 ≤ n ∧ n < Int.pow 2 128)

/-- The integer of a plain scalar without a minus sign. -/
def natural? (text : String) : Option Nat :=
  let (isMinus, rest) := cutSign text.toList
  if isMinus then none else magnitude? rest

/-- Whether a text has more than one digit, the first of them zero, and nothing
else but a sign. -/
def hasLeadingZero (text : String) : Bool :=
  match (cutSign text.toList).2 with
  | '0' :: digit :: rest => (digit :: rest).all Char.isDigit
  | _ => false

/-- The exponent of a decimal fraction, zero where there is none. -/
def exponent? : List Char → Option Int
  | [] => some 0
  | mark :: rest =>
    if mark == 'e' || mark == 'E' then
      let (isMinus, digits) := cutSign rest
      (Text.numberOfDigits? 10 digits).map
        (fun number => if isMinus then -(number : Int) else number)
    else
      none

/-- The double nearest to `digits · 10 ^ exponent`, none if that is infinite. -/
def nearest? (digits : List Char) (exponent : Int) : Option Float :=
  let significand := (Text.numberOfDigits? 10 digits).getD 0
  let top := exponent + digits.length
  if significand = 0 ∨ top < -400 then
    some 0
  else if 400 < top - (digits.takeWhile (· == '0')).length then
    none
  else
    let magnitude := Float.ofScientific significand (decide (exponent < 0)) exponent.natAbs
    if magnitude.isInf then none else some magnitude

/-- The double of a decimal fraction without its sign. -/
def fraction? (input : List Char) : Option Float := do
  let whole := input.takeWhile Char.isDigit
  let afterWhole := input.drop whole.length
  let isPointed := afterWhole.head? == some '.'
  let places := if isPointed then (afterWhole.drop 1).takeWhile Char.isDigit else []
  let rest := afterWhole.drop (if isPointed then places.length + 1 else 0)
  let digits := whole ++ places
  if digits.isEmpty then none
  nearest? digits ((← exponent? rest) - places.length)

/-- The double of a plain scalar that names an infinity or no number at all. -/
def specialReal? (text : String) : Option Float :=
  let (isMinus, rest) := cutSign text.toList
  if [".nan", ".NaN", ".NAN"].contains text then some (0 / 0)
  else if [".inf", ".Inf", ".INF"].contains (String.ofList rest) then
    some (if isMinus then -1 / 0 else 1 / 0)
  else none

/-- The double of a plain scalar, which is finite. -/
def real? (text : String) : Option Float :=
  if hasLeadingZero text then none
  else
    let (isMinus, rest) := cutSign text.toList
    (fraction? rest).map (fun magnitude => if isMinus then -magnitude else magnitude)

def isNumber (text : String) : Bool :=
  (integer? text).isSome || (real? text).isSome || (specialReal? text).isSome

def numberOfInt? (n : Int) : Option Json.Number :=
  if -Int.pow 2 63 ≤ n ∧ n < Int.pow 2 64 then some (.ofInt n) else none

/-- The JSON value of a plain scalar; a longer integer has none. -/
def plainValue? (text : String) : Option Json.Value :=
  if isVoid text then some .null
  else
    match truth? text, integer? text with
    | some truth, _ => some (.bool truth)
    | none, some n => (numberOfInt? n).map .number
    | none, none =>
      match (real? text).or (specialReal? text) with
      | some x => some (.number (.real x))
      | none => some (.string text)

end Yaml

end Statechart
