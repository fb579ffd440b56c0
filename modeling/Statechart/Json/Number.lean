import Statechart.Decimal.Shortest

/-!
# Numbers of JSON texts

A number is an unsigned 64-bit integer, a negative signed 64-bit integer or a
double.  A literal with a fraction or an exponent, an integer outside both
ranges and `-0` are doubles.  Digits that do not fit 64 bits only move the
decimal point, and the double is one product or quotient with a power of ten;
a literal too large for a double has no value.
-/

namespace Statechart

namespace Json

/-- The three kinds of numbers. -/
inductive Number where
  | natural (value : UInt64)
  | negative (value : Int64)
  | real (value : Float)
deriving Repr

namespace Number

def toFloat : Number → Float
  | natural value => value.toFloat
  | negative value => value.toFloat
  | real value => value

def ofNat (n : Nat) : Number :=
  natural n.toUInt64

/-- An integer that is known to fit one of the two ranges. -/
def ofInt (n : Int) : Number :=
  if n < 0 then negative n.toInt64 else natural n.toNat.toUInt64

def toInt? : Number → Option Int
  | natural value => some value.toNat
  | negative value => some value.toInt
  | real _ => none

/-- The text of decimal digits and an exponent: positional, with a fraction,
when the first digit stands for `10 ^ -5` to `10 ^ 15`, otherwise one digit
before the point and an exponent with its sign. -/
def decimalText (x : Decimal) : String :=
  let digits := Nat.toDigits 10 x.digits
  let count := digits.length
  let top := x.exponent + (count : Int) - 1
  if 0 ≤ x.exponent ∧ top ≤ 15 then
    String.ofList (digits ++ List.replicate x.exponent.toNat '0') ++ ".0"
  else if 0 ≤ top ∧ top ≤ 15 then
    let whole := (top + 1).toNat
    String.ofList (digits.take whole) ++ "." ++ String.ofList (digits.drop whole)
  else if -5 ≤ top ∧ top < 0 then
    "0." ++ String.ofList (List.replicate (-top - 1).toNat '0' ++ digits)
  else
    let fraction := if count = 1 then "" else "." ++ String.ofList (digits.drop 1)
    let sign := if top < 0 then "-" else "+"
    String.ofList (digits.take 1) ++ fraction ++ "e" ++ sign ++ toString top.natAbs

def realText (x : Float) : String :=
  (if Decimal.isNegative x then "-" else "") ++ decimalText (Decimal.shortest x)

def text : Number → String
  | natural value => toString value.toNat
  | negative value => toString value.toInt
  | real value => realText value

/-! ## Reading -/

/-- The power of ten nearest to `10 ^ n`. -/
def powerOfTen (n : Nat) : Float :=
  Float.ofScientific 1 false n

/-- Divides by `10 ^ n`, at most `10 ^ 308` at a time. -/
def scaleDown (x : Float) (n : Nat) : Float :=
  if n ≤ 308 then
    x / powerOfTen n
  else if x == 0 then
    x
  else
    scaleDown (x / powerOfTen 308) (n - 308)
termination_by n

/-- The double `significand · 10 ^ exponent`, none if it is too large. -/
def scale? (significand : Nat) (exponent : Int) : Option Float :=
  let x := significand.toUInt64.toFloat
  if exponent < 0 then
    some (scaleDown x exponent.natAbs)
  else if exponent ≤ 308 then
    let scaled := x * powerOfTen exponent.toNat
    if scaled.isInf then none else some scaled
  else if x == 0 then
    some x
  else
    none

def digitValue (c : Char) : Nat :=
  c.toNat - '0'.toNat

/-- Adds digits to a significand while it fits 64 bits.  Yields the significand
and how many digits were not taken up. -/
def absorb (significand : Nat) : List Char → Nat × Nat
  | [] => (significand, 0)
  | digit :: rest =>
    let next := significand * 10 + digitValue digit
    if next < Nat.pow 2 64 then absorb next rest else (significand, rest.length + 1)

/-- The greatest exponent that is taken at face value. -/
def exponentLimit : Nat :=
  Nat.pow 2 31 - 1

/-- An exponent, or that it has left the range taken at face value. -/
def exponentValue (digits : List Char) : Option Nat :=
  let value := digits.foldl (fun n digit => n * 10 + digitValue digit) 0
  if value ≤ exponentLimit then some value else none

/-- The double of a literal with a fraction, an exponent or too many digits. -/
def real? (isMinus : Bool) (significand : Nat) (point : Int) (exponentMinus : Bool)
    (exponentDigits : List Char) : Option Number :=
  let magnitude :=
    match exponentValue exponentDigits with
    | none => if significand = 0 ∨ exponentMinus then some 0 else none
    | some value =>
      let exponent : Int := value
      scale? significand (if exponentMinus then point - exponent else point + exponent)
  magnitude.map (fun x => real (if isMinus then -x else x))

/-- The integer of a literal without fraction and exponent. -/
def integer (isMinus : Bool) (significand : Nat) : Number :=
  if !isMinus then
    natural significand.toUInt64
  else if significand = 0 ∨ Nat.pow 2 63 < significand then
    real (-significand.toUInt64.toFloat)
  else
    negative (-(significand : Int)).toInt64

/-- The exponent part of a literal: its sign, its digits and what follows it. -/
def readExponent? : List Char → Option (Option (Bool × List Char) × List Char)
  | mark :: rest =>
    if mark == 'e' || mark == 'E' then
      let (isMinus, rest) :=
        match rest with
        | '+' :: rest => (false, rest)
        | '-' :: rest => (true, rest)
        | rest => (false, rest)
      let digits := rest.takeWhile Char.isDigit
      if digits.isEmpty then none else some (some (isMinus, digits), rest.drop digits.length)
    else
      some (none, mark :: rest)
  | [] => some (none, [])

/-- The fraction part of a literal: its digits and what follows it. -/
def readFraction? : List Char → Option (Option (List Char) × List Char)
  | '.' :: rest =>
    let digits := rest.takeWhile Char.isDigit
    if digits.isEmpty then none else some (some digits, rest.drop digits.length)
  | rest => some (none, rest)

/-- Reads a literal after its sign; what is too large for a double has no value. -/
def readMagnitude? (isMinus : Bool) (input : List Char) :
    Option (Option Number × List Char) := do
  let digits := input.takeWhile Char.isDigit
  if digits.isEmpty then none
  if digits.head? == some '0' && 1 < digits.length then none
  let (fraction, afterFraction) ← readFraction? (input.drop digits.length)
  let (exponent, rest) ← readExponent? afterFraction
  let (whole, dropped) := absorb 0 digits
  if fraction.isNone && exponent.isNone && dropped == 0 then
    return (some (integer isMinus whole), rest)
  let fractionDigits := fraction.getD []
  let (significand, unused) := absorb whole fractionDigits
  let point : Int := (dropped : Int) - ((fractionDigits.length - unused : Nat) : Int)
  let (exponentMinus, exponentDigits) := exponent.getD (false, [])
  return (real? isMinus significand point exponentMinus exponentDigits, rest)

def read? : List Char → Option (Option Number × List Char)
  | '-' :: rest => readMagnitude? true rest
  | input => readMagnitude? false input

end Number

end Json

end Statechart
