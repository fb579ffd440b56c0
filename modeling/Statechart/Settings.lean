import Statechart.Event

/-!
# Settings

Settings limit the microsteps of a macrostep, say whether reports include
details, and filter the log.
-/

namespace Statechart

/-- The settings of an interpreter. -/
structure InterpreterSettings where
  /-- The greatest number of microsteps in a macrostep. -/
  maxMicrosteps : Nat := 1000
  /-- Whether reports include details. -/
  verboseErrors : Bool := false
deriving DecidableEq, Inhabited, Repr

def countLimit : Nat :=
  Nat.pow 2 64 - 1

namespace Json.Value

/-- The value of a number that a setting can hold. -/
def count? (value : Json.Value) : Option Nat := do
  let n ← value.int?
  if n < 0 then none else some n.toNat

end Json.Value

namespace InterpreterSettings

def fieldNames : List String :=
  ["max_microsteps", "verbose_errors"]

/-- Reads the JSON form of interpreter settings; what is absent has its default. -/
def ofJson? (value : Json.Value) : Option InterpreterSettings := do
  let record ← value.record? fieldNames
  return {
    maxMicrosteps := ← record.fieldOr? "max_microsteps" 1000 Json.Value.count?
    verboseErrors := ← record.fieldOr? "verbose_errors" false Json.Value.bool? }

end InterpreterSettings

/-- The settings of a program that runs charts. -/
structure Settings where
  interpreter : InterpreterSettings := {}
  /-- The filter for log lines. -/
  logFilter : String := "info"
deriving DecidableEq, Inhabited, Repr

end Statechart
