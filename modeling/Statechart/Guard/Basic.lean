import Statechart.Json.Value
import Statechart.Text.Blank

/-!
# Guards

A guard is a boolean expression over the context, the event being processed
and the active states.  This file holds guards as trees, what a guard can see,
and when it holds.
-/

namespace Statechart

/-- What a field path starts from. -/
inductive FieldRoot where
  | context
  | event
deriving DecidableEq, Repr

/-- A dotted path below the context or the event. -/
structure Field where
  root : FieldRoot
  path : String
deriving DecidableEq, Repr

/-- The orders a number can be compared in. -/
inductive Comparison where
  | above
  | atLeast
  | below
  | atMost
deriving DecidableEq, Repr

/-- A guard. -/
inductive Guard where
  /-- A literal truth value. -/
  | literal (value : Bool)
  /-- The field has a value that counts as true. -/
  | truthy (field : Field)
  /-- The field has the given value. -/
  | equal (field : Field) (value : Json.Value)
  /-- The field does not have the given value. -/
  | unequal (field : Field) (value : Json.Value)
  /-- The field is a number in the given order to a bound. -/
  | compare (order : Comparison) (field : Field) (bound : Float)
  /-- A state is active. -/
  | active (state : String)
  | both (left right : Guard)
  | either (left right : Guard)
  | negation (inner : Guard)
deriving Repr

/-- What surrounds an expression besides the context: the event being
processed, if there is one, and which states are active. -/
structure Surroundings where
  event : Option Json.Value
  isActive : String → Bool

/-- Surroundings without an event and without active states. -/
def Surroundings.bare : Surroundings :=
  ⟨none, fun _ => false⟩

/-- The value of a field; `null` stands for everything that is missing. -/
def Field.resolve (field : Field) (context : Json.Value) (around : Surroundings) : Json.Value :=
  match field.root with
  | .context => context.atPath (Text.dottedParts field.path)
  | .event =>
    match around.event with
    | some event => event.atPath (Text.dottedParts field.path)
    | none => .null

def Comparison.holds (order : Comparison) (x bound : Float) : Bool :=
  match order with
  | .above => x > bound
  | .atLeast => x ≥ bound
  | .below => x < bound
  | .atMost => x ≤ bound

/-- The distance below which two numbers count as equal, `2 ^ -52`. -/
def equalityTolerance : Float :=
  Float.ofBits 0x3cb0000000000000

namespace Json.Value

/-- Equality of values in guards: numbers within the tolerance are equal, arrays
and objects are equal to nothing. -/
def guardEqual : Json.Value → Json.Value → Bool
  | .null, .null => true
  | .bool a, .bool b => a == b
  | .number a, .number b => (a.toFloat - b.toFloat).abs < equalityTolerance
  | .string a, .string b => a == b
  | _, _ => false

end Json.Value

namespace Guard

def holds (context : Json.Value) (around : Surroundings) : Guard → Bool
  | literal value => value
  | truthy field => (field.resolve context around).isTruthy
  | equal field value => (field.resolve context around).guardEqual value
  | unequal field value => !(field.resolve context around).guardEqual value
  | compare order field bound =>
    match (field.resolve context around).float? with
    | some x => order.holds x bound
    | none => false
  | active state => around.isActive state
  | both left right => left.holds context around && right.holds context around
  | either left right => left.holds context around || right.holds context around
  | negation inner => !inner.holds context around

end Guard

end Statechart
