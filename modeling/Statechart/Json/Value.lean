import Statechart.Entries
import Statechart.Json.Number

/-!
# JSON values

Contexts, event data and the written forms of definitions, events and
snapshots are JSON values.  An object is a list of fields; a value that was
read from a text or assigned into has its fields in increasing order of their
names, each name once.
-/

namespace Statechart

namespace Json

/-- A JSON value. -/
inductive Value where
  | null
  | bool (value : Bool)
  | number (value : Number)
  | string (value : String)
  | array (items : List Value)
  | object (fields : List (String × Value))
deriving Inhabited, Repr

namespace Value

def emptyObject : Value :=
  object []

/-- The fields of an object, none for any other value. -/
def fields? : Value → Option (List (String × Value))
  | object fields => some fields
  | _ => none

def isObject (value : Value) : Bool :=
  value.fields?.isSome

/-- A value as a record with fields of the given names, none if it is not one.
An array holds the fields by their places, of which it may leave out the last ones. -/
def record? (names : List String) : Value → Option Value
  | object fields => some (object fields)
  | array items => if items.length ≤ names.length then some (object (names.zip items)) else none
  | _ => none

/-- The value of a field, none if there is no such field. -/
def field? (value : Value) (name : String) : Option Value :=
  match value with
  | object fields => Entries.find? name fields
  | _ => none

def string? : Value → Option String
  | string text => some text
  | _ => none

def bool? : Value → Option Bool
  | bool truth => some truth
  | _ => none

def items? : Value → Option (List Value)
  | array items => some items
  | _ => none

def int? : Value → Option Int
  | number n => n.toInt?
  | _ => none

def float? : Value → Option Float
  | number n => some n.toFloat
  | _ => none

/-- Whether the value is `null`. -/
def isNull : Value → Bool
  | null => true
  | _ => false

/-- The value as an optional text: `null` stands for none. -/
def ofText? : Option String → Value
  | none => null
  | some text => string text

def ofTexts (texts : List String) : Value :=
  array (texts.map string)

def ofNat (n : Nat) : Value :=
  number (Number.ofNat n)

/-- The value at the end of a path of field names; `null` where the path leaves
the objects. -/
def atPath : Value → List String → Value
  | value, [] => value
  | value, name :: rest =>
    match value with
    | object fields =>
      match Entries.find? name fields with
      | some inner => inner.atPath rest
      | none => null.atPath rest
    | _ => null

/-- A value that counts as true: not `null`, `false`, zero, or empty. -/
def isTruthy : Value → Bool
  | null => false
  | bool truth => truth
  | number n => n.toFloat != 0
  | string text => !text.isEmpty
  | array items => !items.isEmpty
  | object fields => !fields.isEmpty

end Value

end Json

end Statechart
