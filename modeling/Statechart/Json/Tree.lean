import Statechart.Json.Value

/-!
# JSON texts by their syntax

A tree is what a JSON text holds by its syntax alone.  A number too large for a
double and a text with half of a pair of code units are leaves without a value.
Such leaves, and containers within many others, only matter where a reader
looks: one that asks for some of the fields of an object passes over the rest.
-/

namespace Statechart

namespace Json

/-- A JSON text by its syntax. -/
inductive Tree where
  /-- A literal, a number or a text, and the value it has. -/
  | leaf (value : Option Value)
  | array (items : List Tree)
  /-- The fields in the order of the text, each with the name that it has. -/
  | object (fields : List (Option String × Tree))
deriving Inhabited

/-- What a reader asks for.  A reader is in a role for each value that it reads. -/
structure Outline (Role : Type) where
  /-- The role for a field of an object, none if the reader passes over the field. -/
  field? : Role → String → Option Role
  /-- The role for the item at a place of an array. -/
  item : Role → Nat → Role

/-- A reader that asks for everything. -/
def Outline.everything : Outline Unit where
  field? _ _ := some ()
  item _ _ := ()

/-- The greatest number of containers within each other. -/
def depthLimit : Nat :=
  127

namespace Tree

variable {Role : Type}

mutual

/-- The value of a tree for a reader in some role, with at most `depth`
containers within each other. -/
def valueFor? (outline : Outline Role) (role : Role) : Nat → Tree → Option Value
  | _, .leaf value => value
  | 0, _ => none
  | depth + 1, .array items => (itemsFor? outline role depth 0 items).map .array
  | depth + 1, .object fields => (fieldsFor? outline role depth [] fields).map .object

/-- The items from a place of an array on. -/
def itemsFor? (outline : Outline Role) (role : Role) (depth : Nat) :
    Nat → List Tree → Option (List Value)
  | _, [] => some []
  | place, item :: rest => do
    let value ← valueFor? outline (outline.item role place) depth item
    let others ← itemsFor? outline role depth (place + 1) rest
    return value :: others

/-- The fields that a reader asks for, with those found so far.  Of fields with
one name the last one counts. -/
def fieldsFor? (outline : Outline Role) (role : Role) (depth : Nat)
    (found : List (String × Value)) :
    List (Option String × Tree) → Option (List (String × Value))
  | [] => some found
  | (none, _) :: _ => none
  | (some name, content) :: rest =>
    match outline.field? role name with
    | none => fieldsFor? outline role depth found rest
    | some inner => do
      let value ← valueFor? outline inner depth content
      fieldsFor? outline role depth (Entries.insert name value found) rest

end

/-- The value of a tree for a reader that asks for everything. -/
def value? (content : Tree) : Option Value :=
  valueFor? .everything () depthLimit content

end Tree

end Json

end Statechart
