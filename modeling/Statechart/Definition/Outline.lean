import Statechart.Definition
import Statechart.Json.Reader

/-!
# What a definition asks for

A definition consists of records, and of each record only certain fields are
read.  The outline tells what each of them holds.  A text that describes a
definition may have anything in its other fields, except within actions, which
are read as a whole.
-/

namespace Statechart

namespace Definition

/-- The records that make up a definition. -/
inductive RecordKind where
  | chart
  | state
  | transition
  | history
  | invocation
  | parameter
deriving DecidableEq, Repr

/-- What a definition holds at a place. -/
inductive Role where
  /-- A text that may be left out. -/
  | text
  | requiredText
  | flag
  /-- A word that chooses one of several kinds. -/
  | choice
  /-- A list of records, each of which may be left empty. -/
  | records (kind : RecordKind)
  | record (kind : RecordKind)
  /-- A record that may be left out. -/
  | optionalRecord (kind : RecordKind)
  /-- A block of actions, on its own or inside an action. -/
  | block (isInside : Bool)
  | action (isInside : Bool)
  /-- Anything, taken for what it looks like. -/
  | anything
deriving DecidableEq, Repr

namespace RecordKind

/-- The fields of a record in their order. -/
def fieldNames : RecordKind → List String
  | chart => Definition.fieldNames
  | state => StateDefinition.fieldNames
  | transition => TransitionDefinition.fieldNames
  | history => HistoryDefinition.fieldNames
  | invocation => Invocation.fieldNames
  | parameter => Parameter.fieldNames

/-- What the fields of a record hold, in their order. -/
def roles : RecordKind → List Role
  | chart => [.text, .text, .records state]
  | state =>
    [.text, .flag, .flag, .text, .block false, .block false, .block false, .records transition,
      .records state, .records history, .optionalRecord invocation]
  | transition => [.text, .text, .text, .block false]
  | history => [.text, .choice, .text, .block false]
  | invocation => [.requiredText, .text, .text, .records parameter, .block false]
  | parameter => [.requiredText, .text]

/-- What a field of a record holds, none if it is not read.  The target of a
transition goes by another name as well. -/
def role? (kind : RecordKind) (name : String) : Option Role :=
  if kind = .transition ∧ name = "next" then some .text
  else (kind.fieldNames.zip kind.roles).lookup name

/-- What the field at a place of a record holds. -/
def roleAt (kind : RecordKind) (place : Nat) : Role :=
  kind.roles[place]?.getD .anything

end RecordKind

def outline : Json.Outline Role where
  field? role name :=
    match role with
    | .record kind | .optionalRecord kind => kind.role? name
    | _ => some .anything
  item role place :=
    match role with
    | .records kind => .record kind
    | .record kind | .optionalRecord kind => kind.roleAt place
    | _ => .anything

def ofJsonText? (text : String) : Option Definition := do
  let tree ← Json.Tree.ofText? text
  ofJson? (← tree.valueFor? outline (.record .chart) Json.depthLimit)

end Definition

end Statechart
