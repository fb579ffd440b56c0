import Statechart.Action
import Statechart.Checksum
import Statechart.Json.Writer

/-!
# Definitions of charts

A chart is described by a tree of definitions that is written as JSON.  The
written form leaves out every field that holds its default, except the kind of
a history, and its text determines the checksum of the definition.
-/

namespace Statechart

/-- Whether a history remembers the children of its owner or the leaves below it. -/
inductive HistoryKind where
  | shallow
  | deep
deriving DecidableEq, Inhabited, Repr

def HistoryKind.name : HistoryKind → String
  | .shallow => "shallow"
  | .deep => "deep"

def HistoryKind.ofName? (word : String) : Option HistoryKind :=
  if word = "shallow" then some .shallow
  else if word = "deep" then some .deep
  else none

/-- A transition of a state. -/
structure TransitionDefinition where
  event : Option String := none
  condition : Option String := none
  /-- Ids of the targets, separated by blanks. -/
  target : Option String := none
  actions : List Action := []
deriving Repr

/-- A history of a state and its default transition. -/
structure HistoryDefinition where
  id : Option String := none
  kind : HistoryKind := .shallow
  target : Option String := none
  actions : List Action := []
deriving Repr

/-- A state, a final state or a parallel. -/
structure StateDefinition where
  id : Option String := none
  isParallel : Bool := false
  isFinal : Bool := false
  /-- Ids of the initial targets, separated by blanks. -/
  initial : Option String := none
  /-- The actions of the initial transition. -/
  initialActions : List Action := []
  onEntry : List Action := []
  onExit : List Action := []
  transitions : List TransitionDefinition := []
  states : List StateDefinition := []
  histories : List HistoryDefinition := []
  invocation : Option Invocation := none
deriving Repr

/-- A chart as its host describes it. -/
structure Definition where
  name : Option String := none
  /-- Ids of the initial targets, separated by blanks. -/
  initial : Option String := none
  states : List StateDefinition
deriving Repr

namespace TransitionDefinition

def toJson (transition : TransitionDefinition) : Json.Value :=
  .ofPresent [whenSome "event" transition.event, whenSome "cond" transition.condition,
    whenSome "target" transition.target,
    whenNonempty "actions" (Action.blockToJson transition.actions)]

/-- The target of a transition under either of its two names, not under both. -/
def targetOfJson? (value : Json.Value) : Option (Option String) :=
  match value.field? "target", value.field? "next" with
  | some _, some _ => none
  | some _, none => value.optionalText? "target"
  | none, _ => value.optionalText? "next"

/-- The fields in their order; the other name of the target has no place of its own. -/
def fieldNames : List String :=
  ["event", "cond", "target", "actions"]

def ofJson? (value : Json.Value) : Option TransitionDefinition := do
  let record ← value.record? fieldNames
  return {
    event := ← record.optionalText? "event"
    condition := ← record.optionalText? "cond"
    target := ← targetOfJson? record
    actions := ← Action.blockField? record "actions" }

end TransitionDefinition

namespace HistoryDefinition

def toJson (history : HistoryDefinition) : Json.Value :=
  .ofPresent [whenSome "id" history.id, always "type" (.string history.kind.name),
    whenSome "target" history.target,
    whenNonempty "actions" (Action.blockToJson history.actions)]

def kindOfJson? (value : Json.Value) : Option HistoryKind :=
  value.unitChoice?.bind HistoryKind.ofName?

def fieldNames : List String :=
  ["id", "type", "target", "actions"]

def ofJson? (value : Json.Value) : Option HistoryDefinition := do
  let record ← value.record? fieldNames
  return {
    id := ← record.optionalText? "id"
    kind := ← record.fieldOr? "type" .shallow kindOfJson?
    target := ← record.optionalText? "target"
    actions := ← Action.blockField? record "actions" }

end HistoryDefinition

namespace StateDefinition

mutual

def toJson : StateDefinition → Json.Value
  | { id, isParallel, isFinal, initial, initialActions, onEntry, onExit, transitions, states,
      histories, invocation } =>
    .ofPresent [whenSome "id" id, whenTrue "parallel" isParallel, whenTrue "final" isFinal,
      whenSome "initial" initial,
      whenNonempty "initial_actions" (Action.blockToJson initialActions),
      whenNonempty "on_entry" (Action.blockToJson onEntry),
      whenNonempty "on_exit" (Action.blockToJson onExit),
      whenNonempty "transitions" (transitions.map TransitionDefinition.toJson),
      whenNonempty "states" (listToJson states),
      whenNonempty "history" (histories.map HistoryDefinition.toJson),
      invocation.map (fun invoked => ("invoke", invoked.toJson))]

def listToJson : List StateDefinition → List Json.Value
  | [] => []
  | state :: rest => state.toJson :: listToJson rest

end

/-- Reads an invocation that may be absent or `null`. -/
def invocationOfJson? (value : Json.Value) : Option (Option Invocation) :=
  match value.field? "invoke" with
  | none | some .null => some none
  | some inner => (Invocation.ofJson? inner).map some

def fieldNames : List String :=
  ["id", "parallel", "final", "initial", "initial_actions", "on_entry", "on_exit", "transitions",
    "states", "history", "invoke"]

mutual

def ofJson? (value : Json.Value) : Option StateDefinition :=
  match described : value.record? fieldNames with
  | none => none
  | some record => do
    have := Json.Value.sizeOf_field?_lt described "states"
    return {
      id := ← record.optionalText? "id"
      isParallel := ← record.flagField? "parallel"
      isFinal := ← record.flagField? "final"
      initial := ← record.optionalText? "initial"
      initialActions := ← Action.blockField? record "initial_actions"
      onEntry := ← Action.blockField? record "on_entry"
      onExit := ← Action.blockField? record "on_exit"
      transitions := ← record.listField? "transitions" TransitionDefinition.ofJson?
      states := ← listOfJson? (record.field? "states")
      histories := ← record.listField? "history" HistoryDefinition.ofJson?
      invocation := ← invocationOfJson? record }
termination_by sizeOf value

/-- Reads the states that a field holds; without the field there are none. -/
def listOfJson? : Option Json.Value → Option (List StateDefinition)
  | none => some []
  | some (.array items) => itemsOfJson? items
  | some _ => none
termination_by content => sizeOf content

def itemsOfJson? (items : List Json.Value) : Option (List StateDefinition) :=
  match items with
  | [] => some []
  | item :: rest => do
    let state ← ofJson? item
    let others ← itemsOfJson? rest
    return state :: others
termination_by sizeOf items

end

end StateDefinition

namespace Definition

def toJson (definition : Definition) : Json.Value :=
  .ofPresent [whenSome "name" definition.name, whenSome "initial" definition.initial,
    always "states" (.array (StateDefinition.listToJson definition.states))]

def fieldNames : List String :=
  ["name", "initial", "states"]

def ofJson? (value : Json.Value) : Option Definition := do
  let record ← value.record? fieldNames
  return {
    name := ← record.optionalText? "name"
    initial := ← record.optionalText? "initial"
    states := ← StateDefinition.itemsOfJson? (← (← record.field? "states").items?) }

def canonicalText (definition : Definition) : String :=
  definition.toJson.compact

def checksum (definition : Definition) : String :=
  Checksum.ofText definition.canonicalText

end Definition

end Statechart
