import Statechart.Json.Value

/-!
# Events

An event has a name, data, a kind that tells where it came from, and
optionally the id of the sending.  Guards see an event in its JSON form.
-/

namespace Statechart

/-- Where an event came from: a host or a service, the machine itself, or the
entry, exit and completion of states. -/
inductive EventKind where
  | external
  | internal
  | completion
deriving DecidableEq, Repr

def EventKind.name : EventKind → String
  | .external => "external"
  | .internal => "internal"
  | .completion => "completion"

def EventKind.ofName? (word : String) : Option EventKind :=
  if word = "external" then some .external
  else if word = "internal" then some .internal
  else if word = "completion" then some .completion
  else none

/-- An event. -/
structure Event where
  name : String
  data : Json.Value := .null
  kind : EventKind := .external
  sendId : Option String := none
deriving Repr

namespace Json.Value

/-- A choice without content: its name, or an object whose only field is the
name with the value `null`. -/
def unitChoice? : Json.Value → Option String
  | .string name => some name
  | .object [(name, .null)] => some name
  | _ => none

/-- A field that may be absent or `null`. -/
def optionalText? (value : Json.Value) (name : String) : Option (Option String) :=
  match value.field? name with
  | none | some .null => some none
  | some (.string text) => some (some text)
  | some _ => none

def requiredText? (value : Json.Value) (name : String) : Option String :=
  (value.field? name).bind Json.Value.string?

/-- A field that may be absent, for which a default then stands. -/
def fieldOr? {Result : Type} (value : Json.Value) (name : String) (default : Result)
    (decode : Json.Value → Option Result) : Option Result :=
  match value.field? name with
  | none => some default
  | some inner => decode inner

end Json.Value

namespace Event

def ofMachine (name : String) : Event :=
  { name, kind := .internal }

/-- An event that tells of an entry, an exit or a completion. -/
def ofCompletion (name : String) : Event :=
  { name, kind := .completion }

def isInternal (event : Event) : Bool :=
  event.kind != .external

/-- Whether the event tells of an entry, an exit or a completion. -/
def isCompletion (event : Event) : Bool :=
  event.kind == .completion

def toJson (event : Event) : Json.Value :=
  .object ([("data", event.data), ("kind", .string event.kind.name),
      ("name", .string event.name)] ++
    match event.sendId with
    | none => []
    | some id => [("send_id", .string id)])

def fieldNames : List String :=
  ["name", "data", "kind", "send_id"]

def ofJson? (value : Json.Value) : Option Event := do
  let record ← value.record? fieldNames
  let name ← record.requiredText? "name"
  let kind ← EventKind.ofName? (← (← record.field? "kind").unitChoice?)
  let sendId ← record.optionalText? "send_id"
  return { name, data := (record.field? "data").getD .null, kind, sendId }

end Event

end Statechart
