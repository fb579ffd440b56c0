import Statechart.Event

/-!
# Actions and invocations of services

States and transitions carry blocks of actions.  A state may invoke a service
that runs as long as the state is active; the actions to finalize its events
belong to the invocation.
-/

namespace Statechart

/-- One action of a block. -/
inductive Action where
  /-- Puts the value of an expression at a location of the context. -/
  | assign (location expression : String)
  /-- Logs the value of an expression. -/
  | log (label : Option String) (expression : String)
  /-- Raises an internal event. -/
  | raise (event : String)
  /-- Runs one of two blocks. -/
  | choose (condition : String) (thenBlock elseBlock : List Action)
  /-- A script, which no data model here can run. -/
  | script (body : String)
deriving Inhabited, Repr

/-- A named parameter for a service; without an expression its value is the
context field of the same name. -/
structure Parameter where
  name : String
  expression : Option String
deriving DecidableEq, Repr

/-- The service that a state invokes. -/
structure Invocation where
  /-- The type by which the service is chosen. -/
  service : String
  /-- The source text, given as it is. -/
  source : Option String := none
  /-- An expression for the source text. -/
  sourceExpression : Option String := none
  parameters : List Parameter := []
  /-- The actions run for each batch of events that the service awaits. -/
  finalize : List Action := []
deriving Repr

/-- An object with those of the given fields that are present. -/
def Json.Value.ofPresent (fields : List (Option (String × Json.Value))) : Json.Value :=
  .object (fields.filterMap id)

def always (name : String) (value : Json.Value) : Option (String × Json.Value) :=
  some (name, value)

/-- A text field that is left out without a text. -/
def whenSome (name : String) (text : Option String) : Option (String × Json.Value) :=
  text.map (fun content => (name, .string content))

def whenTrue (name : String) (flag : Bool) : Option (String × Json.Value) :=
  if flag then some (name, .bool true) else none

/-- A list field that is left out when it is empty. -/
def whenNonempty (name : String) (items : List Json.Value) : Option (String × Json.Value) :=
  if items.isEmpty then none else some (name, .array items)

namespace Action

mutual

def toJson : Action → Json.Value
  | assign location expression =>
    .ofPresent [always "action" (.string "assign"), always "location" (.string location),
      always "expr" (.string expression)]
  | log label expression =>
    .ofPresent [always "action" (.string "log"), whenSome "label" label,
      always "expr" (.string expression)]
  | raise event =>
    .ofPresent [always "action" (.string "raise"), always "event" (.string event)]
  | choose condition thenBlock elseBlock =>
    .ofPresent [always "action" (.string "if"), always "cond" (.string condition),
      always "then" (.array (blockToJson thenBlock)),
      always "else" (.array (blockToJson elseBlock))]
  | script body =>
    .ofPresent [always "action" (.string "script"), always "body" (.string body)]

def blockToJson : List Action → List Json.Value
  | [] => []
  | action :: rest => action.toJson :: blockToJson rest

end

end Action

namespace Json.Value

theorem sizeOf_lt_of_find {name : String} {value : Json.Value}
    {fields : List (String × Json.Value)} (found : Entries.find? name fields = some value) :
    sizeOf value < sizeOf fields := by
  have smaller := List.sizeOf_lt_of_mem (Entries.mem_of_find? found)
  simp only [Prod.mk.sizeOf_spec] at smaller
  omega

/-- What a record holds was part of the value that was taken for the record. -/
theorem sizeOf_field?_lt {names : List String} {value record : Json.Value}
    (described : value.record? names = some record) (name : String) :
    sizeOf (record.field? name) < sizeOf value := by
  cases value with
  | object fields =>
    obtain rfl : object fields = record := Option.some.inj described
    cases found : Entries.find? name fields with
    | none =>
      rw [field?, found]
      cases fields <;> simp +arith
    | some inner =>
      have smaller := sizeOf_lt_of_find found
      simp [field?, found]
      omega
  | array items =>
    simp only [record?, Option.ite_none_right_eq_some, Option.some.injEq] at described
    obtain ⟨-, rfl⟩ := described
    cases found : Entries.find? name (names.zip items) with
    | none =>
      rw [field?, found]
      cases items <;> simp +arith
    | some inner =>
      have among : inner ∈ items := (List.of_mem_zip (Entries.mem_of_find? found)).2
      have smaller := List.sizeOf_lt_of_mem among
      simp [field?, found]
      omega
  | _ => cases described

end Json.Value

namespace Action

/-- The kinds of actions. -/
inductive Kind where
  | assign
  | log
  | raise
  | choose
  | script
deriving DecidableEq, Repr

namespace Kind

def all : List Kind :=
  [assign, log, raise, choose, script]

def name : Kind → String
  | assign => "assign"
  | log => "log"
  | raise => "raise"
  | choose => "if"
  | script => "script"

/-- The fields of the actions of a kind, in the order of their numbers. -/
def fields : Kind → List String
  | assign => ["location", "expr"]
  | log => ["label", "expr"]
  | raise => ["event"]
  | choose => ["cond", "then", "else"]
  | script => ["body"]

def ofName? (word : String) : Option Kind :=
  all.find? (fun kind => kind.name == word)

/-- Reads a kind.  An action inside another one may give the number of its kind
in place of the word. -/
def ofJson? (isInside : Bool) : Json.Value → Option Kind
  | .string word => ofName? word
  | .number (.natural n) => if isInside then all[n.toNat]? else none
  | _ => none

end Kind

/-- The kind of an action with the record of its fields.  An array begins with
the kind. -/
def tagged? (isInside : Bool) : Json.Value → Option (Kind × Json.Value)
  | .object fields => do
    let kind ← Kind.ofJson? isInside (← Entries.find? "action" fields)
    return (kind, .object fields)
  | .array (tag :: rest) => do
    let kind ← Kind.ofJson? isInside tag
    return (kind, ← (Json.Value.array rest).record? kind.fields)
  | _ => none

theorem sizeOf_field?_lt_of_tagged {isInside : Bool} {value record : Json.Value} {kind : Kind}
    (described : tagged? isInside value = some (kind, record)) (name : String) :
    sizeOf (record.field? name) < sizeOf value := by
  cases value with
  | object fields =>
    simp only [tagged?, Option.bind_eq_bind, Option.bind_eq_some_iff, Option.pure_def,
      Option.some.injEq, Prod.mk.injEq] at described
    obtain ⟨_, -, _, -, -, rfl⟩ := described
    have itself : (Json.Value.object fields).record? [] = some (.object fields) := rfl
    exact Json.Value.sizeOf_field?_lt itself name
  | array items =>
    cases items with
    | nil => cases described
    | cons tag rest =>
      simp only [tagged?, Option.bind_eq_bind, Option.bind_eq_some_iff, Option.pure_def,
        Option.some.injEq, Prod.mk.injEq] at described
      obtain ⟨_, -, _, fields, -, rfl⟩ := described
      have smaller := Json.Value.sizeOf_field?_lt fields name
      simp only [Json.Value.array.sizeOf_spec, List.cons.sizeOf_spec] at smaller ⊢
      omega
  | _ => cases described

mutual

/-- Reads the JSON form of an action, which may stand inside another one. -/
def readJson? (isInside : Bool) (value : Json.Value) : Option Action :=
  match described : tagged? isInside value with
  | none => none
  | some (kind, record) =>
    have smaller := sizeOf_field?_lt_of_tagged described
    match kind with
    | .assign => do
      return assign (← record.requiredText? "location") (← record.requiredText? "expr")
    | .log => do return log (← record.optionalText? "label") (← record.requiredText? "expr")
    | .raise => do return raise (← record.requiredText? "event")
    | .choose => do
      have := smaller "then"
      have := smaller "else"
      return choose (← record.requiredText? "cond") (← readBlock? true (record.field? "then"))
        (← readBlock? true (record.field? "else"))
    | .script => do return script (← record.requiredText? "body")
termination_by sizeOf value

/-- Reads a block that a field holds; without the field the block is empty. -/
def readBlock? (isInside : Bool) : Option Json.Value → Option (List Action)
  | none => some []
  | some (.array items) => readItems? isInside items
  | some _ => none
termination_by content => sizeOf content

def readItems? (isInside : Bool) (items : List Json.Value) : Option (List Action) :=
  match items with
  | [] => some []
  | item :: rest => do
    let action ← readJson? isInside item
    let others ← readItems? isInside rest
    return action :: others
termination_by sizeOf items

end

/-- Reads the JSON form of an action that stands on its own. -/
def ofJson? (value : Json.Value) : Option Action :=
  readJson? false value

/-- Reads the block of a field that belongs to no other action. -/
def blockField? (value : Json.Value) (name : String) : Option (List Action) :=
  readBlock? false (value.field? name)

end Action

namespace Parameter

def toJson (parameter : Parameter) : Json.Value :=
  .ofPresent [always "name" (.string parameter.name), whenSome "expr" parameter.expression]

def fieldNames : List String :=
  ["name", "expr"]

def ofJson? (value : Json.Value) : Option Parameter := do
  let record ← value.record? fieldNames
  return ⟨← record.requiredText? "name", ← record.optionalText? "expr"⟩

end Parameter

namespace Json.Value

def listField? {Result : Type} (value : Json.Value) (name : String)
    (decode : Json.Value → Option Result) : Option (List Result) :=
  value.fieldOr? name [] (fun inner => do (← inner.items?).mapM decode)

def flagField? (value : Json.Value) (name : String) : Option Bool :=
  value.fieldOr? name false bool?

end Json.Value

namespace Invocation

def toJson (invocation : Invocation) : Json.Value :=
  .ofPresent [always "type" (.string invocation.service), whenSome "src" invocation.source,
    whenSome "srcexpr" invocation.sourceExpression,
    whenNonempty "params" (invocation.parameters.map Parameter.toJson),
    whenNonempty "finalize" (Action.blockToJson invocation.finalize)]

def fieldNames : List String :=
  ["type", "src", "srcexpr", "params", "finalize"]

def ofJson? (value : Json.Value) : Option Invocation := do
  let record ← value.record? fieldNames
  return {
    service := ← record.requiredText? "type"
    source := ← record.optionalText? "src"
    sourceExpression := ← record.optionalText? "srcexpr"
    parameters := ← record.listField? "params" Parameter.ofJson?
    finalize := ← Action.blockField? record "finalize" }

end Invocation

end Statechart
