import Statechart.Chart.OfDefinition
import Statechart.Proofs.Json.Reading

/-!
# Definitions are kept as JSON

What is written of a definition reads as that definition again, whatever it
holds and however deep, also after its fields have been put in another order.
-/

namespace Statechart

open Json.Value (Alike)

variable {value : Json.Value}

namespace Action

theorem readBlock?_field? (isInside : Bool) (value : Json.Value) (name : String) :
    readBlock? isInside (value.field? name) =
      value.fieldOr? name [] fun inner => inner.items?.bind (readItems? isInside) := by
  unfold Json.Value.fieldOr?
  rcases value.field? name with _ | inner
  · simp [readBlock?]
  · cases inner <;> simp [readBlock?, Json.Value.items?]

/-- The reader by the kind of the action, its termination left aside. -/
theorem readJson?_eq (isInside : Bool) (value : Json.Value) :
    readJson? isInside value = (do
      let (kind, record) ← tagged? isInside value
      match kind with
      | .assign =>
        return assign (← record.requiredText? "location") (← record.requiredText? "expr")
      | .log => return log (← record.optionalText? "label") (← record.requiredText? "expr")
      | .raise => return raise (← record.requiredText? "event")
      | .choose =>
        return choose (← record.requiredText? "cond") (← readBlock? true (record.field? "then"))
          (← readBlock? true (record.field? "else"))
      | .script => return script (← record.requiredText? "body")) := by
  rw [readJson?]
  split
  · next nothing => simp [nothing]
  · next kind record described =>
    simp only [described, Option.bind_eq_bind, Option.bind_some]
    cases kind <;> rfl

@[simp]
theorem Kind.ofName?_name (kind : Kind) : ofName? kind.name = some kind := by
  cases kind <;> decide

theorem tagged?_of_field? (isInside : Bool) {kind : Kind}
    (present : value.field? "action" = some (.string kind.name)) :
    tagged? isInside value = some (kind, value) := by
  cases value with
  | object fields =>
    have found : Entries.find? "action" fields = some (.string kind.name) := present
    simp [tagged?, found, Kind.ofJson?]
  | _ => cases present

mutual

-- Inside an action the readers are more lenient about its kind, not about its fields; the
-- word that is written for the kind is read everywhere.
theorem readJson?_of_alike (isInside : Bool) {value : Json.Value} :
    ∀ action : Action, value.Alike action.toJson → readJson? isInside value = some action
  | assign location expression => fun alike => by
    have kind : tagged? isInside value = some (.assign, value) :=
      tagged?_of_field? isInside (alike.field?_string rfl)
    have location : value.requiredText? "location" = some location := alike.requiredText? rfl
    have expression : value.requiredText? "expr" = some expression := alike.requiredText? rfl
    simp [readJson?_eq, kind, location, expression]
  | log label expression => fun alike => by
    have kind : tagged? isInside value = some (.log, value) :=
      tagged?_of_field? isInside (alike.field?_string rfl)
    have label : value.optionalText? "label" = some label :=
      alike.optionalText? (by simp [toJson])
    have expression : value.requiredText? "expr" = some expression :=
      alike.requiredText? (by simp [toJson])
    simp [readJson?_eq, kind, label, expression]
  | raise event => fun alike => by
    have kind : tagged? isInside value = some (.raise, value) :=
      tagged?_of_field? isInside (alike.field?_string rfl)
    have event : value.requiredText? "event" = some event := alike.requiredText? rfl
    simp [readJson?_eq, kind, event]
  | choose condition thenBlock elseBlock => fun alike => by
    have kind : tagged? isInside value = some (.choose, value) :=
      tagged?_of_field? isInside (alike.field?_string rfl)
    have condition : value.requiredText? "cond" = some condition := alike.requiredText? rfl
    have thenBlock : readBlock? true (value.field? "then") = some thenBlock :=
      (readBlock?_field? true value "then").trans
        (alike.fieldOr?_items (readItems?_of_alike true thenBlock) rfl)
    have elseBlock : readBlock? true (value.field? "else") = some elseBlock :=
      (readBlock?_field? true value "else").trans
        (alike.fieldOr?_items (readItems?_of_alike true elseBlock) rfl)
    simp [readJson?_eq, kind, condition, thenBlock, elseBlock]
  | script body => fun alike => by
    have kind : tagged? isInside value = some (.script, value) :=
      tagged?_of_field? isInside (alike.field?_string rfl)
    have body : value.requiredText? "body" = some body := alike.requiredText? rfl
    simp [readJson?_eq, kind, body]

theorem readItems?_of_alike (isInside : Bool) :
    ∀ (block : List Action) {items : List Json.Value},
      List.Forall₂ Alike items (blockToJson block) → readItems? isInside items = some block
  | [], _, alike => by
    cases alike
    rw [readItems?]
  | action :: rest, _, alike => by
    cases alike with
    | cons first others =>
      rw [readItems?, readJson?_of_alike isInside action first,
        readItems?_of_alike isInside rest others]
      rfl

end

/-- A block that has been left out if it was empty. -/
theorem blockField?_of_alike {name : String} {written : Json.Value} {block : List Action}
    (alike : value.Alike written)
    (present : written.field? name =
      if (blockToJson block).isEmpty then none else some (.array (blockToJson block))) :
    blockField? value name = some block :=
  (readBlock?_field? false value name).trans
    (alike.fieldOr?_nonempty (readItems?_of_alike false block) (by rw [readItems?]) present)

end Action

theorem Parameter.ofJson?_of_alike (parameter : Parameter) {value : Json.Value}
    (alike : value.Alike parameter.toJson) : ofJson? value = some parameter := by
  have described : value.record? fieldNames = some value := alike.record? fieldNames
  have name : value.requiredText? "name" = some parameter.name := alike.requiredText? rfl
  have expression : value.optionalText? "expr" = some parameter.expression :=
    alike.optionalText? (by simp [toJson])
  simp [ofJson?, described, name, expression]

theorem Invocation.ofJson?_of_alike (invocation : Invocation)
    (alike : value.Alike invocation.toJson) : ofJson? value = some invocation := by
  have described : value.record? fieldNames = some value := alike.record? fieldNames
  have service : value.requiredText? "type" = some invocation.service := alike.requiredText? rfl
  have source : value.optionalText? "src" = some invocation.source :=
    alike.optionalText? (by simp [toJson])
  have sourceExpression : value.optionalText? "srcexpr" = some invocation.sourceExpression :=
    alike.optionalText? (by simp [toJson])
  have parameters : value.listField? "params" Parameter.ofJson? = some invocation.parameters :=
    alike.listField? Parameter.ofJson?_of_alike (by simp [toJson])
  have finalize : Action.blockField? value "finalize" = some invocation.finalize :=
    Action.blockField?_of_alike alike (by simp [toJson])
  simp [ofJson?, described, service, source, sourceExpression, parameters, finalize]

namespace TransitionDefinition

/-- A target is never written under its other name, and under both it would not be read. -/
theorem targetOfJson?_of_alike {written : Json.Value} {target : Option String}
    (alike : value.Alike written) (present : written.field? "target" = target.map .string)
    (absent : written.field? "next" = none) : targetOfJson? value = some target := by
  have noOther : value.field? "next" = none := alike.field?_eq_none absent
  have read : value.optionalText? "target" = some target := alike.optionalText? present
  -- Without a target the reader falls back on the other name, where there is nothing either.
  unfold targetOfJson?
  cases target with
  | none => simp [alike.field?_eq_none present, Json.Value.optionalText?, noOther]
  | some text => simp [alike.field?_string present, noOther, read]

theorem ofJson?_of_alike (transition : TransitionDefinition) {value : Json.Value}
    (alike : value.Alike transition.toJson) : ofJson? value = some transition := by
  have described : value.record? fieldNames = some value := alike.record? fieldNames
  have event : value.optionalText? "event" = some transition.event :=
    alike.optionalText? (by simp [toJson])
  have condition : value.optionalText? "cond" = some transition.condition :=
    alike.optionalText? (by simp [toJson])
  have target : targetOfJson? value = some transition.target :=
    targetOfJson?_of_alike alike (by simp [toJson]) (by simp [toJson])
  have actions : Action.blockField? value "actions" = some transition.actions :=
    Action.blockField?_of_alike alike (by simp [toJson])
  simp [ofJson?, described, event, condition, target, actions]

end TransitionDefinition

theorem HistoryKind.ofName?_name (kind : HistoryKind) : ofName? kind.name = some kind := by
  cases kind <;> decide

theorem HistoryDefinition.ofJson?_of_alike (history : HistoryDefinition) {value : Json.Value}
    (alike : value.Alike history.toJson) : ofJson? value = some history := by
  have described : value.record? fieldNames = some value := alike.record? fieldNames
  have id : value.optionalText? "id" = some history.id := alike.optionalText? (by simp [toJson])
  have word : value.field? "type" = some (.string history.kind.name) :=
    alike.field?_string (by simp [toJson])
  have kind : value.fieldOr? "type" .shallow kindOfJson? = some history.kind := by
    simp [Json.Value.fieldOr?, word, kindOfJson?, Json.Value.unitChoice?, HistoryKind.ofName?_name]
  have target : value.optionalText? "target" = some history.target :=
    alike.optionalText? (by simp [toJson])
  have actions : Action.blockField? value "actions" = some history.actions :=
    Action.blockField?_of_alike alike (by simp [toJson])
  simp [ofJson?, described, id, kind, target, actions]

namespace StateDefinition

theorem listOfJson?_field? (value : Json.Value) :
    listOfJson? (value.field? "states") =
      value.fieldOr? "states" [] fun inner => inner.items?.bind itemsOfJson? := by
  unfold Json.Value.fieldOr?
  rcases value.field? "states" with _ | inner
  · simp [listOfJson?]
  · cases inner <;> simp [listOfJson?, Json.Value.items?]

/-- The reader of a state, its termination left aside. -/
theorem ofJson?_eq (value : Json.Value) :
    ofJson? value = (do
      let record ← value.record? fieldNames
      return {
        id := ← record.optionalText? "id"
        isParallel := ← record.flagField? "parallel"
        isFinal := ← record.flagField? "final"
        initial := ← record.optionalText? "initial"
        initialActions := ← Action.blockField? record "initial_actions"
        onEntry := ← Action.blockField? record "on_entry"
        onExit := ← Action.blockField? record "on_exit"
        transitions := ← record.listField? "transitions" TransitionDefinition.ofJson?
        states := ← listOfJson? (record.field? "states")
        histories := ← record.listField? "history" HistoryDefinition.ofJson?
        invocation := ← invocationOfJson? record }) := by
  rw [ofJson?]
  split
  · next nothing => simp [nothing]
  · next record described => simp only [described, Option.bind_eq_bind, Option.bind_some]

theorem invocationOfJson?_of_alike {written : Json.Value} {invocation : Option Invocation}
    (alike : value.Alike written)
    (present : written.field? "invoke" = invocation.map Invocation.toJson) :
    invocationOfJson? value = some invocation := by
  unfold invocationOfJson?
  cases invocation with
  | none => rw [alike.field?_eq_none present]
  | some invoked =>
    obtain ⟨found, same, foundAlike⟩ := alike.exists_field? present
    have read := Invocation.ofJson?_of_alike invoked foundAlike
    cases foundAlike with
    | object => rw [same]; simp [read]

mutual

theorem ofJson?_of_alike {value : Json.Value} :
    ∀ state : StateDefinition, value.Alike state.toJson → ofJson? value = some state
  | ⟨id, isParallel, isFinal, initial, initialActions, onEntry, onExit, transitions, states,
      histories, invocation⟩ => fun alike => by
    have described : value.record? fieldNames = some value := alike.record? fieldNames
    have id : value.optionalText? "id" = some id := alike.optionalText? (by simp [toJson])
    have isParallel : value.flagField? "parallel" = some isParallel :=
      alike.flagField? (by simp [toJson])
    have isFinal : value.flagField? "final" = some isFinal := alike.flagField? (by simp [toJson])
    have initial : value.optionalText? "initial" = some initial :=
      alike.optionalText? (by simp [toJson])
    have initialActions : Action.blockField? value "initial_actions" = some initialActions :=
      Action.blockField?_of_alike alike (by simp [toJson])
    have onEntry : Action.blockField? value "on_entry" = some onEntry :=
      Action.blockField?_of_alike alike (by simp [toJson])
    have onExit : Action.blockField? value "on_exit" = some onExit :=
      Action.blockField?_of_alike alike (by simp [toJson])
    have transitions : value.listField? "transitions" TransitionDefinition.ofJson? =
        some transitions :=
      alike.listField? TransitionDefinition.ofJson?_of_alike (by simp [toJson])
    have states : listOfJson? (value.field? "states") = some states :=
      (listOfJson?_field? value).trans (alike.fieldOr?_nonempty (itemsOfJson?_of_alike states)
        (by rw [itemsOfJson?]) (by simp [toJson]))
    have histories : value.listField? "history" HistoryDefinition.ofJson? = some histories :=
      alike.listField? HistoryDefinition.ofJson?_of_alike (by simp [toJson])
    have invocation : invocationOfJson? value = some invocation :=
      invocationOfJson?_of_alike alike (by simp [toJson])
    simp [ofJson?_eq, described, id, isParallel, isFinal, initial, initialActions, onEntry, onExit,
      transitions, states, histories, invocation]

theorem itemsOfJson?_of_alike :
    ∀ (states : List StateDefinition) {items : List Json.Value},
      List.Forall₂ Alike items (listToJson states) → itemsOfJson? items = some states
  | [], _, alike => by
    cases alike
    rw [itemsOfJson?]
  | state :: rest, _, alike => by
    cases alike with
    | cons first others =>
      rw [itemsOfJson?, ofJson?_of_alike state first, itemsOfJson?_of_alike rest others]
      rfl

end

end StateDefinition

namespace Definition

theorem ofJson?_of_alike (definition : Definition) (alike : value.Alike definition.toJson) :
    ofJson? value = some definition := by
  have described : value.record? fieldNames = some value := alike.record? fieldNames
  have name : value.optionalText? "name" = some definition.name :=
    alike.optionalText? (by simp [toJson])
  have initial : value.optionalText? "initial" = some definition.initial :=
    alike.optionalText? (by simp [toJson])
  have written : definition.toJson.field? "states" =
      some (.array (StateDefinition.listToJson definition.states)) := by simp [toJson]
  obtain ⟨found, present, foundAlike⟩ := alike.exists_field? written
  cases foundAlike with
  | array each =>
    have states := StateDefinition.itemsOfJson?_of_alike definition.states each
    simp [ofJson?, described, name, initial, present, Json.Value.items?, states]

end Definition

/-! ## Texts of definitions -/

mutual

theorem Action.isWordy_toJson : ∀ action : Action, action.toJson.IsWordy
  | .assign _ _ =>
    .always (.string _) (by simp) (.always (.string _) (by simp)
      (.always (.string _) (by simp) .ofPresent_nil))
  | .log _ _ =>
    .always (.string _) (by simp) (.whenSome (by simp)
      (.always (.string _) (by simp) .ofPresent_nil))
  | .raise _ | .script _ =>
    .always (.string _) (by simp) (.always (.string _) (by simp) .ofPresent_nil)
  | .choose _ thenBlock elseBlock =>
    .always (.string _) (by simp) (.always (.string _) (by simp)
      (.always (.array (isWordy_blockToJson thenBlock)) (by simp)
        (.always (.array (isWordy_blockToJson elseBlock)) (by simp) .ofPresent_nil)))

theorem Action.isWordy_blockToJson :
    ∀ (block : List Action), ∀ item ∈ blockToJson block, item.IsWordy
  | [] => fun _ among => absurd among List.not_mem_nil
  | action :: rest => List.forall_mem_cons.2 ⟨isWordy_toJson action, isWordy_blockToJson rest⟩

end

theorem Parameter.isWordy_toJson (parameter : Parameter) : parameter.toJson.IsWordy :=
  .always (.string _) (by simp) (.whenSome (by simp) .ofPresent_nil)

theorem Invocation.isWordy_toJson (invocation : Invocation) : invocation.toJson.IsWordy := by
  have parameters := List.forall_mem_map.2 fun parameter (_ : parameter ∈ invocation.parameters) =>
    parameter.isWordy_toJson
  exact .always (.string _) (by simp) (.whenSome (by simp) (.whenSome (by simp)
    (.whenNonempty parameters (by simp)
      (.whenNonempty (Action.isWordy_blockToJson _) (by simp) .ofPresent_nil))))

theorem TransitionDefinition.isWordy_toJson (transition : TransitionDefinition) :
    transition.toJson.IsWordy :=
  .whenSome (by simp) (.whenSome (by simp) (.whenSome (by simp)
    (.whenNonempty (Action.isWordy_blockToJson _) (by simp) .ofPresent_nil)))

theorem HistoryDefinition.isWordy_toJson (history : HistoryDefinition) :
    history.toJson.IsWordy :=
  .whenSome (by simp) (.always (.string _) (by simp) (.whenSome (by simp)
    (.whenNonempty (Action.isWordy_blockToJson _) (by simp) .ofPresent_nil)))

mutual

theorem StateDefinition.isWordy_toJson : ∀ state : StateDefinition, state.toJson.IsWordy
  | ⟨_, _, _, _, _, _, _, transitions, states, histories, invocation⟩ => by
    have transitions := List.forall_mem_map.2 fun transition (_ : transition ∈ transitions) =>
      transition.isWordy_toJson
    have histories := List.forall_mem_map.2 fun history (_ : history ∈ histories) =>
      history.isWordy_toJson
    have invocation : ∀ invoked ∈ invocation, invoked.toJson.IsWordy :=
      fun invoked _ => invoked.isWordy_toJson
    exact .whenSome (by simp) (.whenTrue (by simp) (.whenTrue (by simp) (.whenSome (by simp)
      (.whenNonempty (Action.isWordy_blockToJson _) (by simp)
      (.whenNonempty (Action.isWordy_blockToJson _) (by simp)
      (.whenNonempty (Action.isWordy_blockToJson _) (by simp)
      (.whenNonempty transitions (by simp)
      (.whenNonempty (StateDefinition.isWordy_listToJson states) (by simp)
      (.whenNonempty histories (by simp)
      (.optional invocation (by simp) .ofPresent_nil))))))))))

theorem StateDefinition.isWordy_listToJson :
    ∀ (states : List StateDefinition), ∀ item ∈ listToJson states, item.IsWordy
  | [] => fun _ among => absurd among List.not_mem_nil
  | state :: rest => List.forall_mem_cons.2 ⟨isWordy_toJson state, isWordy_listToJson rest⟩

end

namespace Definition

theorem isWordy_toJson (definition : Definition) : definition.toJson.IsWordy :=
  .whenSome (by simp) (.whenSome (by simp)
    (.always (.array (StateDefinition.isWordy_listToJson _)) (by simp) .ofPresent_nil))

/-- The canonical text of a definition is a JSON text of its written form. -/
theorem exists_parse?_canonicalText (definition : Definition)
    (shallow : definition.toJson.depth ≤ Json.depthLimit) :
    ∃ canonical, Json.parse? definition.canonicalText = some canonical ∧
      canonical.Alike definition.toJson :=
  Json.exists_parse?_compact definition.isWordy_toJson shallow

end Definition

/-- The chart of a definition's JSON form, none if the value is not one. -/
def Chart.ofJson? (value : Json.Value) : Option (Except Defect Chart) :=
  (Definition.ofJson? value).map Chart.ofDefinition

/-- The written form of a definition is read as the definition, in whatever
order its fields come, and so is the value of its canonical text, which the text
has unless too many containers are within each other.  Hence a value that
describes the definition can be replaced with the written form: that is written
as the same canonical text and leads to the same chart, with the same checksum. -/
theorem Definition.written_form_reads_back (definition : Definition) :
    (∀ value : Json.Value, value.Alike definition.toJson → ofJson? value = some definition) ∧
    (definition.toJson.depth ≤ Json.depthLimit →
      ∃ canonical, Json.parse? definition.canonicalText = some canonical ∧
        canonical.Alike definition.toJson) ∧
    ∀ value canonical : Json.Value,
      ofJson? value = some definition → canonical.Alike definition.toJson →
        (ofJson? canonical).map canonicalText = (ofJson? value).map canonicalText ∧
        Chart.ofJson? canonical = Chart.ofJson? value := by
  refine ⟨fun _ => definition.ofJson?_of_alike, definition.exists_parse?_canonicalText,
    fun value canonical describes alike => ?_⟩
  have same : ofJson? canonical = ofJson? value :=
    (definition.ofJson?_of_alike alike).trans describes.symm
  exact ⟨congrArg (Option.map canonicalText) same, congrArg (Option.map Chart.ofDefinition) same⟩

namespace Definition

/-- A definition that gives a target under its other name, leaves out what it
can, and has some of its records and actions as arrays. -/
def lampJson : Json.Value :=
  .object [("states", .array [
    .object [("id", .string "off"), ("final", .bool false), ("history", .array [.object []]),
      ("transitions", .array [.object [("next", .string "on"), ("actions", .array [
        .object [("action", .string "if"), ("cond", .string "dark")]])]])],
    .array [.string "on", .bool false, .bool false, .null, .array [],
      .array [.array [.string "raise", .string "lit"], .array [.string "if", .string "dark"]],
      .array [], .array [.array [.string "push", .null, .string "off"]]]])]

def lamp : Definition where
  states := [
    { id := some "off"
      histories := [{ kind := .shallow }]
      transitions := [{ target := some "on", actions := [.choose "dark" [] []] }] },
    { id := some "on"
      onEntry := [.raise "lit", .choose "dark" [] []]
      transitions := [{ event := some "push", target := some "off" }] }]

open Json.Value in
theorem ofJson?_lampJson : ofJson? lampJson = some lamp := by
  have choose : Action.Kind.ofName? "if" = some .choose := Action.Kind.ofName?_name .choose
  have raise : Action.Kind.ofName? "raise" = some .raise := Action.Kind.ofName?_name .raise
  simp [lampJson, lamp, ofJson?, StateDefinition.ofJson?_eq, StateDefinition.fieldNames,
    StateDefinition.itemsOfJson?, StateDefinition.listOfJson?, StateDefinition.invocationOfJson?,
    TransitionDefinition.ofJson?, TransitionDefinition.fieldNames,
    TransitionDefinition.targetOfJson?, HistoryDefinition.ofJson?, Action.readJson?_eq,
    Action.tagged?, Action.Kind.ofJson?, Action.Kind.fields, choose, raise, Action.blockField?,
    Action.readBlock?, Action.readItems?, record?, requiredText?, optionalText?, flagField?,
    listField?, fieldOr?, field?, Entries.find?, string?, bool?, items?]

theorem lamp_reads_back :
    ofJson? lampJson = some lamp ∧ lamp.toJson.depth ≤ Json.depthLimit ∧
      ofJson? lamp.toJson = some lamp ∧
      (∃ canonical, Json.parse? lamp.canonicalText = some canonical ∧
        Chart.ofJson? canonical = Chart.ofJson? lampJson) := by
  have shallow : lamp.toJson.depth ≤ Json.depthLimit := by decide
  obtain ⟨reads, parses, replaces⟩ := written_form_reads_back lamp
  obtain ⟨canonical, parsed, alike⟩ := parses shallow
  exact ⟨ofJson?_lampJson, shallow, reads lamp.toJson (.refl _), canonical, parsed,
    (replaces lampJson canonical ofJson?_lampJson alike).2⟩

end Definition

end Statechart
