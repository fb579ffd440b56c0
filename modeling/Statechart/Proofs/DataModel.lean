import Statechart.DataModel
import Statechart.Proofs.Stages

/-!
# Data models that evaluate alike

A data model keeps the guards that it has parsed.  As long as they are what their texts
say, nothing that it evaluates depends on which ones are kept.
-/

namespace Statechart

namespace DataModel

/-- Every guard that is kept is what its text says. -/
def IsSound (model : DataModel) : Prop :=
  ∀ text known, Entries.find? text model.guards = some known → Guard.parse text = .ok known

/-- A data model that has not parsed anything keeps nothing. -/
theorem isSound_fresh (context : Json.Value) : ({ context } : DataModel).IsSound :=
  fun _ _ found => absurd found (by simp [Entries.find?])

namespace IsSound

variable {model : DataModel} (sound : model.IsSound)
include sound

theorem keep {text : String} {parsed : Guard} (isParsed : Guard.parse text = .ok parsed) :
    ({ model with guards := Entries.insert text parsed model.guards } : DataModel).IsSound := by
  intro other known found
  by_cases same : other = text
  · subst same
    rw [Entries.find?_insert_self] at found
    cases found
    exact isParsed
  · rw [Entries.find?_insert_of_ne same] at found
    exact sound other known found

/-- A guard that is kept stands for its text. -/
theorem guard (text : String) :
    (model.guard text).1 = Guard.parse text ∧ (model.guard text).2.context = model.context ∧
      (model.guard text).2.IsSound := by
  unfold DataModel.guard
  cases kept : Entries.find? text model.guards with
  | some known => exact ⟨(sound text known kept).symm, rfl, sound⟩
  | none =>
      cases isParsed : Guard.parse text with
      | error flaw => exact ⟨rfl, rfl, sound⟩
      | ok parsed => exact ⟨rfl, rfl, sound.keep isParsed⟩

end IsSound

/-! ## Evaluation keeps the context -/

theorem context_guard (model : DataModel) (text : String) :
    (model.guard text).2.context = model.context := by
  unfold guard
  split
  · rfl
  · split <;> rfl

theorem context_evalCondition (model : DataModel) (around : Surroundings) (text : String) :
    (model.evalCondition around text).2.context = model.context := by
  rw [← model.context_guard text]
  unfold evalCondition
  split
  · next result => rw [result]
  · next result => rw [result]

theorem context_evalExpression (model : DataModel) (around : Surroundings) (text : String) :
    (model.evalExpression around text).2.context = model.context := by
  have kept := model.context_guard (Text.trim text)
  unfold evalExpression
  dsimp only
  repeat' split
  all_goals first
    | rfl
    | next result =>
        rw [result] at kept
        exact kept

/-- A condition holds if its guard does, and fails if it is no guard, whatever is kept. -/
theorem IsSound.evalCondition_eq {model : DataModel} (sound : model.IsSound)
    (around : Surroundings) (text : String) :
    (model.evalCondition around text).1 =
      match Guard.parse text with
      | .ok parsed => .ok (parsed.holds model.context around)
      | .error flaw => .error ⟨String.ofList (Text.trimChars text.toList), .notAGuard flaw⟩ := by
  obtain ⟨isParsed, context, -⟩ := sound.guard text
  unfold evalCondition
  split
  · next result =>
      rw [result] at isParsed
      rw [← isParsed]
  · next result =>
      rw [result] at isParsed context
      rw [← isParsed]
      exact congrArg (fun context => Except.ok (Guard.holds context around _)) context

/-- Two data models with one context. -/
structure Agree (first second : DataModel) : Prop where
  context_eq : first.context = second.context
  sound_first : first.IsSound
  sound_second : second.IsSound

namespace Agree

theorem trans {first second third : DataModel} (left : first.Agree second)
    (right : second.Agree third) : first.Agree third :=
  ⟨left.context_eq.trans right.context_eq, left.sound_first, right.sound_second⟩

variable {first second : DataModel} (agree : first.Agree second)
include agree

theorem guard (text : String) : SameOutcome Agree (first.guard text) (second.guard text) := by
  obtain ⟨here, contextHere, soundHere⟩ := agree.sound_first.guard text
  obtain ⟨there, contextThere, soundThere⟩ := agree.sound_second.guard text
  exact ⟨here.trans there.symm,
    ⟨contextHere.trans (agree.context_eq.trans contextThere.symm), soundHere, soundThere⟩⟩

theorem withContext (context : Json.Value) :
    ({ first with context } : DataModel).Agree { second with context } :=
  ⟨rfl, agree.sound_first, agree.sound_second⟩

theorem evalCondition (around : Surroundings) (text : String) :
    SameOutcome Agree (first.evalCondition around text) (second.evalCondition around text) := by
  obtain ⟨parsed, next, following, here, there, agree⟩ := (agree.guard text).exists
  rw [DataModel.evalCondition, DataModel.evalCondition, here, there]
  cases parsed with
  | error flaw => exact ⟨rfl, agree⟩
  | ok parsed => exact ⟨congrArg (Except.ok <| parsed.holds · around) agree.context_eq, agree⟩

theorem evalExpression (around : Surroundings) (text : String) :
    SameOutcome Agree (first.evalExpression around text)
      (second.evalExpression around text) := by
  obtain ⟨parsed, next, following, here, there, after⟩ := (agree.guard (Text.trim text)).exists
  unfold DataModel.evalExpression
  dsimp only
  rw [agree.context_eq, here, there]
  split
  · exact ⟨rfl, agree⟩
  · cases Json.parse? (Text.trim text) with
    | some value => exact ⟨rfl, agree⟩
    | none =>
        cases fieldReference? (Text.trim text) with
        | some field => exact ⟨rfl, agree⟩
        | none =>
            cases singleQuoted? (Text.trim text) with
            | some content => exact ⟨rfl, agree⟩
            | none =>
                cases parsed with
                | error flaw => exact ⟨rfl, after⟩
                | ok parsed =>
                    have holds := congrArg (parsed.holds · around) after.context_eq
                    exact ⟨congrArg (Except.ok <| Json.Value.bool ·) holds, after⟩

theorem assign (location : String) (value : Json.Value) :
    SameOutcome Agree (first.assign location value) (second.assign location value) := by
  unfold DataModel.assign
  rw [agree.context_eq]
  cases locationParts? location with
  | none => exact ⟨rfl, agree⟩
  | some parts => exact ⟨rfl, agree.withContext _⟩

theorem execute (around : Surroundings) (action : Action) :
    SameOutcome Agree (first.execute around action) (second.execute around action) := by
  cases action with
  | assign location expression =>
      obtain ⟨result, next, following, here, there, agree⟩ :=
        (agree.evalExpression around expression).exists
      rw [DataModel.execute, DataModel.execute, here, there]
      cases result with
      | error fault => exact ⟨rfl, agree⟩
      | ok value => exact agree.assign location value
  | script body => exact ⟨rfl, agree⟩
  | log label expression => exact ⟨rfl, agree⟩
  | raise event => exact ⟨rfl, agree⟩
  | choose condition thenBlock elseBlock => exact ⟨rfl, agree⟩

end Agree

namespace IsSound

variable {model : DataModel} (sound : model.IsSound)
include sound

/-- A sound data model evaluates like itself, so it stays sound whatever it evaluates. -/
theorem agree : model.Agree model :=
  ⟨rfl, sound, sound⟩

theorem evalCondition (around : Surroundings) (text : String) :
    (model.evalCondition around text).2.IsSound :=
  (sound.agree.evalCondition around text).related.sound_first

theorem evalExpression (around : Surroundings) (text : String) :
    (model.evalExpression around text).2.IsSound :=
  (sound.agree.evalExpression around text).related.sound_first

theorem execute (around : Surroundings) (action : Action) :
    (model.execute around action).2.IsSound :=
  (sound.agree.execute around action).related.sound_first

/-- To evaluate leaves the data model as it is, but for the guards that are kept. -/
theorem agree_evalCondition (around : Surroundings) (text : String) :
    model.Agree (model.evalCondition around text).2 :=
  ⟨(model.context_evalCondition around text).symm, sound, sound.evalCondition around text⟩

theorem agree_evalExpression (around : Surroundings) (text : String) :
    model.Agree (model.evalExpression around text).2 :=
  ⟨(model.context_evalExpression around text).symm, sound, sound.evalExpression around text⟩

end IsSound

end DataModel

end Statechart
