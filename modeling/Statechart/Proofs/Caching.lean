import Statechart.Proofs.NodeSet
import Statechart.Proofs.References

/-!
# What is kept between requests

A data model is asked for conditions and expressions, told to act, and given other
contexts, in any order.  It keeps the guards that it had to look up and could parse,
each once, with what its text says.  So no answer depends on what was asked before,
but for the context, and both ways of evaluating a reference come to the same.
-/

namespace Statechart

namespace DataModel

variable {model after : DataModel} {texts : List String} {text : String}

/-! ## Requests -/

/-- What is asked of a data model, or done to it. -/
inductive Request where
  | condition (around : Surroundings) (text : String)
  | expression (around : Surroundings) (text : String)
  | action (around : Surroundings) (action : Action)
  | replace (context : Json.Value)

inductive Answer where
  | truth (outcome : Except ExpressionFault Bool)
  | value (outcome : Except ExpressionFault Json.Value)
  | done (outcome : Except ExpressionFault Unit)

/-- The answer to a request, and the data model after it. -/
def serve (model : DataModel) : Request → Answer × DataModel
  | .condition around text => (model.evalCondition around text).map Answer.truth id
  | .expression around text => (model.evalExpression around text).map Answer.value id
  | .action around action => (model.execute around action).map Answer.done id
  | .replace context => (.done (.ok ()), { model with context })

def serveAll (model : DataModel) (requests : List Request) : DataModel :=
  requests.foldl (fun model request => (model.serve request).2) model

/-- A data model that has not parsed anything. -/
def fresh (context : Json.Value) : DataModel :=
  { context }

theorem serveAll_concat (model : DataModel) (requests : List Request) (request : Request) :
    model.serveAll (requests ++ [request]) = ((model.serveAll requests).serve request).2 := by
  simp [serveAll]

/-- Data models with one context answer alike, whatever they keep. -/
theorem Agree.serve {first second : DataModel} (agree : first.Agree second) (request : Request) :
    SameOutcome Agree (first.serve request) (second.serve request) := by
  cases request with
  | condition around text => exact (agree.evalCondition around text).map Answer.truth
  | expression around text => exact (agree.evalExpression around text).map Answer.value
  | action around action => exact (agree.execute around action).map Answer.done
  | replace context => exact ⟨rfl, agree.withContext context⟩

/-! ## Which guards are looked up -/

/-- The text of which the guard is looked up to evaluate an expression, blanks at its ends aside:
none if it is empty, a JSON text, a reference or a text between single quotes. -/
def guardTextOf? (expression : String) : Option String :=
  let trimmed := Text.trim expression
  if trimmed.toList.isEmpty ∨ (Json.parse? trimmed).isSome ∨
      (fieldReference? trimmed).isSome ∨ (singleQuoted? trimmed).isSome then
    none
  else
    some trimmed

/-- The text of which the guard is looked up to serve a request. -/
def Request.guardText? : Request → Option String
  | .condition _ text => some text
  | .expression _ text => guardTextOf? text
  | .action _ (.assign _ text) => guardTextOf? text
  | .action _ _ => none
  | .replace _ => none

/-- The data model after the guard of a text was looked up, if there is a text. -/
def lookUp (model : DataModel) (text? : Option String) : DataModel :=
  text?.elim model fun text => (model.guard text).2

theorem evalCondition_after (model : DataModel) (around : Surroundings) (text : String) :
    (model.evalCondition around text).2 = (model.guard text).2 := by
  unfold evalCondition
  split
  · next looked => rw [looked]
  · next looked => rw [looked]

theorem evalExpression_after (model : DataModel) (around : Surroundings) (expression : String) :
    (model.evalExpression around expression).2 = model.lookUp (guardTextOf? expression) := by
  unfold evalExpression guardTextOf?
  dsimp only
  split
  · next isEmpty => simp [isEmpty, lookUp]
  · next nonempty =>
      cases literal : Json.parse? (Text.trim expression) with
      | some value => simp [lookUp]
      | none =>
          cases reference : fieldReference? (Text.trim expression) with
          | some field => simp [lookUp]
          | none =>
              cases quoted : singleQuoted? (Text.trim expression) with
              | some content => simp [lookUp]
              | none =>
                  have looksUp : ¬ ((Text.trim expression).toList.isEmpty = true ∨
                      (none : Option Json.Value).isSome = true ∨
                      (none : Option Field).isSome = true ∨
                      (none : Option String).isSome = true) := by
                    simpa using nonempty
                  rw [if_neg looksUp]
                  show _ = (model.guard (Text.trim expression)).2
                  cases looked : model.guard (Text.trim expression) with
                  | mk outcome next => cases outcome <;> rfl

theorem guards_assign (model : DataModel) (location : String) (value : Json.Value) :
    (model.assign location value).2.guards = model.guards := by
  unfold assign
  split
  · rfl
  · rfl

/-- A request adds to what is kept just what is looked up for it. -/
theorem guards_serve (model : DataModel) (request : Request) :
    (model.serve request).2.guards = (model.lookUp request.guardText?).guards := by
  cases request with
  | condition around text =>
      rw [serve, Prod.map_snd, id, evalCondition_after, Request.guardText?]
      rfl
  | expression around text =>
      rw [serve, Prod.map_snd, id, evalExpression_after, Request.guardText?]
  | replace context => rfl
  | action around action =>
      rw [serve, Prod.map_snd, id]
      cases action with
      | assign location expression =>
          -- What is written goes to the context, so the value alone decides what is kept.
          rw [Request.guardText?, ← evalExpression_after model around expression, execute]
          cases model.evalExpression around expression with
          | mk outcome next =>
              cases outcome with
              | error fault => rfl
              | ok value =>
                  dsimp only
                  rw [guards_assign]
      | script body => rfl
      | log label expression => rfl
      | raise event => rfl
      | choose condition thenBlock elseBlock => rfl

/-! ## What is kept -/

/-- Of some texts those that are guards are kept, each once, with what they say. -/
structure Keeps (model : DataModel) (texts : List String) : Prop where
  distinct : (Entries.keys model.guards).Nodup
  mem_iff : ∀ text parsed,
    (text, parsed) ∈ model.guards ↔ text ∈ texts ∧ Guard.parse text = .ok parsed

namespace Keeps

variable (keeps : model.Keeps texts)
include keeps

theorem isSound : model.IsSound :=
  fun text known found => ((keeps.mem_iff text known).1 (Entries.mem_of_find? found)).2

theorem congr (same : after.guards = model.guards) : after.Keeps texts :=
  ⟨same ▸ keeps.distinct, same ▸ keeps.mem_iff⟩

/-- A text need not be looked up again, or again in vain. -/
theorem of_known (known : text ∈ texts ∨ ∀ parsed, Guard.parse text ≠ .ok parsed) :
    model.Keeps (texts ++ [text]) := by
  refine ⟨keeps.distinct, fun other parsed => (keeps.mem_iff other parsed).trans ?_⟩
  rw [List.mem_append, List.mem_singleton]
  refine and_congr_left fun isParsed => (or_iff_left_of_imp ?_).symm
  rintro rfl
  exact known.resolve_right fun noGuard => noGuard parsed isParsed

/-- A guard that is parsed for the first time is added. -/
theorem insert {parsed : Guard} (isParsed : Guard.parse text = .ok parsed)
    (isNew : text ∉ Entries.keys model.guards) :
    ({ model with guards := Entries.insert text parsed model.guards } : DataModel).Keeps
      (texts ++ [text]) := by
  have added := Entries.insert_perm isNew parsed
  constructor
  · exact (added.map Prod.fst).nodup_iff.2 (List.nodup_cons.2 ⟨isNew, keeps.distinct⟩)
  · intro other found
    rw [added.mem_iff, List.mem_cons, keeps.mem_iff, List.mem_append, List.mem_singleton,
      Prod.mk.injEq]
    constructor
    · rintro (⟨rfl, rfl⟩ | ⟨earlier, isFound⟩)
      · exact ⟨.inr rfl, isParsed⟩
      · exact ⟨.inl earlier, isFound⟩
    · rintro ⟨earlier | rfl, isFound⟩
      · exact .inr ⟨earlier, isFound⟩
      · exact .inl ⟨rfl, Except.ok.inj (isFound.symm.trans isParsed)⟩

theorem guard (text : String) : (model.guard text).2.Keeps (texts ++ [text]) := by
  unfold DataModel.guard
  cases found : Entries.find? text model.guards with
  | some known =>
      exact keeps.of_known (.inl ((keeps.mem_iff text known).1 (Entries.mem_of_find? found)).1)
  | none =>
      cases isParsed : Guard.parse text with
      | error flaw =>
          refine keeps.of_known (.inr fun parsed isGuard => ?_)
          rw [isParsed] at isGuard
          cases isGuard
      | ok parsed =>
          refine keeps.insert isParsed fun member => ?_
          have contained := Entries.contains_iff.2 member
          rw [Entries.contains, found] at contained
          cases contained

theorem serve (request : Request) :
    (model.serve request).2.Keeps (texts ++ request.guardText?.toList) := by
  have same := model.guards_serve request
  cases needed : request.guardText? with
  | none =>
      rw [needed] at same
      rw [Option.toList_none, List.append_nil]
      exact keeps.congr same
  | some text =>
      rw [needed] at same
      exact (keeps.guard text).congr same

end Keeps

/-- After any requests just the guards that were looked up for them are kept. -/
theorem keeps_serveAll (context : Json.Value) (requests : List Request) :
    ((fresh context).serveAll requests).Keeps (requests.filterMap Request.guardText?) := by
  induction requests using List.reverseRecOn with
  | nil => exact ⟨.nil, fun text parsed => by simp [serveAll, fresh]⟩
  | append_singleton earlier request ih =>
      have needed : [request].filterMap Request.guardText? = request.guardText?.toList := by
        cases isText : request.guardText? <;> simp [isText]
      rw [serveAll_concat, List.filterMap_append, needed]
      exact ih.serve request

/-- After any requests, a request is answered as by a data model with the same context that has
not parsed anything, and leads to the same context.  What is kept are the guards that were looked
up and could be parsed, each text once.  A text that is accepted as a reference, blanks at its ends
aside, is a condition as well, which holds if the value of the reference counts as true. -/
theorem caching_changes_no_answer (context : Json.Value) (requests : List Request) :
    let model := (fresh context).serveAll requests
    (∀ request, (model.serve request).1 = ((fresh model.context).serve request).1 ∧
      (model.serve request).2.context = ((fresh model.context).serve request).2.context) ∧
    (Entries.keys model.guards).Nodup ∧
    (∀ text parsed, (text, parsed) ∈ model.guards ↔
      (∃ request ∈ requests, request.guardText? = some text) ∧ Guard.parse text = .ok parsed) ∧
    ∀ around text field, fieldReference? (Text.trim text) = some field →
      ∃ value, (model.evalExpression around text).1 = .ok value ∧
        (model.evalCondition around text).1 = .ok value.isTruthy := by
  have keeps := keeps_serveAll context requests
  refine ⟨fun request => ?_, keeps.distinct, fun text parsed => ?_, ?_⟩
  · have agree : ((fresh context).serveAll requests).Agree (fresh _) :=
      ⟨rfl, keeps.isSound, isSound_fresh _⟩
    obtain ⟨sameAnswer, after⟩ := agree.serve request
    exact ⟨sameAnswer, after.context_eq⟩
  · rw [keeps.mem_iff, List.mem_filterMap]
  · intro around text field accepted
    obtain ⟨isPath, refers⟩ := fieldReference?_eq_some_iff.1 accepted
    rw [evalExpression_field isPath refers]
    exact ⟨_, rfl, keeps.isSound.evalCondition_field isPath refers around⟩

/-- Somebody asks whether a hall is lit, before and after the context is replaced. -/
def hallRequests : List Request :=
  [.condition ⟨none, (· == "hall")⟩ "ctx.lit || In('hall')", .condition .bare "lit",
    .action .bare (.assign "ctx.dark" " !ctx.lit "), .expression .bare "'lit'",
    .replace (.object [("lit", .bool true)]), .condition .bare "ctx.lit || In('hall')"]

/-- The guard that is asked for twice is kept once, next to the one that was assigned. -/
theorem hall_guards_are_kept :
    fieldReference? (Text.trim " ctx.lit ") = some ⟨.context, "lit"⟩ ∧
    let hall := (fresh .null).serveAll hallRequests
    Entries.keys hall.guards = ["!ctx.lit", "ctx.lit || In('hall')"] ∧
      ("!ctx.lit", .negation (.truthy ⟨.context, "lit"⟩)) ∈ hall.guards ∧
      (hall.serve (.condition .bare "ctx.lit || In('hall')")).1 =
        ((fresh (.object [("lit", .bool true)])).serve
          (.condition .bare "ctx.lit || In('hall')")).1 ∧
      ∃ value, (hall.evalExpression .bare " ctx.lit ").1 = .ok value ∧
        (hall.evalCondition .bare " ctx.lit ").1 = .ok value.isTruthy := by
  have accepted : fieldReference? (Text.trim " ctx.lit ") = some ⟨.context, "lit"⟩ := rfl
  obtain ⟨answers, -, isKept, references⟩ := caching_changes_no_answer .null hallRequests
  have isAssigned : Request.action .bare (.assign "ctx.dark" " !ctx.lit ") ∈ hallRequests :=
    .tail _ (.tail _ (.head _))
  refine ⟨accepted, rfl, (isKept _ _).2 ⟨⟨_, isAssigned, rfl⟩, rfl⟩, ?_, ?_⟩
  · exact (answers (.condition .bare "ctx.lit || In('hall')")).1
  · exact references .bare " ctx.lit " _ accepted

end DataModel

end Statechart
