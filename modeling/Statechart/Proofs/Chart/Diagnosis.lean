import Statechart.Proofs.Chart.Acceptance

/-!
# What the defects of a rejection tell

When validation rejects a chart for its initial targets, or for targets that are
not legal together, then the chart has the defect that is named.  What the
rejected chart has become does not matter, since it restates the chart as it was.
-/

namespace Statechart

namespace Chart

variable {chart before after : Chart}

/-- What a defect says of the initial targets in a chart, and of targets that are no legal ones
together.  The other defects say nothing of these. -/
def Incriminates (chart : Chart) : Defect → Prop
  | .noInitialState _ =>
    ¬ ∃ words, chart.initialWords rootId = some words ∧ chart.LeadTo words fun _ => True
  | .badInitialState name =>
    ∀ state, chart.IsProper state → chart.effectiveId state = name →
      ∃ words, chart.initialWords state = some words ∧
        ¬ chart.LeadTo words fun target => chart.isDescendant target state = true
  | .illegalTargets _ next => ¬ ∃ targets, chart.AreTargets (Text.words next) targets
  | _ => True

theorem Restates.leadTo_iff (restates : Restates before after) {words : List String}
    {Suits : NodeId → Prop} : after.LeadTo words Suits ↔ before.LeadTo words Suits :=
  ⟨restates.symm.leadTo, restates.leadTo⟩

theorem Restates.incriminates_iff (restates : Restates before after) {defect : Defect} :
    after.Incriminates defect ↔ before.Incriminates defect := by
  cases defect with
  | noInitialState initial =>
      simp only [Incriminates, restates.initialWords_eq, restates.leadTo_iff]
  | badInitialState name =>
      simp only [Incriminates, restates.sameTree.isProper_iff, restates.effectiveId_eq,
        restates.initialWords_eq, restates.sameTree.isDescendant_eq, restates.leadTo_iff]
  | illegalTargets name next => simp only [Incriminates, restates.areTargets_iff]
  | _ => exact Iff.rfl

/-- A step of validation explains its rejections. -/
def Explains (chart : Chart) : Except Rejection Chart → Prop :=
  Yields (Relinks chart) (fun rejection => chart.Incriminates rejection.defect)

namespace Explains

variable {Rule : Prop} {outcome : Except Rejection Chart}

/-- Where a step decides a rule, only its rejections are to be explained. -/
theorem of_decides (decides : chart.Decides Rule outcome)
    (faults : ∀ rejection, outcome = .error rejection → ¬ Rule →
      chart.Incriminates rejection.defect) : chart.Explains outcome := by
  cases outcome with
  | error rejection => exact faults rejection rfl decides.2
  | ok after => exact decides.1

theorem bind {next : Chart → Except Rejection Chart} (first : chart.Explains outcome)
    (continues : ∀ middle, Relinks chart middle → middle.Explains (next middle)) :
    chart.Explains (outcome >>= next) := by
  refine Yields.bind (Relinks chart) first fun middle relinks => ?_
  refine (continues middle relinks).imp (fun after further => relinks.trans further) ?_
  exact fun rejection told => relinks.restates.incriminates_iff.1 told

theorem foldlM {Element : Type} {step : Chart → Element → Except Rejection Chart}
    {elements : List Element}
    (steps : ∀ state, ∀ element ∈ elements, Relinks chart state →
      state.Explains (step state element)) : chart.Explains (elements.foldlM step chart) := by
  induction elements generalizing chart with
  | nil => exact .refl chart
  | cons element rest ih =>
      rw [List.foldlM_cons]
      refine (steps chart element List.mem_cons_self (.refl chart)).bind fun middle relinks => ?_
      refine ih fun state other isRest further => ?_
      exact steps state other (List.mem_cons_of_mem _ isRest) (relinks.trans further)

end Explains

/-! ## Steps of linking -/

namespace IsReady

variable (ready : chart.IsReady)
include ready

/-- Targets that are found are rejected only if they are not legal together. -/
theorem incriminates_of_linkTargets {source : NodeId} {id : TransitionId} {next : String}
    {targets : List NodeId} {rejection : Rejection} (found : chart.findTargets next = .ok targets)
    (fails : chart.linkTargets source id next targets = .error rejection) :
    chart.Incriminates rejection.defect := by
  unfold linkTargets at fails
  split at fails
  · cases fails
  · next illegal =>
      cases fails
      exact fun are => illegal ((exists_areTargets_iff ready.bears ready.grown.planted found).1 are)

theorem explains_resolveRootInitial : chart.Explains chart.resolveRootInitial := by
  refine .of_decides ready.decides_resolveRootInitial fun rejection fails broken => ?_
  unfold resolveRootInitial at fails
  split at fails
  · cases fails
    exact trivial
  · dsimp only at fails
    split at fails
    · cases fails
      exact broken
    · cases fails
      exact broken
    · next targets notEmpty found => exact ready.incriminates_of_linkTargets found fails

theorem explains_resolveInitial {state : NodeId} {transition : TransitionId}
    (proper : chart.IsProper state) (isInitial : (chart.node state).initial = some transition) :
    chart.Explains (chart.resolveInitial state transition) := by
  refine .of_decides (ready.decides_resolveInitial state transition)
    fun rejection fails broken => ?_
  -- The name of the state tells which state it is.
  have isBad : chart.Incriminates (.badInitialState (chart.idOf state)) := by
    intro other isNode sameId
    rw [ready.bears.idOf_eq state proper] at sameId
    obtain rfl := ready.bears.hasDistinctIds other state isNode proper sameId
    exact ⟨chart.nextWords transition, by rw [initialWords, isInitial], broken⟩
  unfold resolveInitial at fails
  dsimp only at fails
  split at fails
  · cases fails
    exact isBad
  · cases fails
    exact isBad
  · next targets notEmpty found =>
      split at fails
      · exact ready.incriminates_of_linkTargets found fails
      · cases fails
        exact isBad

theorem explains_resolveHistory {history owner : NodeId} {kind : HistoryKind}
    {default : Option TransitionId} (isKind : (chart.node history).kind = .history kind default)
    (isParent : chart.parent history = some owner) :
    chart.Explains (chart.resolveHistory history kind default) := by
  refine .of_decides (ready.decides_resolveHistory isKind isParent) fun rejection fails _ => ?_
  unfold resolveHistory at fails
  dsimp only at fails
  split at fails
  · cases fails
    exact trivial
  · split at fails
    · cases fails
      exact trivial
    · cases fails
      exact trivial
    · next targets notEmpty found =>
        split at fails
        · exact ready.incriminates_of_linkTargets found fails
        · cases fails
          cases kind <;> exact trivial

theorem explains_resolveOutgoing (node : NodeId) (transition : TransitionId) :
    chart.Explains (chart.resolveOutgoing node transition) := by
  refine .of_decides (ready.decides_resolveOutgoing node transition) fun rejection fails _ => ?_
  unfold resolveOutgoing at fails
  split at fails
  · cases fails
  · split at fails
    · cases fails
      exact trivial
    · next targets found => exact ready.incriminates_of_linkTargets found fails

theorem explains_checkContent (id : NodeId) : chart.Explains (chart.checkContent id) := by
  unfold checkContent
  split
  · next defect isDefect =>
      obtain ⟨invocation, -, isDefect⟩ := Option.bind_eq_some_iff.1 isDefect
      unfold invocationDefect? at isDefect
      split at isDefect
      · cases isDefect
        exact trivial
      · split at isDefect <;> cases isDefect <;> exact trivial
  · refine .foldlM fun state transition _ relinks => ?_
    exact (ready.relinks relinks).explains_resolveOutgoing id transition

theorem explains_checkNode {id : NodeId} (proper : chart.IsProper id) :
    chart.Explains (chart.checkNode id) := by
  unfold checkNode
  dsimp only
  split
  · next initial isFinal isKind =>
      split
      · exact trivial
      · split
        · next transition =>
            have isInitial : (chart.node id).initial = some transition := by
              simp [Node.initial, isKind]
            refine (ready.explains_resolveInitial proper isInitial).bind fun middle relinks => ?_
            exact (ready.relinks relinks).explains_checkContent id
        · exact ready.explains_checkContent id
  · split
    · exact trivial
    · exact ready.explains_checkContent id
  · next kind default isKind =>
      obtain ⟨owner, isParent, -⟩ := ready.grown.planted.exists_parent id proper.1 proper.2
      exact ready.explains_resolveHistory isKind isParent
  · exact ready.explains_checkContent id

/-- Linking explains why it rejects a chart. -/
theorem explains_link :
    chart.Explains (chart.resolveRootInitial >>= fun rooted =>
      (rooted.nodeIds.drop 1).foldlM checkNode rooted) := by
  refine ready.explains_resolveRootInitial.bind fun rooted relinks => ?_
  refine .foldlM fun state id member further => ?_
  refine (ready.relinks (relinks.trans further)).explains_checkNode ?_
  exact further.sameTree.isProper_iff.2 (mem_drop_nodeIds.1 member)

end IsReady

/-! ## All of validation -/

/-- Naming fails only because of an id that is taken. -/
theorem incriminates_of_assignIds {rejection : Rejection}
    (fails : chart.assignIds = .error rejection) : before.Incriminates rejection.defect := by
  obtain ⟨state, owner, -, misnamed⟩ := exists_of_foldlM_eq_error fails
  obtain ⟨middle, ⟨node, madeUp⟩, -, taken⟩ := exists_of_foldlM_eq_error misnamed
  rw [nameNode_eq] at taken
  dsimp only at taken
  split at taken
  · cases taken
    exact trivial
  · cases taken

/-- Adding what was left out fails only because of a history. -/
theorem incriminates_of_addMissingTransitions {rejection : Rejection}
    (fails : chart.addMissingTransitions = .error rejection) :
    before.Incriminates rejection.defect := by
  obtain ⟨state, node, -, lacking⟩ := exists_of_foldlM_eq_error fails
  unfold addMissingDefault at lacking
  split at lacking
  · split at lacking
    · cases lacking
    · split at lacking
      · cases lacking
        exact trivial
      · split at lacking <;> cases lacking
  · cases lacking

/-- When validation rejects a chart, the chart has the defect that is named. -/
theorem IsGrown.incriminates_of_validate (grown : chart.IsGrown) {rejection : Rejection}
    (rejected : chart.validate = .error rejection) : chart.Incriminates rejection.defect := by
  suffices explained : Yields (fun _ => True)
      (fun rejection => chart.Incriminates rejection.defect) chart.validate from
    explained.of_eq_error rejected
  unfold validate
  split
  · exact trivial
  · refine Yields.bind _ ((assignIds_decides grown).imp_error fun _ fails =>
      incriminates_of_assignIds fails) ?_
    rintro named ⟨revises, bears⟩
    refine Yields.bind _ ((addMissingTransitions_decides revises.isGrown bears).imp_error
      fun _ fails => incriminates_of_addMissingTransitions fails) ?_
    rintro completed ⟨further, ready⟩
    obtain ⟨ordering, ordered⟩ := ready.assignOrder
    have restates := ((revises.trans further).trans ordering).restates
    rw [← bind_assoc]
    refine Yields.bind (fun _ => True) ?_ fun _ _ => trivial
    exact ordered.explains_link.imp (fun _ _ => trivial) fun _ told =>
      restates.incriminates_iff.1 told

end Chart

end Statechart
