import Statechart.Machine.Basic
import Statechart.Proofs.Chart.Acceptance

/-!
# Charts under construction

A chart is built by edits, between which it may be validated any number of
times.  As long as it counts as validated it breaks no rule, except that an
invocation that was set since may be incomplete: setting one does not make the
chart unvalidated.
-/

namespace Statechart

namespace Chart

/-- What can be done to a chart under construction. -/
inductive Edit where
  | state (parent : NodeId) (id : Option String) (isFinal : Bool)
  | parallel (parent : NodeId) (id : Option String)
  | history (owner : NodeId) (id : Option String) (kind : HistoryKind)
  | transition (source : NodeId) (event condition next : Option String) (actions : List Action)
  | initial (node : NodeId) (next : String) (actions : List Action)
  | historyDefault (owner : NodeId) (next : Option String) (actions : List Action)
  | onEntry (node : NodeId) (actions : List Action)
  | onExit (node : NodeId) (actions : List Action)
  | invocation (node : NodeId) (given : Invocation)
  | validate

namespace Edit

/-- The node that an edit is about. -/
def node? : Edit → Option NodeId
  | state node _ _ | parallel node _ | history node _ _ | transition node _ _ _ _
  | initial node _ _ | historyDefault node _ _ | onEntry node _ | onExit node _
  | invocation node _ => some node
  | validate => none

/-- An edit of a node that is there. -/
def IsCallable (edit : Edit) (chart : Chart) : Prop :=
  ∀ node, edit.node? = some node → node < chart.nodeCount

/-- The chart after an edit.  A chart that validation rejects keeps the changes made so far. -/
def apply (chart : Chart) : Edit → Chart
  | state parent id isFinal => (chart.addState parent id isFinal).1
  | parallel parent id => (chart.addParallel parent id).1
  | history owner id kind => (chart.addHistory owner id kind).1
  | transition source event condition next actions =>
    (chart.addTransition source event condition next actions).1
  | initial node next actions => chart.setInitial node next actions
  | historyDefault owner next actions => chart.setHistoryDefault owner next actions
  | onEntry node actions => chart.addOnEntry node actions
  | onExit node actions => chart.addOnExit node actions
  | invocation node given => chart.setInvocation node given
  | validate =>
    match chart.validate with
    | .ok after => after
    | .error rejection => rejection.chart

end Edit

/-- The charts that edits make of an empty one. -/
inductive IsEdited : Chart → Prop
  | empty (name : Option String) : IsEdited (.empty name)
  | edit {chart : Chart} (edited : IsEdited chart) (edit : Edit)
      (callable : edit.IsCallable chart) : IsEdited (edit.apply chart)

variable {chart : Chart}

theorem IsEdited.edit_of_node? (edited : chart.IsEdited) (edit : Edit) {node : NodeId}
    (about : edit.node? = some node) (inside : node < chart.nodeCount) :
    (edit.apply chart).IsEdited := by
  refine .edit edited edit fun other isOther => ?_
  rw [about] at isOther
  exact Option.some.inj isOther ▸ inside

/-- What every edit keeps: the chart has grown, and if it counts as validated it is sound. -/
structure IsKept (chart : Chart) : Prop where
  isGrown : chart.IsGrown
  isSound : chart.isValidated = true → chart.IsSound

namespace IsKept

theorem addNode (kept : chart.IsKept) {owner : NodeId} {kind : NodeKind} {id : Option String}
    (inside : owner < chart.nodeCount) (notRoot : (chart.newNode owner kind id).isRoot = false)
    (bare : (chart.newNode owner kind id).references = []) :
    (chart.addNode owner kind id).1.IsKept where
  isGrown := kept.isGrown.addNode kind id inside notRoot bare
  isSound := fun validated => absurd validated Bool.false_ne_true

theorem attach (kept : chart.IsKept) {refer : TransitionId → Node → Node}
    (reference : IsReference refer) (added : Transition) : (chart.attach refer added).IsKept where
  isGrown := reference.isGrown kept.isGrown
  isSound := fun validated => absurd validated Bool.false_ne_true

/-- Changing what no rule but those for invocations looks at leaves a sound chart sound. -/
theorem modifyNode (kept : chart.IsKept) {change : Node → Node}
    (keepsPosition : ∀ node, (change node).position = node.position)
    (keepsId : ∀ node, (change node).declaredId = node.declaredId)
    (keepsInitial : ∀ node, (change node).initial = node.initial)
    (keepsDefault : ∀ node, (change node).historyDefault = node.historyDefault)
    (keepsTransitions : ∀ node, (change node).transitions = node.transitions) (id : NodeId) :
    (chart.modifyNode id change).IsKept where
  isGrown := kept.isGrown.modifyNode keepsPosition (fun node => by
    rw [Node.references, Node.references, keepsInitial, keepsDefault, keepsTransitions]) id
  isSound := by
    intro validated
    have same : SameTree chart (chart.modifyNode id change) := .modifyNode keepsPosition id
    have ids := same.effectiveId_eq rfl (node_modifyNode_keeps Node.declaredId keepsId id)
    refine (Restates.of_declaresTheSame same ids fun other => ?_).isSound (kept.isSound validated)
    exact ⟨node_modifyNode_keeps Node.initial keepsInitial id other,
      node_modifyNode_keeps Node.historyDefault keepsDefault id other,
      node_modifyNode_keeps Node.transitions keepsTransitions id other, fun _ _ => rfl⟩

theorem validate (kept : chart.IsKept) : (Edit.validate.apply chart).IsKept := by
  have decides := validate_decides kept.isGrown
  unfold Edit.apply
  cases outcome : chart.validate with
  | ok after =>
      rw [outcome] at decides
      exact ⟨decides.isGrown, fun _ => decides.restates.isSound decides.isWellFormed.sound⟩
  | error rejection =>
      rw [outcome] at decides
      have revises := decides.revises
      exact ⟨revises.isGrown, fun validated =>
        revises.isSound_iff.2 (kept.isSound (revises.isValidated validated))⟩

theorem apply (kept : chart.IsKept) (edit : Edit) (callable : edit.IsCallable chart) :
    (edit.apply chart).IsKept := by
  cases edit with
  | state parent id isFinal => exact kept.addNode (callable parent rfl) rfl rfl
  | parallel parent id => exact kept.addNode (callable parent rfl) rfl rfl
  | history owner id kind => exact kept.addNode (callable owner rfl) rfl rfl
  | transition source event condition next actions =>
      rw [Edit.apply, addTransition_eq]
      exact kept.attach isReference_referOutgoing _
  | initial node next actions =>
      rw [Edit.apply, setInitial_eq]
      exact kept.attach isReference_referInitial _
  | historyDefault owner next actions =>
      rw [Edit.apply, setHistoryDefault_eq]
      exact kept.attach isReference_referDefault _
  | onEntry node actions =>
      refine kept.modifyNode ?_ ?_ ?_ ?_ ?_ node
      all_goals exact fun _ => rfl
  | onExit node actions =>
      refine kept.modifyNode ?_ ?_ ?_ ?_ ?_ node
      all_goals exact fun _ => rfl
  | invocation node given =>
      refine kept.modifyNode ?_ ?_ ?_ ?_ ?_ node
      all_goals exact fun _ => rfl
  | validate => exact kept.validate

end IsKept

theorem IsEdited.isKept (edited : chart.IsEdited) : chart.IsKept := by
  induction edited with
  | empty name =>
      exact ⟨(isBuilt_empty name).isGrown, fun validated => absurd validated Bool.false_ne_true⟩
  | edit _ edit callable ih => exact ih.apply edit callable

/-- A chart that counts as validated is sound, and validating it anew fails only for an
incomplete invocation.  A machine is created from such charts only. -/
theorem validated_chart_is_sound (edited : chart.IsEdited) :
    (chart.isValidated = true → chart.IsSound ∧
      ((∃ accepted, chart.validate = .ok accepted) ↔
        ∀ id, chart.IsProper id → (chart.node id).isHistory = false →
          chart.HasSoundInvocation id)) ∧
    ∀ model machine, Machine.create chart model = .ok machine →
      machine.chart = chart ∧ chart.IsSound := by
  have sound := edited.isKept.isSound
  constructor
  · intro validated
    refine ⟨sound validated, edited.isKept.isGrown.exists_validate_eq_ok_iff.trans ?_⟩
    exact ⟨fun formed => formed.invocations, fun complete => ⟨sound validated, complete⟩⟩
  · intro model machine created
    unfold Machine.create at created
    split at created
    · next validated =>
        cases created
        exact ⟨rfl, sound validated⟩
    · cases created

/-- A chart with one state, validated. -/
def plainDoor : Chart :=
  Edit.apply (Edit.apply (.empty none) (.state rootId (some "closed") false)) .validate

/-- The same chart after its state got an invocation without a type. -/
def door : Chart :=
  Edit.apply plainDoor (.invocation 1 { service := " ", source := some "x" })

theorem isEdited_door : door.IsEdited := by
  have built : (Edit.apply (.empty none) (.state rootId (some "closed") false)).IsEdited :=
    (IsEdited.empty none).edit_of_node? _ rfl (by decide +kernel)
  have validated : plainDoor.IsEdited := by
    refine .edit built .validate ?_
    rintro node ⟨⟩
  exact validated.edit_of_node? _ rfl (by decide +kernel)

/-- The door counts as validated and is sound, and yet it would be rejected. -/
theorem door_is_sound :
    door.IsEdited ∧ door.isValidated = true ∧ door.IsSound ∧
      ¬ ∃ accepted, door.validate = .ok accepted := by
  have validated : door.isValidated = true := by decide +kernel
  obtain ⟨sound, accepted⟩ := (validated_chart_is_sound isEdited_door).1 validated
  refine ⟨isEdited_door, validated, sound, fun isAccepted => ?_⟩
  have complete := accepted.1 isAccepted 1
    ⟨Nat.one_ne_zero, by decide +kernel⟩ (by decide +kernel) _ rfl
  exact absurd complete.service (by decide +kernel)

/-- A chart that counts as validated need not be accepted if it is validated as it stands. -/
theorem validated_chart_may_be_rejected :
    ¬ ∀ chart : Chart, chart.IsEdited → chart.isValidated = true →
      ∃ accepted, chart.validate = .ok accepted := by
  intro always
  obtain ⟨accepted, isAccepted⟩ := always door isEdited_door (by decide +kernel)
  have rejected : door.validate.isOk = false := by decide +kernel
  rw [isAccepted] at rejected
  cases rejected

end Chart

end Statechart
