import Statechart.Proofs.Chart.Acceptance
import Statechart.Proofs.Microstep.Deeds
import Statechart.Proofs.Microstep.Visits

/-!
# Following initial and default transitions

An expansion follows the initial transitions of composite states and the default transitions
of histories.  Their actions run when a state is entered, the composite state itself or the
owner of the history.  All composite states that the expansion comes to are entered, so the
actions of their initial transitions run once.  Those of a default transition run each time
that its history is come to if the owner is entered, and not at all if the owner stays.
-/

namespace Statechart

namespace Chart

variable {chart : Chart} {history : NodeMap (List NodeId)}

/-! ## Transitions of their own -/

/-- The nodes of an accepted chart refer to transitions of their own. -/
theorem isOwned_of_chartOf {definition : Definition}
    (done : Machine.chartOf definition = .ok chart) : chart.IsOwned := by
  unfold Machine.chartOf at done
  split at done
  · cases done
  · next isChart =>
      split at done
      · cases done
      · next isValid =>
          cases done
          have accepted := (isBuilt_ofDefinition isChart).isGrown.isAccepted_of_validate isValid
          exact accepted.isGrown.owned

theorem mem_references_of_followedBy {id : NodeId} {followed : TransitionId}
    (follows : chart.followedBy history id = some followed) :
    followed ∈ (chart.node id).initial.toList ++ (chart.node id).historyDefault.toList := by
  rw [followedBy] at follows
  cases kind : (chart.node id).kind with
  | root initial => simp [kind] at follows
  | parallel => simp [kind] at follows
  | state initial isFinal =>
      have isInitial : initial = some followed := by simp_all
      simp [Node.initial, kind, isInitial]
  | history sort default =>
      have isDefault : default = some followed := by
        simp only [kind] at follows
        split at follows
        · cases follows
        · exact follows
      simp [Node.historyDefault, kind, isDefault]

/-- What a visit follows starts at the node that is visited. -/
theorem IsOwned.source_of_followedBy (owned : chart.IsOwned) {id : NodeId}
    {followed : TransitionId} (follows : chart.followedBy history id = some followed) :
    (chart.transition followed).source = id :=
  (owned.own id followed (List.mem_append_left _ (mem_references_of_followedBy follows))).2

theorem IsOwned.followedBy_eq_some_iff (owned : chart.IsOwned) {id other : NodeId}
    {followed : TransitionId} (follows : chart.followedBy history id = some followed) :
    chart.followedBy history other = some followed ↔ other = id := by
  constructor
  · intro others
    rw [← owned.source_of_followedBy others, owned.source_of_followedBy follows]
  · rintro rfl
    exact follows

theorem IsOwned.defaultFor_eq_some_iff (owned : chart.IsOwned) {owner id other : NodeId}
    {followed : TransitionId} (follows : chart.followedBy history id = some followed) :
    chart.defaultFor history owner other = some followed ↔
      other = id ∧ (chart.node id).isHistory = true ∧ chart.anchor id = owner := by
  rw [defaultFor, Option.ite_none_right_eq_some, owned.followedBy_eq_some_iff follows, and_comm]
  exact and_congr_right fun same => same ▸ Iff.rfl

theorem isState_of_followedBy {id : NodeId} {followed : TransitionId}
    (follows : chart.followedBy history id = some followed)
    (notHistory : (chart.node id).isHistory = false) : (chart.node id).isState = true := by
  cases kind : (chart.node id).kind <;> simp_all [followedBy, Node.isState, Node.isHistory]

/-- What visits follow are no outgoing transitions. -/
theorem IsOwned.not_mem_transitions_of_followedBy (owned : chart.IsOwned) {id other : NodeId}
    {followed : TransitionId} (follows : chart.followedBy history id = some followed) :
    followed ∉ (chart.node other).transitions := by
  intro outgoing
  have isOther := (owned.own other followed (List.mem_append_right _ outgoing)).2
  rw [owned.source_of_followedBy follows] at isOther
  subst isOther
  exact (List.nodup_append.1 (owned.nodup id)).2.2 followed
    (mem_references_of_followedBy follows) followed outgoing rfl

/-! ## Visits of a microstep -/

/-- The nodes that the expansion comes to when transitions are taken. -/
def visitedBy (chart : Chart) (history : NodeMap (List NodeId)) (before : NodeSet)
    (transitions : List TransitionId) : List NodeId :=
  chart.visitsOf history (chart.residualOf before transitions) (chart.seedsOf before transitions)

namespace IsExecutable

variable (executable : chart.IsExecutable)
include executable

/-- What lies in scope leads to what lies in scope. -/
theorem isInScope_of_leadsOn (records : chart.RecordsAreValid history)
    {transitions : List TransitionId} {id next : NodeId}
    (inScope : chart.IsInScope transitions id) (leads : chart.LeadsOn history id next) :
    chart.IsInScope transitions next := by
  have tree := executable.tree
  obtain ⟨scope, isScope, below⟩ := inScope
  exact ⟨scope, isScope, tree.isDescendant_trans_isWithin
    (executable.isDescendant_of_mem_leadsTo records leads)
    (tree.isWithin_anchor_of_isDescendant below)⟩

section Visited

variable {status : Status} {transitions : List TransitionId} {resolution : Resolution}
  (parallels : chart.ParallelsHaveChildren) (regular : chart.IsRegular status)
  (active : (∃ leaf, leaf ∈ status.leaves) →
    ∀ id ∈ transitions, (chart.transition id).source ∈ chart.active status.leaves)
  (resolved : chart.resolve status.history status.leaves transitions = .ok resolution)
  {id : NodeId} (visited : id ∈ chart.visitedBy status.history status.leaves transitions)
include regular resolved visited

theorem isProper_of_visited : chart.IsProper id := by
  obtain ⟨after, expanded, -, -⟩ := resolve_eq_ok_iff.1 resolved
  refine forall_mem_visitsOf_of_regions (fun _ _ _ leads =>
    executable.isProper_of_leadsOn regular.records leads) ?_ ?_ expanded id visited
  · exact fun seed isSeed => executable.isProper_of_mem_openNodes (mem_seeds.1 isSeed).1
  · intro _ _ _ region isMissing
    obtain ⟨parallel, -, -, isChild, -⟩ := mem_missingRegions.1 isMissing
    have isParent := executable.tree.parent_of_mem_children isChild
    exact ⟨executable.tree.ne_root_of_parent isParent, lt_nodeCount_of_parent isParent⟩

include parallels

/-- What a visited node leads to is reached, so its anchor is active afterwards. -/
theorem anchor_mem_active_of_visited (notRoot : chart.anchor id ≠ rootId) :
    chart.anchor id ∈ chart.active resolution.after := by
  have isProper := executable.isProper_of_visited regular resolved visited
  obtain ⟨after, expanded, -, rfl⟩ := resolve_eq_ok_iff.1 resolved
  obtain ⟨⟨start, last, ends⟩, reaches⟩ := isExpanded_of_mem_visitsOf expanded id visited
  obtain ⟨leaf, enters⟩ := executable.exists_enters regular.records parallels isProper ends
  exact executable.tree.mem_active.2 ⟨notRoot, leaf, reaches leaf enters,
    executable.isWithin_anchor_of_enters regular.records enters⟩

/-- The anchor of a visited node is entered, unless it is the root or stays. -/
theorem anchor_of_visited :
    chart.anchor id ∈ resolution.entered ∨ chart.anchor id = rootId ∨
      chart.anchor id ∈ chart.active status.leaves ∧ ¬ chart.anchor id ∈ resolution.exited := by
  by_cases isRoot : chart.anchor id = rootId
  · exact .inr (.inl isRoot)
  · have isActive := executable.anchor_mem_active_of_visited parallels regular resolved visited
      isRoot
    by_cases stays : chart.anchor id ∈ chart.active status.leaves ∧
        ¬ chart.anchor id ∈ resolution.exited
    · exact .inr (.inr stays)
    · rw [not_and_or, Decidable.not_not] at stays
      exact .inl ((mem_entered_iff resolved).2 ⟨isActive, stays⟩)

include active

/-- All that is visited lies in scope. -/
theorem isInScope_of_visited (occupied : ∃ leaf, leaf ∈ status.leaves) :
    chart.IsInScope transitions id := by
  have legal := regular.legal occupied
  have sources := active occupied
  obtain ⟨after, expanded, -, -⟩ := resolve_eq_ok_iff.1 resolved
  refine forall_mem_visitsOf (fun _ _ =>
    executable.isInScope_of_leadsOn regular.records) (fun _ _ =>
      executable.isFramed_of_round legal sources regular.records) ?_ ?_ (fun _ =>
        executable.isFramed_of_seeds legal sources regular.records parallels) expanded id visited
  · exact fun _ _ framed _ _ =>
      executable.isInScope_of_mem_missingRegions legal sources framed
  · exact fun _ isSeed =>
      executable.isInScope_of_mem_openNodes legal sources (mem_seeds.1 isSeed).1

/-- A visited node is entered unless it is a history. -/
theorem mem_entered_of_visited (notHistory : (chart.node id).isHistory = false) :
    id ∈ resolution.entered := by
  have isProper := executable.isProper_of_visited regular resolved visited
  have isAnchor : chart.anchor id = id := by
    rw [anchor, notHistory]
    rfl
  have isActive : id ∈ chart.active resolution.after := by
    have notRoot : chart.anchor id ≠ rootId := by
      rw [isAnchor]
      exact isProper.1
    rw [← isAnchor]
    exact executable.anchor_mem_active_of_visited parallels regular resolved visited notRoot
  by_cases occupied : ∃ leaf, leaf ∈ status.leaves
  · have inScope := executable.isInScope_of_visited parallels regular active resolved visited
      occupied
    exact (executable.mem_entered_iff_isInScope (regular.legal occupied) (active occupied)
      regular.records parallels resolved).2 ⟨isActive, inScope⟩
  · refine (mem_entered_iff resolved).2 ⟨isActive, .inl fun before => occupied ?_⟩
    obtain ⟨-, leaf, isLeaf, -⟩ := executable.tree.mem_active.1 before
    exact ⟨leaf, isLeaf⟩

end Visited

end IsExecutable

/-! ## How often actions run -/

theorem count_flatMap_of_nodup {nodes : List NodeId} (distinct : nodes.Nodup)
    {parts : NodeId → List TransitionId} {id : TransitionId} {place : NodeId}
    (elsewhere : ∀ node, id ∈ parts node → node = place) :
    (nodes.flatMap parts).count id = if place ∈ nodes then (parts place).count id else 0 := by
  induction nodes with
  | nil => rfl
  | cons node rest ih =>
      obtain ⟨isNew, others⟩ := List.nodup_cons.1 distinct
      rw [List.flatMap_cons, List.count_append, ih others]
      by_cases same : node = place
      · subst same
        rw [if_neg isNew, if_pos List.mem_cons_self, Nat.add_zero]
      · have absent : (parts node).count id = 0 :=
          List.count_eq_zero_of_not_mem fun member => same (elsewhere node member)
        simp [absent, Ne.symm same]

section Counting

variable {before : NodeSet} {transitions : List TransitionId} {resolution : Resolution}
  (owned : chart.IsOwned)
  (resolved : chart.resolve history before transitions = .ok resolution)
include resolved

/-- At a state its initial transition is followed if the expansion has come to it, and the default
transitions of its histories with each visit. -/
theorem followedAt_eq (node : NodeId) :
    resolution.followedAt chart node =
      (if node ∈ chart.visitedBy history before transitions ∧ (chart.node node).isState = true then
        (chart.followedBy history node).toList else []) ++
      (chart.visitedBy history before transitions).filterMap (chart.defaultFor history node) := by
  obtain ⟨after, expanded, -, rfl⟩ := resolve_eq_ok_iff.1 resolved
  have isAfter := eq_foldl_of_expand expanded
  rw [Resolution.followedAt, resolutionOf, isAfter, historyDefaults_foldl]
  congr 1
  simp only [NodeSet.contains_iff, mem_defaultEntries_foldl, NodeSet.not_mem_empty, false_or]
  cases follows : chart.followedBy history node with
  | none => simp
  | some followed =>
      by_cases isState : (chart.node node).isState = true
      · simp [isState, initial_of_followedBy isState follows, visitedBy]
      · simp [isState]

include owned

/-- A transition is followed at the anchor of the node that it starts from. -/
theorem anchor_eq_of_mem_followedAt {id node : NodeId} {followed : TransitionId}
    (follows : chart.followedBy history id = some followed)
    (member : followed ∈ resolution.followedAt chart node) : node = chart.anchor id := by
  rw [followedAt_eq resolved] at member
  rcases List.mem_append.1 member with ofInitial | ofDefault
  · split at ofInitial
    · next isVisited =>
        obtain rfl := (owned.followedBy_eq_some_iff follows).1 (Option.mem_toList.1 ofInitial)
        exact (anchor_of_isState isVisited.2).symm
    · exact absurd ofInitial List.not_mem_nil
  · obtain ⟨other, -, isDefault⟩ := List.mem_filterMap.1 ofDefault
    exact ((owned.defaultFor_eq_some_iff follows).1 isDefault).2.2.symm

theorem count_followedAt {id : NodeId} {followed : TransitionId}
    (visited : id ∈ chart.visitedBy history before transitions)
    (follows : chart.followedBy history id = some followed) :
    (resolution.followedAt chart (chart.anchor id)).count followed =
      if (chart.node id).isHistory then
        (chart.visitedBy history before transitions).count id else 1 := by
  rw [followedAt_eq resolved, List.count_append, List.count_filterMap]
  cases isHistory : (chart.node id).isHistory with
  | false =>
      have isState := isState_of_followedBy follows isHistory
      rw [anchor_of_isState isState, if_pos ⟨visited, isState⟩, follows]
      have noDefaults : (chart.visitedBy history before transitions).countP
          (fun other => chart.defaultFor history id other == some followed) = 0 := by
        refine List.countP_eq_zero.2 fun other _ isDefault => ?_
        have ofHistory := (owned.defaultFor_eq_some_iff follows).1 (eq_of_beq isDefault)
        exact Bool.false_ne_true (isHistory.symm.trans ofHistory.2.1)
      rw [noDefaults]
      exact List.count_singleton_self
  | true =>
      have noInitial : followed ∉ (if chart.anchor id ∈ chart.visitedBy history before transitions ∧
          (chart.node (chart.anchor id)).isState = true then
            (chart.followedBy history (chart.anchor id)).toList else []) := by
        intro member
        split at member
        · next isVisited =>
            rw [(owned.followedBy_eq_some_iff follows).1 (Option.mem_toList.1 member)] at isVisited
            have notHistory := isHistory_of_isState isVisited.2
            exact Bool.false_ne_true (notHistory.symm.trans isHistory)
        · exact List.not_mem_nil member
      rw [List.count_eq_zero_of_not_mem noInitial, Nat.zero_add, if_pos rfl]
      refine List.countP_congr fun other _ => ?_
      rw [beq_iff_eq, beq_iff_eq, owned.defaultFor_eq_some_iff follows]
      exact and_iff_left ⟨isHistory, rfl⟩

theorem count_runs {id : NodeId} {followed : TransitionId}
    (visited : id ∈ chart.visitedBy history before transitions)
    (follows : chart.followedBy history id = some followed)
    (notTaken : followed ∉ transitions) :
    (resolution.runs chart transitions).count followed =
      if chart.anchor id ∈ resolution.entered then
        if (chart.node id).isHistory then
          (chart.visitedBy history before transitions).count id else 1
      else 0 := by
  have distinct : resolution.entered.Nodup := by
    obtain ⟨after, -, -, rfl⟩ := resolve_eq_ok_iff.1 resolved
    exact nodup_sortOrdered _ (NodeSet.nodup_toList _)
  rw [Resolution.runs_eq, List.count_append, List.count_eq_zero_of_not_mem notTaken, Nat.zero_add,
    count_flatMap_of_nodup distinct fun node =>
      anchor_eq_of_mem_followedAt owned resolved follows,
    count_followedAt owned resolved visited follows]

end Counting

end Chart

end Statechart
