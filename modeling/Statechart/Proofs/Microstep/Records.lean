import Statechart.Proofs.Configuration.Order
import Statechart.Proofs.Microstep.Execution
import Statechart.Proofs.Microstep.Expansion

/-!
# What histories record

When a state is exited, its histories record what was active in it: the leaves
below it or its active children.  The records stay valid: none is empty, and all
they name lies below the owner of the history.
-/

namespace Statechart

namespace World

theorem mem_recordOf_deep {chart : Chart} {leaves : NodeSet} {state node : NodeId} :
    node ∈ recordOf chart leaves state .deep ↔
      node ∈ leaves ∧ chart.isDescendant node state = true :=
  (Chart.mem_sortOrdered _).trans (List.mem_filter.trans (and_congr_left' NodeSet.mem_toList))

theorem mem_recordOf_shallow {chart : Chart} {leaves : NodeSet} {state node : NodeId} :
    node ∈ recordOf chart leaves state .shallow ↔
      node ∈ (chart.node state).children ∧ node ∈ chart.active leaves :=
  (Chart.mem_sortOrdered _).trans (List.mem_filter.trans (and_congr_right' NodeSet.contains_iff))

/-- Nothing is recorded but at histories. -/
theorem find?_recordsAfter_of_notHistory {chart : Chart} {node : NodeId}
    (notHistory : (chart.node node).isHistory = false) (status : Status)
    (resolution : Resolution) :
    (recordsAfter chart status resolution).find? node = status.history.find? node := by
  have records : ∀ state records history,
      (recordHistory chart status.leaves state records history).find? node =
        records.find? node := by
    intro state records history
    unfold recordHistory
    split
    · next kind default isKind =>
        apply NodeMap.find?_insert_of_ne
        rintro rfl
        simp [Node.isHistory, isKind] at notHistory
    · rfl
  refine List.foldlRecOn (motive := fun after => after.find? node = status.history.find? node)
    resolution.exited (recordHistories chart status.leaves) rfl fun earlier known state _ => ?_
  exact List.foldlRecOn (motive := fun after => after.find? node = status.history.find? node)
    (chart.node state).histories _ known fun middle known history _ =>
      (records state middle history).trans known

/-- A record depends on the leaves below the state only. -/
theorem recordOf_congr {chart : Chart} (tree : chart.IsTree) {state : NodeId}
    {first second : NodeSet}
    (same : ∀ leaf, chart.isDescendant leaf state = true → (leaf ∈ first ↔ leaf ∈ second))
    (kind : HistoryKind) :
    recordOf chart first state kind = recordOf chart second state kind := by
  cases kind with
  | deep =>
      have below : first.filter (chart.isDescendant · state) =
          second.filter (chart.isDescendant · state) := by
        ext leaf
        rw [NodeSet.mem_filter, NodeSet.mem_filter]
        exact and_congr_left (same leaf)
      exact congrArg (fun set => chart.inDocumentOrder set.toList) below
  | shallow =>
      refine congrArg chart.inDocumentOrder (List.filter_congr fun child isChild => ?_)
      have below := tree.isDescendant_of_parent (tree.parent_of_mem_children isChild)
      rw [Bool.eq_iff_iff, NodeSet.contains_iff, NodeSet.contains_iff, tree.mem_active,
        tree.mem_active]
      refine and_congr_right fun _ => exists_congr fun leaf => and_congr_left fun within => ?_
      exact same leaf (tree.isDescendant_of_isWithin_of_isDescendant within below)

section Recording

variable {chart : Chart} (tree : chart.IsTree) {history owner : NodeId} {kind : HistoryKind}
  {default : Option TransitionId} (isHistory : (chart.node history).kind = .history kind default)
  (isOwner : chart.parent history = some owner) {leaves : NodeSet}
include isHistory

theorem find?_recordHistory (state other : NodeId) (records : NodeMap (List NodeId)) :
    (recordHistory chart leaves state records other).find? history =
      if other == history then some (recordOf chart leaves state kind)
      else records.find? history := by
  by_cases same : other = history
  · subst same
    simp [recordHistory, isHistory, NodeMap.find?_insert_self]
  · rw [recordHistory, if_neg (by simpa using same)]
    split
    · exact NodeMap.find?_insert_of_ne records (Ne.symm same) _
    · rfl

include tree isOwner

theorem find?_recordHistories (records : NodeMap (List NodeId)) (state : NodeId) :
    (recordHistories chart leaves records state).find? history =
      if state == owner then some (recordOf chart leaves owner kind)
      else records.find? history := by
  rw [recordHistories, NodeMap.find?_foldl fun records other =>
    find?_recordHistory isHistory state other records]
  have isMember : history ∈ (chart.node state).histories ↔ owner = state := by
    rw [tree.mem_histories, isOwner, Option.some.injEq]
    exact and_iff_left (by simp [Node.isHistory, isHistory])
  have any : (chart.node state).histories.any (fun other => other == history) =
      (state == owner) := by
    rw [List.any_beq', Bool.eq_iff_iff, List.contains_iff_mem, isMember, beq_iff_eq, eq_comm]
  rw [any]
  by_cases same : state = owner
  · rw [same]
  · rw [if_neg (by simpa using same), if_neg (by simpa using same)]

/-- Where its owner is exited, a history records; otherwise it keeps its record. -/
theorem find?_recordsAfter (status : Status) (resolution : Resolution) :
    (recordsAfter chart status resolution).find? history =
      if owner ∈ resolution.exited then some (recordOf chart status.leaves owner kind)
      else status.history.find? history := by
  rw [recordsAfter, NodeMap.find?_foldl fun records state =>
    find?_recordHistories tree isHistory isOwner records state]
  simp [List.any_beq']

end Recording

variable {chart : Chart} {leaves : NodeSet} (executable : chart.IsExecutable)
  (atomic : ∀ leaf ∈ leaves, (chart.node leaf).isAtomic = true)
include executable atomic

/-- Below an active state with histories there is an active child, and a leaf. -/
theorem exists_active_below {state history : NodeId} (isActive : state ∈ chart.active leaves)
    (isHistory : history ∈ (chart.node state).histories) :
    ∃ leaf ∈ leaves, chart.isDescendant leaf state = true ∧
      ∃ child ∈ (chart.node state).children, child ∈ chart.active leaves := by
  have tree := executable.tree
  obtain ⟨-, leaf, isLeaf, within⟩ := tree.mem_active.1 isActive
  have below : chart.isDescendant leaf state = true := by
    apply (Chart.isWithin_iff.1 within).resolve_left
    rintro rfl
    rw [executable.histories_eq_nil leaf (atomic leaf isLeaf)] at isHistory
    cases isHistory
  obtain ⟨child, isParent, childWithin⟩ := tree.exists_child_above below
  have childActive : child ∈ chart.active leaves :=
    tree.mem_active.2 ⟨tree.ne_root_of_parent isParent, leaf, isLeaf, childWithin⟩
  exact ⟨leaf, isLeaf, below, child, (tree.mem_children state child).2
    ⟨isParent, (tree.isNode_of_mem_active atomic childActive).2.2⟩, childActive⟩

/-- A record is not empty and lies below the state. -/
theorem recordOf_isValid {state history : NodeId} (isActive : state ∈ chart.active leaves)
    (isHistory : history ∈ (chart.node state).histories) (kind : HistoryKind) :
    recordOf chart leaves state kind ≠ [] ∧
      ∀ node ∈ recordOf chart leaves state kind, chart.isDescendant node state = true := by
  obtain ⟨leaf, isLeaf, below, child, isChild, childActive⟩ :=
    exists_active_below executable atomic isActive isHistory
  cases kind with
  | deep =>
      exact ⟨List.ne_nil_of_mem (mem_recordOf_deep.2 ⟨isLeaf, below⟩),
        fun node member => (mem_recordOf_deep.1 member).2⟩
  | shallow =>
      refine ⟨List.ne_nil_of_mem (mem_recordOf_shallow.2 ⟨isChild, childActive⟩),
        fun node member => ?_⟩
      exact executable.tree.isDescendant_of_parent
        (executable.tree.parent_of_mem_children (mem_recordOf_shallow.1 member).1)

theorem recordsAreValid_recordHistory {records : NodeMap (List NodeId)}
    (valid : chart.RecordsAreValid records) {state history : NodeId}
    (isActive : state ∈ chart.active leaves)
    (isHistory : history ∈ (chart.node state).histories) :
    chart.RecordsAreValid (recordHistory chart leaves state records history) := by
  unfold recordHistory
  split
  · next kind _ _ =>
      intro id idIsHistory recorded found
      by_cases same : id = history
      · subst same
        rw [NodeMap.find?_insert_self] at found
        obtain rfl := Option.some.inj found
        obtain ⟨nonempty, below⟩ := recordOf_isValid executable atomic isActive isHistory kind
        refine ⟨nonempty, fun node member owner isOwner => ?_⟩
        rw [((executable.tree.mem_histories state id).1 isHistory).1] at isOwner
        exact Option.some.inj isOwner ▸ below node member
      · rw [NodeMap.find?_insert_of_ne _ same] at found
        exact valid id idIsHistory recorded found
  · exact valid

/-- Records stay valid when active states are exited. -/
theorem recordsAreValid_recordsAfter {status : Status} (leaves_eq : status.leaves = leaves)
    (valid : chart.RecordsAreValid status.history) {resolution : Resolution}
    (active : ∀ node ∈ resolution.exited, node ∈ chart.active leaves) :
    chart.RecordsAreValid (recordsAfter chart status resolution) := by
  unfold recordsAfter
  rw [leaves_eq]
  apply List.foldlRecOn _ _ valid
  intro records valid state exited
  apply List.foldlRecOn _ _ valid
  intro records valid history isHistory
  exact recordsAreValid_recordHistory executable atomic valid (active state exited) isHistory

end World

end Statechart
