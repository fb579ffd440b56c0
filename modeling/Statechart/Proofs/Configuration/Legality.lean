import Mathlib.Logic.ExistsUnique
import Statechart.Proofs.Configuration.Closure

/-!
# Legal configurations

What it means for a configuration to be legal, said of active nodes and not of
counts, and that the check for violations decides it.  A configuration can also
be judged by its leaves: they are atomic, every two of them part in a parallel,
and no region of an active parallel is missing.
-/

namespace Statechart

namespace Chart

variable {chart : Chart} {leaves : NodeSet}

/-- One top-level state is active, every active composite state has one active
child, every active parallel has all its children active, and every leaf is
atomic. -/
structure IsLegalConfiguration (chart : Chart) (leaves : NodeSet) : Prop where
  topLevel : ∃! child, child ∈ chart.root.children ∧ child ∈ chart.active leaves
  composite : ∀ id ∈ chart.active leaves, (chart.node id).isComposite = true →
    ∃! child, child ∈ (chart.node id).children ∧ child ∈ chart.active leaves
  parallel : ∀ id ∈ chart.active leaves, (chart.node id).isParallel = true →
    ∀ child ∈ (chart.node id).children, child ∈ chart.active leaves
  atomic : ∀ leaf ∈ leaves, (chart.node leaf).isAtomic = true

/-- A list without repeats has one element if its length is one. -/
theorem length_eq_one_iff_existsUnique {list : List NodeId} (distinct : list.Nodup) :
    list.length = 1 ↔ ∃! node, node ∈ list := by
  rw [List.length_eq_one_iff]
  constructor
  · rintro ⟨node, rfl⟩
    exact ⟨node, List.mem_singleton_self node, fun other => List.mem_singleton.1⟩
  · rintro ⟨node, member, unique⟩
    refine ⟨node, List.perm_singleton.1 ?_⟩
    apply (List.perm_ext_iff_of_nodup distinct (List.pairwise_singleton _ node)).2
    intro other
    rw [List.mem_singleton]
    exact ⟨unique other, fun same => same ▸ member⟩

theorem isState_of_isAtomic {node : Node} (isAtomic : node.isAtomic = true) :
    node.isState = true :=
  (Bool.and_eq_true_iff.1 isAtomic).1

namespace IsTree

variable (tree : chart.IsTree)
include tree

theorem isNode_of_isState {id : NodeId} (isState : (chart.node id).isState = true) :
    id ≠ rootId ∧ id < chart.nodeCount := by
  constructor
  · rintro rfl
    have isRoot := tree.isRoot_root
    cases kind : (chart.node rootId).kind <;> simp_all [Node.isRoot, Node.isState]
  · apply Nat.lt_of_not_le
    intro outside
    rw [node_of_le outside] at isState
    cases isState

/-- A node below another one is below no history. -/
theorem isHistory_of_isDescendant {node ancestor : NodeId}
    (below : chart.isDescendant node ancestor = true) :
    (chart.node ancestor).isHistory = false := by
  obtain ⟨child, isChild, -⟩ := tree.exists_child_above below
  exact tree.not_isHistory_parent child ancestor isChild

/-- No node is below an atomic state that has no histories below it. -/
theorem not_isDescendant_of_isAtomic {node ancestor : NodeId}
    (isAtomic : (chart.node ancestor).isAtomic = true)
    (noHistories : (chart.node ancestor).histories = []) :
    ¬ chart.isDescendant node ancestor = true := by
  intro below
  obtain ⟨child, isChild, -⟩ := tree.exists_child_above below
  have noChildren : (chart.node ancestor).children = [] := by
    simpa using (Bool.and_eq_true_iff.1 isAtomic).2
  cases isHistory : (chart.node child).isHistory with
  | true =>
      have member := (tree.mem_histories ancestor child).2 ⟨isChild, isHistory⟩
      rw [noHistories] at member
      exact List.not_mem_nil member
  | false =>
      have member := (tree.mem_children ancestor child).2 ⟨isChild, isHistory⟩
      rw [noChildren] at member
      exact List.not_mem_nil member

/-! ## Active nodes -/

section Atomic

variable (atomic : ∀ leaf ∈ leaves, (chart.node leaf).isAtomic = true)
include atomic

/-- Active nodes are proper nodes, and no histories. -/
theorem isNode_of_mem_active {node : NodeId} (isActive : node ∈ chart.active leaves) :
    node ≠ rootId ∧ node < chart.nodeCount ∧ (chart.node node).isHistory = false := by
  obtain ⟨notRoot, leaf, isLeaf, within⟩ := tree.mem_active.1 isActive
  have isState := isState_of_isAtomic (atomic leaf isLeaf)
  have inside := (tree.isNode_of_isState isState).2
  refine ⟨notRoot, Nat.lt_of_le_of_lt (tree.le_of_isWithin within) inside, ?_⟩
  rcases isWithin_iff.1 within with same | below
  · subst same
    cases kind : (chart.node leaf).kind <;> simp_all [Node.isHistory, Node.isState]
  · exact tree.isHistory_of_isDescendant below

theorem activeChildCount_eq (parent : NodeId) :
    chart.activeChildCount (chart.active leaves) parent =
      ((chart.node parent).children.filter (chart.active leaves).contains).length := by
  rw [activeChildCount, List.countP_eq_length_filter]
  apply List.Perm.length_eq
  refine (List.perm_ext_iff_of_nodup ((NodeSet.nodup_toList _).filter _)
    ((tree.nodup_children parent).filter _)).2 fun node => ?_
  rw [List.mem_filter, List.mem_filter, NodeSet.mem_toList, NodeSet.contains_iff,
    tree.mem_children, beq_iff_eq]
  constructor
  · rintro ⟨isActive, isParent⟩
    exact ⟨⟨isParent, (tree.isNode_of_mem_active atomic isActive).2.2⟩, isActive⟩
  · rintro ⟨⟨isParent, -⟩, isActive⟩
    exact ⟨isActive, isParent⟩

/-- What the rules ask of the children of a node. -/
theorem childViolation?_eq_none_iff {id : NodeId} :
    chart.childViolation? (chart.active leaves) id = none ↔
      (((chart.node id).isRoot || (chart.node id).isComposite) = true →
        ∃! child, child ∈ (chart.node id).children ∧ child ∈ chart.active leaves) ∧
      ((chart.node id).isParallel = true →
        ∀ child ∈ (chart.node id).children, child ∈ chart.active leaves) := by
  have isOne : chart.activeChildCount (chart.active leaves) id = 1 ↔
      ∃! child, child ∈ (chart.node id).children ∧ child ∈ chart.active leaves := by
    rw [tree.activeChildCount_eq atomic,
      length_eq_one_iff_existsUnique ((tree.nodup_children id).filter _)]
    simp only [List.mem_filter, NodeSet.contains_iff]
  have areAll : chart.activeChildCount (chart.active leaves) id =
      (chart.node id).children.length ↔
      ∀ child ∈ (chart.node id).children, child ∈ chart.active leaves := by
    rw [tree.activeChildCount_eq atomic, List.length_filter_eq_length_iff]
    simp only [NodeSet.contains_iff]
  rw [childViolation?]
  cases kind : (chart.node id).kind with
  | root initial => simp [Node.isRoot, Node.isParallel, kind, isOne]
  | state initial isFinal =>
      cases childless : (chart.node id).children.isEmpty <;>
        simp [Node.isRoot, Node.isComposite, Node.isState, Node.isParallel, kind, childless, isOne]
  | parallel =>
      simp [Node.isRoot, Node.isComposite, Node.isState, Node.isParallel, kind, areAll]
  | history sort default =>
      simp [Node.isRoot, Node.isComposite, Node.isState, Node.isParallel, kind]

end Atomic

/-- A configuration is legal if it breaks no rule. -/
theorem violations_eq_nil_iff :
    chart.violations leaves = [] ↔ chart.IsLegalConfiguration leaves := by
  have ofLeaves : leaves.toList.filter (fun leaf => !(chart.node leaf).isAtomic) = [] ↔
      ∀ leaf ∈ leaves, (chart.node leaf).isAtomic = true := by
    simp [List.filter_eq_nil_iff, NodeSet.mem_toList]
  rw [violations, List.append_eq_nil_iff, List.map_eq_nil_iff, ofLeaves,
    List.filterMap_eq_nil_iff]
  simp only [Option.map_eq_none_iff]
  constructor
  · rintro ⟨atomic, obeyed⟩
    have rules : ∀ id ∈ rootId :: (chart.active leaves).toList, _ := fun id member =>
      (tree.childViolation?_eq_none_iff atomic).1 (obeyed id member)
    refine ⟨(rules rootId List.mem_cons_self).1 (by simp [tree.isRoot_root]), ?_, ?_, atomic⟩
    · intro id isActive isComposite
      exact (rules id (List.mem_cons_of_mem _ isActive)).1 (by simp [isComposite])
    · exact fun id isActive => (rules id (List.mem_cons_of_mem _ isActive)).2
  · intro legal
    refine ⟨legal.atomic, fun id member => ?_⟩
    refine (tree.childViolation?_eq_none_iff legal.atomic).2 ?_
    rcases List.mem_cons.1 member with isRoot | isActive
    · subst isRoot
      refine ⟨fun _ => legal.topLevel, fun isParallel => ?_⟩
      have isRoot := tree.isRoot_root
      cases kind : (chart.node rootId).kind <;> simp_all [Node.isRoot, Node.isParallel]
    · have isNode := tree.isNode_of_mem_active legal.atomic isActive
      refine ⟨fun parentlike => ?_, legal.parallel id isActive⟩
      rw [tree.not_isRoot id isNode.1 isNode.2.1, Bool.false_or] at parentlike
      exact legal.composite id isActive parentlike

end IsTree

/-! ## Compatible nodes -/

/-- Two nodes may be active together if they part in a parallel, if at all. -/
def AreCompatible (chart : Chart) (a b : NodeId) : Prop :=
  ∀ meeting, chart.PartAt meeting a b → (chart.node meeting).isParallel = true

theorem AreCompatible.symm {a b : NodeId} (compatible : chart.AreCompatible a b) :
    chart.AreCompatible b a :=
  fun meeting parted => compatible meeting parted.symm

namespace IsTree

variable (tree : chart.IsTree)
include tree

theorem areCompatible_of_isWithin {a b : NodeId} (within : chart.isWithin a b = true) :
    chart.AreCompatible a b :=
  fun _ parted => absurd within (tree.not_isWithin_of_partAt parted)

theorem areCompatible_of_partAt {meeting a b : NodeId} (parted : chart.PartAt meeting a b)
    (isParallel : (chart.node meeting).isParallel = true) : chart.AreCompatible a b :=
  fun _ other => tree.partAt_unique parted other ▸ isParallel

/-- Nodes within compatible nodes that are not within each other are compatible. -/
theorem areCompatible_lower {a b lowA lowB : NodeId} (compatible : chart.AreCompatible a b)
    (insideA : a < chart.nodeCount) (insideB : b < chart.nodeCount)
    (notAB : ¬ chart.isWithin a b = true) (notBA : ¬ chart.isWithin b a = true)
    (withinA : chart.isWithin lowA a = true) (withinB : chart.isWithin lowB b = true) :
    chart.AreCompatible lowA lowB := by
  obtain ⟨meeting, parted⟩ := tree.exists_partAt insideA insideB notAB notBA
  exact tree.areCompatible_of_partAt (tree.partAt_lower parted withinA withinB)
    (compatible meeting parted)

/-- Nodes are compatible if they are nested or orthogonal. -/
theorem areCompatible_iff {a b : NodeId} (insideA : a < chart.nodeCount)
    (insideB : b < chart.nodeCount) :
    chart.AreCompatible a b ↔ chart.isWithin a b = true ∨ chart.isWithin b a = true ∨
      chart.areOrthogonal a b = true := by
  rw [tree.areOrthogonal_iff insideA insideB]
  constructor
  · intro compatible
    by_cases notAB : chart.isWithin a b = true
    · exact .inl notAB
    · by_cases notBA : chart.isWithin b a = true
      · exact .inr (.inl notBA)
      · obtain ⟨meeting, parted⟩ := tree.exists_partAt insideA insideB notAB notBA
        exact .inr (.inr ⟨meeting, parted, compatible meeting parted⟩)
  · rintro (within | within | ⟨meeting, parted, isParallel⟩)
    · exact tree.areCompatible_of_isWithin within
    · exact (tree.areCompatible_of_isWithin within).symm
    · exact tree.areCompatible_of_partAt parted isParallel

end IsTree

/-! ## Legality by leaves -/

theorem mem_active_of_mem (tree : chart.IsTree)
    (atomic : ∀ leaf ∈ leaves, (chart.node leaf).isAtomic = true) {leaf : NodeId}
    (isLeaf : leaf ∈ leaves) : leaf ∈ chart.active leaves :=
  tree.mem_active.2 ⟨(tree.isNode_of_isState (isState_of_isAtomic (atomic leaf isLeaf))).1,
    leaf, isLeaf, isWithin_refl leaf⟩

namespace IsLegalConfiguration

variable (legal : chart.IsLegalConfiguration leaves) (tree : chart.IsTree)
include legal tree

theorem exists_mem : ∃ leaf, leaf ∈ leaves := by
  obtain ⟨child, ⟨-, isActive⟩, -⟩ := legal.topLevel
  obtain ⟨-, leaf, isLeaf, -⟩ := tree.mem_active.1 isActive
  exact ⟨leaf, isLeaf⟩

/-- Active nodes part in parallels only. -/
theorem areCompatible {a b : NodeId} (activeA : a ∈ chart.active leaves)
    (activeB : b ∈ chart.active leaves) : chart.AreCompatible a b := by
  rintro meeting ⟨left, right, different, isLeft, isRight, leftward, rightward⟩
  have isChild : ∀ {node child : NodeId}, node ∈ chart.active leaves →
      chart.parent child = some meeting → chart.isWithin node child = true →
      child ∈ (chart.node meeting).children ∧ child ∈ chart.active leaves := by
    intro node child isActive isParent within
    obtain ⟨-, leaf, isLeaf, below⟩ := tree.mem_active.1 isActive
    have childActive : child ∈ chart.active leaves := tree.mem_active.2
      ⟨tree.ne_root_of_parent isParent, leaf, isLeaf, tree.isWithin_trans below within⟩
    exact ⟨(tree.mem_children meeting child).2
      ⟨isParent, (tree.isNode_of_mem_active legal.atomic childActive).2.2⟩, childActive⟩
  have leftChild := isChild activeA isLeft leftward
  have rightChild := isChild activeB isRight rightward
  by_cases isRoot : meeting = rootId
  · subst isRoot
    exact absurd (legal.topLevel.unique leftChild rightChild) different
  · have isActive : meeting ∈ chart.active leaves :=
      (tree.isUpward_active leaves).mem_of_isDescendant left meeting leftChild.2
        (tree.isDescendant_of_parent isLeft) isRoot
    have isNode := tree.isNode_of_mem_active legal.atomic isActive
    have notRoot := tree.not_isRoot meeting isNode.1 isNode.2.1
    have notComposite : ¬ (chart.node meeting).isComposite = true := fun isComposite =>
      different ((legal.composite meeting isActive isComposite).unique leftChild rightChild)
    have parented : (chart.node meeting).children ≠ [] := List.ne_nil_of_mem leftChild.1
    cases kind : (chart.node meeting).kind <;>
      simp_all [Node.isRoot, Node.isHistory, Node.isComposite, Node.isState, Node.isParallel]

/-- Of the children of a state that is no parallel one is active. -/
theorem eq_of_siblings {state first second : NodeId}
    (notParallel : (chart.node state).isParallel = false)
    (firstActive : first ∈ chart.active leaves) (secondActive : second ∈ chart.active leaves)
    (isParent : chart.parent first = some state) (isOther : chart.parent second = some state) :
    first = second := by
  apply Decidable.byContradiction
  intro different
  have isParallel := legal.areCompatible tree firstActive secondActive state
    ⟨first, second, different, isParent, isOther, isWithin_refl first, isWithin_refl second⟩
  exact absurd (notParallel.symm.trans isParallel) Bool.false_ne_true

end IsLegalConfiguration

/-- A configuration is legal if it has leaves, all of them atomic and compatible,
and no region of an active parallel is missing. -/
theorem isLegalConfiguration_of_leaves (tree : chart.IsTree) (nonempty : ∃ leaf, leaf ∈ leaves)
    (atomic : ∀ leaf ∈ leaves, (chart.node leaf).isAtomic = true)
    (compatible : ∀ a ∈ leaves, ∀ b ∈ leaves, chart.AreCompatible a b)
    (parallel : ∀ id ∈ chart.active leaves, (chart.node id).isParallel = true →
      ∀ child ∈ (chart.node id).children, child ∈ chart.active leaves) :
    chart.IsLegalConfiguration leaves := by
  have oneChild : ∀ id, (chart.node id).isParallel = false →
      (∃ leaf ∈ leaves, chart.isDescendant leaf id = true) →
      ∃! child, child ∈ (chart.node id).children ∧ child ∈ chart.active leaves := by
    rintro id notParallel ⟨leaf, isLeaf, below⟩
    obtain ⟨child, isParent, within⟩ := tree.exists_child_above below
    have isActive : child ∈ chart.active leaves :=
      tree.mem_active.2 ⟨tree.ne_root_of_parent isParent, leaf, isLeaf, within⟩
    have isChild := (tree.mem_children id child).2
      ⟨isParent, (tree.isNode_of_mem_active atomic isActive).2.2⟩
    refine ⟨child, ⟨isChild, isActive⟩, fun other ⟨isOther, otherActive⟩ => ?_⟩
    obtain ⟨-, otherLeaf, isOtherLeaf, otherWithin⟩ := tree.mem_active.1 otherActive
    apply Decidable.byContradiction
    intro different
    have parted : chart.PartAt id otherLeaf leaf :=
      ⟨other, child, different, tree.parent_of_mem_children isOther, isParent, otherWithin, within⟩
    have isParallel := compatible otherLeaf isOtherLeaf leaf isLeaf id parted
    exact absurd (notParallel ▸ isParallel) Bool.false_ne_true
  refine ⟨?_, ?_, parallel, atomic⟩
  · obtain ⟨leaf, isLeaf⟩ := nonempty
    have isNode := tree.isNode_of_isState (isState_of_isAtomic (atomic leaf isLeaf))
    refine oneChild rootId ?_ ⟨leaf, isLeaf, tree.isDescendant_root isNode.1 isNode.2⟩
    have isRoot := tree.isRoot_root
    cases kind : (chart.node rootId).kind <;> simp_all [Node.isRoot, Node.isParallel]
  · intro id isActive isComposite
    obtain ⟨isState, hasChildren⟩ := Bool.and_eq_true_iff.1 isComposite
    obtain ⟨-, leaf, isLeaf, within⟩ := tree.mem_active.1 isActive
    refine oneChild id ?_ ⟨leaf, isLeaf, (isWithin_iff.1 within).resolve_left ?_⟩
    · cases kind : (chart.node id).kind <;> simp_all [Node.isState, Node.isParallel]
    · rintro rfl
      have isAtomic := atomic leaf isLeaf
      simp_all [Node.isAtomic]

end Chart

end Statechart
