import Statechart.Chart.Basic

/-!
# The tree of a chart

Whatever is done to a chart after its nodes have been added leaves the tree
alone: parents, children, histories, depths and the kinds of nodes.  This file
says what it means for these to form a tree, and which changes to single nodes
and transitions keep it.
-/

namespace Statechart

/-- A kind of node without the transition that belongs to it. -/
def NodeKind.bare : NodeKind → NodeKind
  | .root _ => .root none
  | .state _ isFinal => .state none isFinal
  | .parallel => .parallel
  | .history kind _ => .history kind none

/-- What a node says about the tree. -/
structure Node.Position where
  kind : NodeKind
  parent : Option NodeId
  children : List NodeId
  histories : List NodeId
  depth : Nat

/-- The position of a node in the tree. -/
def Node.position (node : Node) : Node.Position :=
  ⟨node.kind.bare, node.parent, node.children, node.histories, node.depth⟩

/-- The position of a node tells what kind of node it is. -/
theorem Node.kinds_of_position {first second : Node} (same : first.position = second.position) :
    first.isRoot = second.isRoot ∧ first.isState = second.isState ∧
      first.isParallel = second.isParallel ∧ first.isHistory = second.isHistory := by
  have kinds : first.kind.bare = second.kind.bare := congrArg Position.kind same
  unfold isRoot isState isParallel isHistory
  cases firstKind : first.kind <;> cases secondKind : second.kind <;>
    simp_all [NodeKind.bare]

/-- What may leave out an initial transition may have one. -/
theorem Node.isRoot_or_isState {node : Node}
    (mayLack : (node.isRoot || node.isComposite) = true) :
    (node.isRoot || node.isState) = true := by
  rcases Bool.or_eq_true_iff.1 mayLack with isRoot | isComposite
  · simp [isRoot]
  · simp [(Bool.and_eq_true_iff.1 isComposite).1]

namespace Chart

variable {chart before after : Chart}

/-! ## Changes to single nodes and transitions -/

theorem node_congr (nodes : after.nodes = before.nodes) (id : NodeId) :
    after.node id = before.node id := by
  rw [node, node, nodes]

theorem nodes_eq_of_node_eq (count : after.nodeCount = before.nodeCount)
    (nodes : ∀ id, after.node id = before.node id) : after.nodes = before.nodes := by
  refine Array.ext count fun id inside present => ?_
  have same := nodes id
  simpa [node, inside, present] using same

theorem node_of_le {id : NodeId} (outside : chart.nodeCount ≤ id) : chart.node id = default := by
  simp [node, Array.getElem?_eq_none outside]

@[simp]
theorem nodeCount_modifyNode (id : NodeId) (change : Node → Node) :
    (chart.modifyNode id change).nodeCount = chart.nodeCount := by
  simp [modifyNode, nodeCount]

theorem node_modifyNode_self {id : NodeId} (inside : id < chart.nodeCount)
    (change : Node → Node) : (chart.modifyNode id change).node id = change (chart.node id) := by
  have bound : id < chart.nodes.size := inside
  simp [modifyNode, node, Array.getElem_modify, bound]

theorem node_modifyNode_of_ne {id other : NodeId} (different : other ≠ id)
    (change : Node → Node) : (chart.modifyNode id change).node other = chart.node other := by
  simp [modifyNode, node, Array.getElem?_modify, Ne.symm different]

/-- What a change to a node keeps of every node stays as it is. -/
theorem node_modifyNode_keeps {Part : Type} (part : Node → Part) {change : Node → Node}
    (keeps : ∀ node, part (change node) = part node) (id other : NodeId) :
    part ((chart.modifyNode id change).node other) = part (chart.node other) := by
  by_cases same : other = id
  · subst same
    by_cases inside : other < chart.nodeCount
    · rw [node_modifyNode_self inside, keeps]
    · have outside : chart.nodeCount ≤ other := Nat.le_of_not_lt inside
      rw [node_of_le outside, node_of_le (by simpa using outside)]
  · rw [node_modifyNode_of_ne same]

theorem modifyNode_eq_self {id : NodeId} {change : Node → Node}
    (same : change (chart.node id) = chart.node id) : chart.modifyNode id change = chart := by
  have nodes : chart.nodes.modify id change = chart.nodes := by
    refine Array.ext (by simp) fun index _ inside => ?_
    rw [Array.getElem_modify]
    split
    · next isIndex =>
        subst isIndex
        simpa [node, inside] using same
    · rfl
  rw [modifyNode, nodes]

theorem transition_of_le {id : TransitionId} (outside : chart.transitionCount ≤ id) :
    chart.transition id = default := by
  simp [transition, Array.getElem?_eq_none outside]

@[simp]
theorem transitionCount_modifyTransition (id : TransitionId) (change : Transition → Transition) :
    (chart.modifyTransition id change).transitionCount = chart.transitionCount := by
  simp [modifyTransition, transitionCount]

theorem transition_modifyTransition_self {id : TransitionId}
    (inside : id < chart.transitionCount) (change : Transition → Transition) :
    (chart.modifyTransition id change).transition id = change (chart.transition id) := by
  have bound : id < chart.transitions.size := inside
  simp [modifyTransition, transition, Array.getElem_modify, bound]

theorem transition_modifyTransition_of_ne {id other : TransitionId} (different : other ≠ id)
    (change : Transition → Transition) :
    (chart.modifyTransition id change).transition other = chart.transition other := by
  simp [modifyTransition, transition, Array.getElem?_modify, Ne.symm different]

/-- What a change to a transition keeps of every transition stays as it is. -/
theorem transition_modifyTransition_keeps {Part : Type} (part : Transition → Part)
    {change : Transition → Transition}
    (keeps : ∀ transition, part (change transition) = part transition)
    (id other : TransitionId) :
    part ((chart.modifyTransition id change).transition other) =
      part (chart.transition other) := by
  by_cases same : other = id
  · subst same
    by_cases inside : other < chart.transitionCount
    · rw [transition_modifyTransition_self inside, keeps]
    · have outside : chart.transitionCount ≤ other := Nat.le_of_not_lt inside
      rw [transition_of_le outside, transition_of_le (by simpa using outside)]
  · rw [transition_modifyTransition_of_ne same]

theorem modifyTransition_eq_self {id : TransitionId} {change : Transition → Transition}
    (same : change (chart.transition id) = chart.transition id) :
    chart.modifyTransition id change = chart := by
  have transitions : chart.transitions.modify id change = chart.transitions := by
    refine Array.ext (by simp) fun index _ inside => ?_
    rw [Array.getElem_modify]
    split
    · next isIndex =>
        subst isIndex
        simpa [transition, inside] using same
    · rfl
  rw [modifyTransition, transitions]

/-! ## Trees -/

/-- The nodes of a chart hang together: node 0 is the root, every other node has a parent
before it, and children, histories and depths say what the parents say. -/
structure IsPlanted (chart : Chart) : Prop where
  nonempty : rootId < chart.nodeCount
  isRoot_root : (chart.node rootId).isRoot = true
  parent_root : chart.parent rootId = none
  exists_parent : ∀ id, id ≠ rootId → id < chart.nodeCount →
    ∃ parent, chart.parent id = some parent ∧ parent < id
  not_isRoot : ∀ id, id ≠ rootId → id < chart.nodeCount → (chart.node id).isRoot = false
  mem_children : ∀ parent id, id ∈ (chart.node parent).children ↔
    chart.parent id = some parent ∧ (chart.node id).isHistory = false
  mem_histories : ∀ parent id, id ∈ (chart.node parent).histories ↔
    chart.parent id = some parent ∧ (chart.node id).isHistory = true
  increasing_children : ∀ id, (chart.node id).children.Pairwise (· < ·)
  increasing_histories : ∀ id, (chart.node id).histories.Pairwise (· < ·)
  depth_eq : ∀ id parent, chart.parent id = some parent →
    (chart.node id).depth = (chart.node parent).depth + 1

/-- The nodes of a chart form a tree: they hang together, and no history has members. -/
structure IsTree (chart : Chart) : Prop extends IsPlanted chart where
  not_isHistory_parent : ∀ id parent, chart.parent id = some parent →
    (chart.node parent).isHistory = false

/-- Two charts have the same tree. -/
structure SameTree (before after : Chart) : Prop where
  nodeCount_eq : after.nodeCount = before.nodeCount
  position_eq : ∀ id, (after.node id).position = (before.node id).position

namespace SameTree

theorem refl (chart : Chart) : SameTree chart chart :=
  ⟨rfl, fun _ => rfl⟩

theorem of_nodes (same : after.nodes = before.nodes) : SameTree before after := by
  refine ⟨congrArg Array.size same, fun id => ?_⟩
  rw [node_congr same]

theorem trans {first second third : Chart} (left : SameTree first second)
    (right : SameTree second third) : SameTree first third :=
  ⟨right.nodeCount_eq.trans left.nodeCount_eq,
    fun id => (right.position_eq id).trans (left.position_eq id)⟩

theorem symm (same : SameTree before after) : SameTree after before :=
  ⟨same.nodeCount_eq.symm, fun id => (same.position_eq id).symm⟩

theorem parent_eq (same : SameTree before after) (id : NodeId) :
    after.parent id = before.parent id :=
  congrArg Node.Position.parent (same.position_eq id)

theorem children_eq (same : SameTree before after) (id : NodeId) :
    (after.node id).children = (before.node id).children :=
  congrArg Node.Position.children (same.position_eq id)

theorem histories_eq (same : SameTree before after) (id : NodeId) :
    (after.node id).histories = (before.node id).histories :=
  congrArg Node.Position.histories (same.position_eq id)

theorem depth_eq (same : SameTree before after) (id : NodeId) :
    (after.node id).depth = (before.node id).depth :=
  congrArg Node.Position.depth (same.position_eq id)

theorem isHistory_eq (same : SameTree before after) (id : NodeId) :
    (after.node id).isHistory = (before.node id).isHistory :=
  (Node.kinds_of_position (same.position_eq id)).2.2.2

theorem isRoot_eq (same : SameTree before after) (id : NodeId) :
    (after.node id).isRoot = (before.node id).isRoot :=
  (Node.kinds_of_position (same.position_eq id)).1

theorem isState_eq (same : SameTree before after) (id : NodeId) :
    (after.node id).isState = (before.node id).isState :=
  (Node.kinds_of_position (same.position_eq id)).2.1

theorem isParallel_eq (same : SameTree before after) (id : NodeId) :
    (after.node id).isParallel = (before.node id).isParallel :=
  (Node.kinds_of_position (same.position_eq id)).2.2.1

theorem isAtomic_eq (same : SameTree before after) (id : NodeId) :
    (after.node id).isAtomic = (before.node id).isAtomic := by
  rw [Node.isAtomic, Node.isAtomic, same.isState_eq, same.children_eq]

theorem isComposite_eq (same : SameTree before after) (id : NodeId) :
    (after.node id).isComposite = (before.node id).isComposite := by
  rw [Node.isComposite, Node.isComposite, same.isState_eq, same.children_eq]

theorem isPlanted (same : SameTree before after) (tree : before.IsPlanted) :
    after.IsPlanted where
  nonempty := same.nodeCount_eq ▸ tree.nonempty
  isRoot_root := (same.isRoot_eq rootId).trans tree.isRoot_root
  parent_root := (same.parent_eq rootId).trans tree.parent_root
  exists_parent := by
    intro id notRoot inside
    rw [same.parent_eq]
    exact tree.exists_parent id notRoot (same.nodeCount_eq ▸ inside)
  not_isRoot := by
    intro id notRoot inside
    rw [same.isRoot_eq]
    exact tree.not_isRoot id notRoot (same.nodeCount_eq ▸ inside)
  mem_children := by
    intro parent id
    rw [same.children_eq, same.parent_eq, same.isHistory_eq]
    exact tree.mem_children parent id
  mem_histories := by
    intro parent id
    rw [same.histories_eq, same.parent_eq, same.isHistory_eq]
    exact tree.mem_histories parent id
  increasing_children := by
    intro id
    rw [same.children_eq]
    exact tree.increasing_children id
  increasing_histories := by
    intro id
    rw [same.histories_eq]
    exact tree.increasing_histories id
  depth_eq := by
    intro id parent isParent
    rw [same.depth_eq, same.depth_eq]
    exact tree.depth_eq id parent (same.parent_eq id ▸ isParent)

theorem isTree (same : SameTree before after) (tree : before.IsTree) : after.IsTree where
  toIsPlanted := same.isPlanted tree.toIsPlanted
  not_isHistory_parent := by
    intro id parent isParent
    rw [same.isHistory_eq]
    exact tree.not_isHistory_parent id parent (same.parent_eq id ▸ isParent)

theorem modifyNode {change : Node → Node}
    (keeps : ∀ node, (change node).position = node.position) (id : NodeId) :
    SameTree chart (chart.modifyNode id change) :=
  ⟨nodeCount_modifyNode id change, node_modifyNode_keeps Node.position keeps id⟩

end SameTree

theorem lt_nodeCount_of_parent {id parent : NodeId} (isParent : chart.parent id = some parent) :
    id < chart.nodeCount := by
  apply Nat.lt_of_not_le
  intro outside
  rw [Chart.parent, node_of_le outside] at isParent
  cases isParent

theorem IsTree.of_nodes (tree : before.IsTree) (same : after.nodes = before.nodes) :
    after.IsTree :=
  (SameTree.of_nodes same).isTree tree

theorem IsTree.modifyNode (tree : chart.IsTree) {change : Node → Node}
    (keeps : ∀ node, (change node).position = node.position) (id : NodeId) :
    (chart.modifyNode id change).IsTree :=
  (SameTree.modifyNode keeps id).isTree tree

/-- A node other than the root. -/
def IsProper (chart : Chart) (id : NodeId) : Prop :=
  id ≠ rootId ∧ id < chart.nodeCount

theorem SameTree.isProper_iff (same : SameTree before after) {id : NodeId} :
    after.IsProper id ↔ before.IsProper id := by
  rw [IsProper, IsProper, same.nodeCount_eq]

theorem mem_drop_range {place count : Nat} :
    place ∈ (List.range count).drop 1 ↔ 1 ≤ place ∧ place < count := by
  rw [List.range_eq_range', List.drop_range', List.mem_range'_1]
  omega

/-- All nodes after the first are all nodes but the root. -/
theorem mem_drop_nodeIds {id : NodeId} : id ∈ chart.nodeIds.drop 1 ↔ chart.IsProper id :=
  mem_drop_range.trans (and_congr_left fun _ => Nat.one_le_iff_ne_zero)

namespace IsPlanted

variable (tree : chart.IsPlanted)
include tree

theorem ne_root_of_parent {id parent : NodeId} (isParent : chart.parent id = some parent) :
    id ≠ rootId := by
  rintro rfl
  rw [tree.parent_root] at isParent
  cases isParent

theorem parent_lt {id parent : NodeId} (isParent : chart.parent id = some parent) :
    parent < id := by
  obtain ⟨other, isOther, below⟩ := tree.exists_parent id (tree.ne_root_of_parent isParent)
    (lt_nodeCount_of_parent isParent)
  rw [isParent] at isOther
  exact Option.some.inj isOther ▸ below

theorem parent_lt_nodeCount {id parent : NodeId} (isParent : chart.parent id = some parent) :
    parent < chart.nodeCount :=
  Nat.lt_trans (tree.parent_lt isParent) (lt_nodeCount_of_parent isParent)

theorem parent_of_mem_children {parent id : NodeId} (child : id ∈ (chart.node parent).children) :
    chart.parent id = some parent :=
  ((tree.mem_children parent id).1 child).1

theorem isProper_of_not_isRoot {node : NodeId} (notRoot : (chart.node node).isRoot = false) :
    chart.IsProper node := by
  constructor
  · rintro rfl
    exact absurd (notRoot.symm.trans tree.isRoot_root) Bool.false_ne_true
  · apply Nat.lt_of_not_le
    intro outside
    rw [node_of_le outside] at notRoot
    cases notRoot

theorem isProper_of_isParallel {node : NodeId}
    (isParallel : (chart.node node).isParallel = true) : chart.IsProper node := by
  apply tree.isProper_of_not_isRoot
  cases kind : (chart.node node).kind <;> simp_all [Node.isParallel, Node.isRoot]

theorem nodup_children (id : NodeId) : (chart.node id).children.Nodup :=
  (tree.increasing_children id).imp Nat.ne_of_lt

end IsPlanted

end Chart

end Statechart
