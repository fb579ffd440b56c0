import Mathlib.Data.List.Perm.Subperm
import Statechart.Proofs.Chart.Tree

/-!
# Building trees

Every operation that builds a chart keeps its nodes together, and every node
refers only to transitions of its own.  Below a history nodes may be added, too,
but then the nodes form no tree any more.
-/

namespace Statechart

/-- The transitions that a node refers to. -/
def Node.references (node : Node) : List TransitionId :=
  node.initial.toList ++ node.historyDefault.toList ++ node.transitions

namespace Chart

variable {chart before after : Chart}

/-- A transition is there and leaves a node. -/
def IsTransitionOf (chart : Chart) (id : NodeId) (transition : TransitionId) : Prop :=
  transition < chart.transitionCount ∧ (chart.transition transition).source = id

/-- Nodes refer to transitions of their own, and to each of them once. -/
structure IsOwned (chart : Chart) : Prop where
  own : ∀ id, ∀ transition ∈ (chart.node id).references, chart.IsTransitionOf id transition
  nodup : ∀ id, (chart.node id).references.Nodup

/-- A chart as any building leaves it. -/
structure IsGrown (chart : Chart) : Prop where
  planted : chart.IsPlanted
  owned : chart.IsOwned

/-- A chart as building leaves it that adds nothing below a history: a tree whose
nodes refer to transitions of their own, none of which has been linked to its
targets yet. -/
structure IsBuilt (chart : Chart) : Prop where
  tree : chart.IsTree
  owned : chart.IsOwned
  unlinked : ∀ transition, (chart.transition transition).targets = []

theorem IsBuilt.isGrown (built : chart.IsBuilt) : chart.IsGrown :=
  ⟨built.tree.toIsPlanted, built.owned⟩

namespace IsOwned

/-- What matters is what the nodes refer to, and the transitions. -/
theorem congr (owned : before.IsOwned)
    (references : ∀ id, (after.node id).references = (before.node id).references)
    (transitions : after.transitions = before.transitions) : after.IsOwned where
  own := by
    intro id transition member
    rw [references] at member
    rw [IsTransitionOf, transitionCount, Chart.transition, transitions]
    exact owned.own id transition member
  nodup id := references id ▸ owned.nodup id

theorem modifyTransition (owned : chart.IsOwned) {change : Transition → Transition}
    (keepsSource : ∀ transition, (change transition).source = transition.source)
    (id : TransitionId) : (chart.modifyTransition id change).IsOwned where
  own := by
    intro other transition member
    rw [IsTransitionOf, transitionCount_modifyTransition,
      transition_modifyTransition_keeps Transition.source keepsSource]
    exact owned.own other transition member
  nodup := owned.nodup

end IsOwned

namespace IsGrown

theorem modifyNode (grown : chart.IsGrown) {change : Node → Node}
    (keepsPosition : ∀ node, (change node).position = node.position)
    (keepsReferences : ∀ node, (change node).references = node.references) (id : NodeId) :
    (chart.modifyNode id change).IsGrown where
  planted := (SameTree.modifyNode keepsPosition id).isPlanted grown.planted
  owned := grown.owned.congr (node_modifyNode_keeps Node.references keepsReferences id) rfl

theorem modifyTransition (grown : chart.IsGrown) {change : Transition → Transition}
    (keepsSource : ∀ transition, (change transition).source = transition.source)
    (id : TransitionId) : (chart.modifyTransition id change).IsGrown where
  planted := SameTree.isPlanted (.of_nodes (by rfl)) grown.planted
  owned := grown.owned.modifyTransition keepsSource id

end IsGrown

namespace IsBuilt

/-- Being built is a matter of nodes and transitions only. -/
theorem congr (built : before.IsBuilt) (nodes : after.nodes = before.nodes)
    (transitions : after.transitions = before.transitions) : after.IsBuilt := by
  have references : ∀ id, (after.node id).references = (before.node id).references :=
    fun id => congrArg Node.references (node_congr nodes id)
  refine ⟨built.tree.of_nodes nodes, built.owned.congr references transitions, ?_⟩
  intro transition
  rw [Chart.transition, transitions]
  exact built.unlinked transition

theorem modifyNode (built : chart.IsBuilt) {change : Node → Node}
    (keepsPosition : ∀ node, (change node).position = node.position)
    (keepsReferences : ∀ node, (change node).references = node.references) (id : NodeId) :
    (chart.modifyNode id change).IsBuilt where
  tree := built.tree.modifyNode keepsPosition id
  owned := (built.isGrown.modifyNode keepsPosition keepsReferences id).owned
  unlinked := built.unlinked

theorem modifyTransition (built : chart.IsBuilt) {change : Transition → Transition}
    (keepsSource : ∀ transition, (change transition).source = transition.source)
    (keepsTargets : ∀ transition, (change transition).targets = transition.targets)
    (id : TransitionId) : (chart.modifyTransition id change).IsBuilt where
  tree := built.tree.of_nodes rfl
  owned := built.owned.modifyTransition keepsSource id
  unlinked := by
    intro transition
    rw [transition_modifyTransition_keeps Transition.targets keepsTargets]
    exact built.unlinked transition

end IsBuilt

/-! ## Adding transitions -/

/-- Adds a transition and lets its source refer to it. -/
def attach (chart : Chart) (refer : TransitionId → Node → Node) (added : Transition) : Chart :=
  { chart.modifyNode added.source (refer chart.transitionCount) with
    transitions := chart.transitions.push added, isValidated := false }

/-- A way of referring to one more transition: the node keeps its place and its declared id, and
refers to no other transition anew. -/
structure IsReference (refer : TransitionId → Node → Node) : Prop where
  position_eq : ∀ transition node, (refer transition node).position = node.position
  declaredId_eq : ∀ transition node, (refer transition node).declaredId = node.declaredId
  id_eq : ∀ transition node, (refer transition node).id = node.id
  clientId_eq : ∀ transition node, (refer transition node).clientId = node.clientId
  invocation_eq : ∀ transition node, (refer transition node).invocation = node.invocation
  references : ∀ transition node,
    List.Subperm (refer transition node).references (transition :: node.references)

section Attach

variable {refer : TransitionId → Node → Node} {added : Transition}

theorem node_attach_self {source : NodeId} (isSource : added.source = source)
    (inside : source < chart.nodeCount) :
    (chart.attach refer added).node source = refer chart.transitionCount (chart.node source) := by
  subst isSource
  exact node_modifyNode_self inside _

theorem node_attach_of_ne {id : NodeId} (different : id ≠ added.source) :
    (chart.attach refer added).node id = chart.node id :=
  node_modifyNode_of_ne different _

theorem node_attach_keeps {Part : Type} (part : Node → Part)
    (keeps : ∀ transition node, part (refer transition node) = part node) (id : NodeId) :
    part ((chart.attach refer added).node id) = part (chart.node id) :=
  node_modifyNode_keeps part (keeps chart.transitionCount) added.source id

theorem nodeCount_attach : (chart.attach refer added).nodeCount = chart.nodeCount :=
  nodeCount_modifyNode _ _

theorem transitionCount_attach :
    (chart.attach refer added).transitionCount = chart.transitionCount + 1 := by
  simp [attach, transitionCount]

theorem transition_attach_of_lt {id : TransitionId} (inside : id < chart.transitionCount) :
    (chart.attach refer added).transition id = chart.transition id := by
  have bound : id < chart.transitions.size := inside
  simp [attach, transition, Array.getElem?_push, Nat.ne_of_lt bound]

theorem transition_attach_self :
    (chart.attach refer added).transition chart.transitionCount = added := by
  simp [attach, transition, transitionCount]

variable (reference : IsReference refer)
include reference

theorem IsReference.sameTree : SameTree chart (chart.attach refer added) where
  nodeCount_eq := nodeCount_attach
  position_eq := node_attach_keeps Node.position reference.position_eq

theorem IsReference.references_attach (id : NodeId) :
    List.Subperm ((chart.attach refer added).node id).references
      (if id = added.source then chart.transitionCount :: (chart.node id).references
        else (chart.node id).references) := by
  split
  · next isSource =>
      by_cases inside : id < chart.nodeCount
      · rw [node_attach_self isSource.symm inside]
        exact reference.references _ _
      · rw [node_of_le (by simpa [nodeCount_attach] using inside)]
        exact List.nil_subperm
  · next different =>
      rw [node_attach_of_ne different]

theorem IsReference.isOwned (owned : chart.IsOwned) : (chart.attach refer added).IsOwned := by
  have known : ∀ {id transition}, chart.IsTransitionOf id transition →
      (chart.attach refer added).IsTransitionOf id transition := by
    intro id transition isOwn
    rw [IsTransitionOf, transition_attach_of_lt isOwn.1, transitionCount_attach]
    exact ⟨Nat.lt_succ_of_lt isOwn.1, isOwn.2⟩
  constructor
  · intro id transition member
    have listed := (reference.references_attach id).subset member
    split at listed
    · next isSource =>
        rcases List.mem_cons.1 listed with isAdded | isOld
        · rw [isAdded, IsTransitionOf, transition_attach_self, transitionCount_attach]
          exact ⟨Nat.lt_succ_self _, isSource.symm⟩
        · exact known (owned.own id transition isOld)
    · exact known (owned.own id transition listed)
  · intro id
    have isNew : chart.transitionCount ∉ (chart.node id).references :=
      fun member => Nat.lt_irrefl _ (owned.own id _ member).1
    obtain ⟨listed, same, fewer⟩ := reference.references_attach id
    refine same.nodup (fewer.nodup ?_)
    split
    · exact List.nodup_cons.2 ⟨isNew, owned.nodup id⟩
    · exact owned.nodup id

theorem IsReference.isGrown (grown : chart.IsGrown) : (chart.attach refer added).IsGrown :=
  ⟨reference.sameTree.isPlanted grown.planted, reference.isOwned grown.owned⟩

theorem IsReference.isBuilt (built : chart.IsBuilt) (unlinked : added.targets = []) :
    (chart.attach refer added).IsBuilt := by
  refine ⟨reference.sameTree.isTree built.tree, reference.isOwned built.owned, ?_⟩
  intro transition
  rcases Nat.lt_trichotomy transition chart.transitionCount with inside | same | outside
  · rw [transition_attach_of_lt inside]
    exact built.unlinked transition
  · rw [same, transition_attach_self, unlinked]
  · rw [transition_of_le]
    · rfl
    · rw [transitionCount_attach]
      exact outside

end Attach

/-- Lets a node refer to one more outgoing transition. -/
def referOutgoing (transition : TransitionId) (node : Node) : Node :=
  { node with transitions := node.transitions ++ [transition] }

/-- Lets the root or a state refer to its initial transition. -/
def referInitial (transition : TransitionId) (node : Node) : Node :=
  match node.kind with
  | .root _ => { node with kind := .root (some transition) }
  | .state _ isFinal => { node with kind := .state (some transition) isFinal }
  | .parallel | .history _ _ => node

/-- Lets a history refer to its default transition. -/
def referDefault (transition : TransitionId) (node : Node) : Node :=
  match node.kind with
  | .history kind _ => { node with kind := .history kind (some transition) }
  | _ => node

theorem references_referOutgoing (transition : TransitionId) (node : Node) :
    (referOutgoing transition node).references.Perm (transition :: node.references) := by
  have same : (referOutgoing transition node).references = node.references ++ [transition] :=
    (List.append_assoc _ _ _).symm
  rw [same]
  exact List.perm_append_singleton transition node.references

theorem isReference_referOutgoing : IsReference referOutgoing where
  position_eq := fun _ _ => rfl
  declaredId_eq := fun _ _ => rfl
  id_eq := fun _ _ => rfl
  clientId_eq := fun _ _ => rfl
  invocation_eq := fun _ _ => rfl
  references := fun transition node => (references_referOutgoing transition node).subperm

theorem transitions_referInitial (transition : TransitionId) (node : Node) :
    (referInitial transition node).transitions = node.transitions := by
  cases kind : node.kind <;> simp [referInitial, kind]

theorem isReference_referInitial : IsReference referInitial where
  position_eq := by
    intro transition node
    cases kind : node.kind <;> simp [Node.position, referInitial, kind, NodeKind.bare]
  declaredId_eq := fun _ node => by cases kind : node.kind <;> simp [referInitial, kind]
  id_eq := fun _ node => by cases kind : node.kind <;> simp [referInitial, kind]
  clientId_eq := fun _ node => by cases kind : node.kind <;> simp [referInitial, kind]
  invocation_eq := fun _ node => by cases kind : node.kind <;> simp [referInitial, kind]
  references := by
    intro transition node
    apply List.Sublist.subperm
    cases kind : node.kind <;>
      simp [Node.references, referInitial, Node.initial, Node.historyDefault, kind]

theorem transitions_referDefault (transition : TransitionId) (node : Node) :
    (referDefault transition node).transitions = node.transitions := by
  cases kind : node.kind <;> simp [referDefault, kind]

theorem isReference_referDefault : IsReference referDefault where
  position_eq := by
    intro transition node
    cases kind : node.kind <;> simp [Node.position, referDefault, kind, NodeKind.bare]
  declaredId_eq := fun _ node => by cases kind : node.kind <;> simp [referDefault, kind]
  id_eq := fun _ node => by cases kind : node.kind <;> simp [referDefault, kind]
  clientId_eq := fun _ node => by cases kind : node.kind <;> simp [referDefault, kind]
  invocation_eq := fun _ node => by cases kind : node.kind <;> simp [referDefault, kind]
  references := by
    intro transition node
    apply List.Sublist.subperm
    cases kind : node.kind <;>
      simp [Node.references, referDefault, Node.initial, Node.historyDefault, kind]

/-- A transition that has not been linked yet. -/
def newTransition (source : NodeId) (event condition next : Option String)
    (actions : List Action) : Transition :=
  { source, event := nonblank event, condition := nonblank condition, next := nonblank next,
    actions }

theorem addTransition_eq (source : NodeId) (event condition next : Option String)
    (actions : List Action) :
    (chart.addTransition source event condition next actions).1 =
      chart.attach referOutgoing (newTransition source event condition next actions) :=
  rfl

theorem setInitial_eq (node : NodeId) (next : String) (actions : List Action) :
    chart.setInitial node next actions =
      chart.attach referInitial (newTransition node none none (some next) actions) :=
  rfl

theorem setHistoryDefault_eq (history : NodeId) (next : Option String) (actions : List Action) :
    chart.setHistoryDefault history next actions =
      chart.attach referDefault (newTransition history none none next actions) :=
  rfl

/-! ## Adding nodes -/

/-- Lets a node own a new member, a history or a child. -/
def adopt (isHistory : Bool) (member : NodeId) (owner : Node) : Node :=
  if isHistory then { owner with histories := owner.histories ++ [member] }
  else { owner with children := owner.children ++ [member] }

/-- Adds a node that its parent does not know of yet. -/
def pushNode (chart : Chart) (added : Node) : Chart :=
  { chart with nodes := chart.nodes.push added, isValidated := false }

/-- The node that is added below a parent. -/
def newNode (chart : Chart) (parent : NodeId) (kind : NodeKind) (id : Option String) : Node :=
  { kind, declaredId := id, id := id.getD "", parent := some parent,
    depth := (chart.node parent).depth + 1 }

theorem addNode_eq (parent : NodeId) (kind : NodeKind) (id : Option String) :
    chart.addNode parent kind id =
      ((chart.pushNode (chart.newNode parent kind id)).modifyNode parent
        (adopt (chart.newNode parent kind id).isHistory chart.nodeCount), chart.nodeCount) :=
  rfl

theorem nodeCount_pushNode (added : Node) :
    (chart.pushNode added).nodeCount = chart.nodeCount + 1 := by
  simp [pushNode, nodeCount]

theorem node_pushNode_self (added : Node) :
    (chart.pushNode added).node chart.nodeCount = added := by
  simp [pushNode, node, nodeCount]

theorem node_pushNode_of_ne (added : Node) {id : NodeId} (different : id ≠ chart.nodeCount) :
    (chart.pushNode added).node id = chart.node id := by
  have apart : id ≠ chart.nodes.size := different
  rw [node, node, Array.getD_eq_getD_getElem?, Array.getD_eq_getD_getElem?]
  simp [pushNode, Array.getElem?_push, apart]

section AddNode

variable (owner : NodeId) (kind : NodeKind) (id : Option String)

theorem nodeCount_addNode :
    (chart.addNode owner kind id).1.nodeCount = chart.nodeCount + 1 := by
  rw [addNode_eq, nodeCount_modifyNode, nodeCount_pushNode]

/-- What adopting keeps is told by the new node alone. -/
theorem node_addNode_keeps {Part : Type} (part : Node → Part)
    (keeps : ∀ isHistory member node, part (adopt isHistory member node) = part node)
    (other : NodeId) :
    part ((chart.addNode owner kind id).1.node other) =
      if other = chart.nodeCount then part (chart.newNode owner kind id)
      else part (chart.node other) := by
  rw [addNode_eq, node_modifyNode_keeps part (keeps _ _)]
  split
  · next same => rw [same, node_pushNode_self]
  · next different => rw [node_pushNode_of_ne _ different]

theorem parent_addNode (other : NodeId) :
    (chart.addNode owner kind id).1.parent other =
      if other = chart.nodeCount then some owner else chart.parent other := by
  refine node_addNode_keeps owner kind id Node.parent (fun isHistory _ _ => ?_) other
  cases isHistory <;> rfl

theorem depth_addNode (other : NodeId) :
    ((chart.addNode owner kind id).1.node other).depth =
      if other = chart.nodeCount then (chart.node owner).depth + 1
      else (chart.node other).depth := by
  refine node_addNode_keeps owner kind id Node.depth (fun isHistory _ _ => ?_) other
  cases isHistory <;> rfl

theorem references_addNode (other : NodeId) :
    ((chart.addNode owner kind id).1.node other).references =
      if other = chart.nodeCount then (chart.newNode owner kind id).references
      else (chart.node other).references := by
  refine node_addNode_keeps owner kind id Node.references (fun isHistory _ _ => ?_) other
  cases isHistory <;> rfl

variable {owner}

theorem node_addNode_owner (inside : owner < chart.nodeCount) :
    (chart.addNode owner kind id).1.node owner =
      adopt (chart.newNode owner kind id).isHistory chart.nodeCount (chart.node owner) := by
  rw [addNode_eq, node_modifyNode_self, node_pushNode_of_ne _ (Nat.ne_of_lt inside)]
  rw [nodeCount_pushNode]
  exact Nat.lt_succ_of_lt inside

theorem node_addNode_of_ne {other : NodeId} (different : other ≠ owner) :
    (chart.addNode owner kind id).1.node other =
      if other = chart.nodeCount then chart.newNode owner kind id else chart.node other := by
  rw [addNode_eq, node_modifyNode_of_ne different]
  split
  · next same => rw [same, node_pushNode_self]
  · next unequal => rw [node_pushNode_of_ne _ unequal]

theorem children_addNode (inside : owner < chart.nodeCount) (other : NodeId) :
    ((chart.addNode owner kind id).1.node other).children =
      if other = chart.nodeCount then []
      else (chart.node other).children ++
        (if other = owner ∧ (chart.newNode owner kind id).isHistory = false then
          [chart.nodeCount] else []) := by
  by_cases isOwner : other = owner
  · subst isOwner
    rw [node_addNode_owner kind id inside, if_neg (Nat.ne_of_lt inside)]
    cases isHistory : (chart.newNode other kind id).isHistory <;> simp [adopt]
  · rw [node_addNode_of_ne kind id isOwner]
    split
    · rfl
    · simp [isOwner]

theorem histories_addNode (inside : owner < chart.nodeCount) (other : NodeId) :
    ((chart.addNode owner kind id).1.node other).histories =
      if other = chart.nodeCount then []
      else (chart.node other).histories ++
        (if other = owner ∧ (chart.newNode owner kind id).isHistory = true then
          [chart.nodeCount] else []) := by
  by_cases isOwner : other = owner
  · subst isOwner
    rw [node_addNode_owner kind id inside, if_neg (Nat.ne_of_lt inside)]
    cases isHistory : (chart.newNode other kind id).isHistory <;> simp [adopt]
  · rw [node_addNode_of_ne kind id isOwner]
    split
    · rfl
    · simp [isOwner]

theorem isHistory_addNode (other : NodeId) :
    ((chart.addNode owner kind id).1.node other).isHistory =
      if other = chart.nodeCount then (chart.newNode owner kind id).isHistory
      else (chart.node other).isHistory := by
  refine node_addNode_keeps owner kind id Node.isHistory (fun isHistory _ _ => ?_) other
  cases isHistory <;> rfl

theorem isRoot_addNode (other : NodeId) :
    ((chart.addNode owner kind id).1.node other).isRoot =
      if other = chart.nodeCount then (chart.newNode owner kind id).isRoot
      else (chart.node other).isRoot := by
  refine node_addNode_keeps owner kind id Node.isRoot (fun isHistory _ _ => ?_) other
  cases isHistory <;> rfl

/-- The members of a sort that nodes know of after one has been added. -/
theorem IsPlanted.mem_members_addNode (tree : chart.IsPlanted) {owner parent other : NodeId}
    (inside : owner < chart.nodeCount) {members : List NodeId} {sort otherSort addedSort : Bool}
    (known : other ∈ members ↔ chart.parent other = some parent ∧ otherSort = sort) :
    other ∈ (if parent = chart.nodeCount then []
        else members ++ (if parent = owner ∧ addedSort = sort then [chart.nodeCount] else [])) ↔
      (if other = chart.nodeCount then some owner else chart.parent other) = some parent ∧
        (if other = chart.nodeCount then addedSort else otherSort) = sort := by
  by_cases isAdded : other = chart.nodeCount
  · have unknown : other ∉ members := fun member =>
      Nat.ne_of_lt (lt_nodeCount_of_parent (known.1 member).1) isAdded
    rw [if_pos isAdded, if_pos isAdded, Option.some.injEq]
    split
    · next beyond =>
        have apart : owner ≠ parent := beyond ▸ Nat.ne_of_lt inside
        simp [apart]
    · rw [List.mem_append, or_iff_right unknown]
      by_cases isOwner : parent = owner ∧ addedSort = sort
      · rw [if_pos isOwner]
        exact iff_of_true (List.mem_singleton.2 isAdded) ⟨isOwner.1.symm, isOwner.2⟩
      · rw [if_neg isOwner]
        exact iff_of_false List.not_mem_nil fun same => isOwner ⟨same.1.symm, same.2⟩
  · rw [if_neg isAdded, if_neg isAdded, ← known]
    split
    · next beyond =>
        refine ⟨fun member => absurd member List.not_mem_nil, fun member => ?_⟩
        exact absurd beyond (Nat.ne_of_lt (tree.parent_lt_nodeCount (known.1 member).1))
    · rw [List.mem_append]
      split <;> simp [isAdded]

/-- Members that grow by the added node are listed in increasing order. -/
theorem increasing_members_addNode {members : List NodeId} {other : NodeId} {adopts : Prop}
    [Decidable adopts] (increasing : members.Pairwise (· < ·))
    (known : ∀ member ∈ members, chart.parent member = some other) :
    (if other = chart.nodeCount then []
      else members ++ if adopts then [chart.nodeCount] else []).Pairwise (· < ·) := by
  split
  · exact .nil
  · refine List.pairwise_append.2 ⟨increasing, ?_, ?_⟩
    · split
      · exact List.pairwise_singleton _ _
      · exact .nil
    · intro member isMember added isAdded
      have old := lt_nodeCount_of_parent (known member isMember)
      split at isAdded
      · exact List.mem_singleton.1 isAdded ▸ old
      · exact absurd isAdded List.not_mem_nil

theorem IsPlanted.addNode (tree : chart.IsPlanted) (inside : owner < chart.nodeCount)
    (notRoot : (chart.newNode owner kind id).isRoot = false) :
    (chart.addNode owner kind id).1.IsPlanted where
  nonempty := by
    rw [nodeCount_addNode]
    exact Nat.succ_pos _
  isRoot_root := by
    rw [isRoot_addNode, if_neg (Nat.ne_of_lt tree.nonempty)]
    exact tree.isRoot_root
  parent_root := by
    rw [parent_addNode, if_neg (Nat.ne_of_lt tree.nonempty)]
    exact tree.parent_root
  exists_parent := by
    intro other otherNotRoot present
    rw [nodeCount_addNode] at present
    rw [parent_addNode]
    split
    · next same => exact ⟨owner, rfl, same ▸ inside⟩
    · next different =>
        exact tree.exists_parent other otherNotRoot
          (Nat.lt_of_le_of_ne (Nat.le_of_lt_succ present) different)
  not_isRoot := by
    intro other otherNotRoot present
    rw [nodeCount_addNode] at present
    rw [isRoot_addNode]
    split
    · exact notRoot
    · next different =>
        exact tree.not_isRoot other otherNotRoot
          (Nat.lt_of_le_of_ne (Nat.le_of_lt_succ present) different)
  mem_children := by
    intro parent other
    rw [children_addNode kind id inside, parent_addNode, isHistory_addNode]
    exact tree.mem_members_addNode inside (tree.mem_children parent other)
  mem_histories := by
    intro parent other
    rw [histories_addNode kind id inside, parent_addNode, isHistory_addNode]
    exact tree.mem_members_addNode inside (tree.mem_histories parent other)
  increasing_children := by
    intro other
    rw [children_addNode kind id inside]
    exact increasing_members_addNode (tree.increasing_children other)
      fun child isChild => ((tree.mem_children other child).1 isChild).1
  increasing_histories := by
    intro other
    rw [histories_addNode kind id inside]
    exact increasing_members_addNode (tree.increasing_histories other)
      fun history isHistory => ((tree.mem_histories other history).1 isHistory).1
  depth_eq := by
    intro other parent isParent
    rw [parent_addNode] at isParent
    rw [depth_addNode, depth_addNode]
    split at isParent
    · next same =>
        cases isParent
        rw [if_pos same, if_neg (Nat.ne_of_lt inside)]
    · next different =>
        rw [if_neg different, if_neg (Nat.ne_of_lt (tree.parent_lt_nodeCount isParent))]
        exact tree.depth_eq other parent isParent

theorem IsTree.addNode (tree : chart.IsTree) (inside : owner < chart.nodeCount)
    (notHistory : (chart.node owner).isHistory = false)
    (notRoot : (chart.newNode owner kind id).isRoot = false) :
    (chart.addNode owner kind id).1.IsTree where
  toIsPlanted := tree.toIsPlanted.addNode kind id inside notRoot
  not_isHistory_parent := by
    intro other parent isParent
    rw [parent_addNode] at isParent
    rw [isHistory_addNode]
    split at isParent
    · cases isParent
      rw [if_neg (Nat.ne_of_lt inside)]
      exact notHistory
    · rw [if_neg (Nat.ne_of_lt (tree.parent_lt_nodeCount isParent))]
      exact tree.not_isHistory_parent other parent isParent

/-- The node that is added must not refer to transitions yet. -/
theorem IsOwned.addNode (owned : chart.IsOwned)
    (bare : (chart.newNode owner kind id).references = []) :
    (chart.addNode owner kind id).1.IsOwned := by
  constructor
  · intro other transition member
    rw [references_addNode, bare] at member
    split at member
    · exact absurd member List.not_mem_nil
    · exact owned.own other transition member
  · intro other
    rw [references_addNode, bare]
    split
    · exact .nil
    · exact owned.nodup other

theorem IsGrown.addNode (grown : chart.IsGrown) (inside : owner < chart.nodeCount)
    (notRoot : (chart.newNode owner kind id).isRoot = false)
    (bare : (chart.newNode owner kind id).references = []) :
    (chart.addNode owner kind id).1.IsGrown :=
  ⟨grown.planted.addNode kind id inside notRoot, grown.owned.addNode kind id bare⟩

theorem IsBuilt.addNode (built : chart.IsBuilt) (inside : owner < chart.nodeCount)
    (notHistory : (chart.node owner).isHistory = false)
    (notRoot : (chart.newNode owner kind id).isRoot = false)
    (bare : (chart.newNode owner kind id).references = []) :
    (chart.addNode owner kind id).1.IsBuilt :=
  ⟨built.tree.addNode kind id inside notHistory notRoot, built.owned.addNode kind id bare,
    built.unlinked⟩

end AddNode

end Chart

end Statechart
