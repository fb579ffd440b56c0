import Mathlib.Data.Set.Basic
import Statechart.Proofs.Chart.Acceptance
import Statechart.Proofs.Chart.Evaluation

/-!
# Configurations made by choice

The check of a configuration climbs from the leaves and counts.  The other way
round, a configuration is made from the root downward: one child of the root and
of every composite state is chosen, every child of a parallel is taken, and atomic
states are where it ends.  This file proves that the check accepts exactly the
leaves of what can be made in this way.
-/

namespace Statechart

namespace Chart

variable {chart : Chart} {leaves : NodeSet} {start : NodeId} {chosen : Set NodeId}

/-- Which children may be taken together with a node. -/
inductive IsChoice (chart : Chart) (node : NodeId) : List NodeId → Prop where
  /-- An atomic state is an end. -/
  | none (isAtomic : (chart.node node).isAtomic = true) : IsChoice chart node []
  /-- Of a composite state one child is chosen. -/
  | one {child : NodeId} (isComposite : (chart.node node).isComposite = true)
      (isChild : child ∈ (chart.node node).children) : IsChoice chart node [child]
  /-- Of a parallel all children are taken. -/
  | all (isParallel : (chart.node node).isParallel = true) :
      IsChoice chart node (chart.node node).children

/-- The nodes that can be chosen from a node downward, the node included. -/
inductive Chooses (chart : Chart) : NodeId → Set NodeId → Prop where
  | choose {node : NodeId} {taken : List NodeId} {chosen : NodeId → Set NodeId}
      (isChoice : chart.IsChoice node taken)
      (below : ∀ child ∈ taken, Chooses chart child (chosen child)) :
      Chooses chart node {other | other = node ∨ ∃ child ∈ taken, other ∈ chosen child}

/-- What can be chosen from one child of the root downward. -/
def IsConfiguration (chart : Chart) (chosen : Set NodeId) : Prop :=
  ∃ child ∈ chart.root.children, chart.Chooses child chosen

/-! ## What is chosen -/

theorem IsChoice.mem_children {node child : NodeId} {taken : List NodeId}
    (isChoice : chart.IsChoice node taken) (isTaken : child ∈ taken) :
    child ∈ (chart.node node).children := by
  cases isChoice with
  | none isAtomic => exact absurd isTaken List.not_mem_nil
  | one isComposite isChild => exact List.mem_singleton.1 isTaken ▸ isChild
  | all isParallel => exact isTaken

/-- Two children are taken together in a parallel only. -/
theorem IsChoice.isParallel_of_ne {node left right : NodeId} {taken : List NodeId}
    (isChoice : chart.IsChoice node taken) (isLeft : left ∈ taken) (isRight : right ∈ taken)
    (different : left ≠ right) : (chart.node node).isParallel = true := by
  cases isChoice with
  | none isAtomic => exact absurd isLeft List.not_mem_nil
  | one isComposite isChild =>
      exact absurd ((List.mem_singleton.1 isLeft).trans (List.mem_singleton.1 isRight).symm)
        different
  | all isParallel => exact isParallel

/-- In a parallel no child is left out. -/
theorem IsChoice.mem_of_isParallel {node child : NodeId} {taken : List NodeId}
    (isChoice : chart.IsChoice node taken) (isParallel : (chart.node node).isParallel = true)
    (isChild : child ∈ (chart.node node).children) : child ∈ taken := by
  have notState : ¬ (chart.node node).isState = true := by
    intro isState
    cases kind : (chart.node node).kind <;> simp_all [Node.isState, Node.isParallel]
  cases isChoice with
  | none isAtomic => exact absurd (isState_of_isAtomic isAtomic) notState
  | one isComposite _ => exact absurd (Bool.and_eq_true_iff.1 isComposite).1 notState
  | all _ => exact isChild

/-- Where nothing is taken there is an end, if every parallel has a child. -/
theorem IsChoice.isAtomic_of_nil {node : NodeId} (isChoice : chart.IsChoice node [])
    (parallels : chart.ParallelsHaveChildren) : (chart.node node).isAtomic = true := by
  generalize nothing : ([] : List NodeId) = taken at isChoice
  cases isChoice with
  | none isAtomic => exact isAtomic
  | one isComposite isChild => cases nothing
  | all isParallel => exact absurd nothing.symm (parallels node isParallel)

namespace Chooses

theorem mem_start (chooses : chart.Chooses start chosen) : start ∈ chosen := by
  cases chooses with
  | choose isChoice below => exact .inl rfl

/-- In a chosen parallel no region is missing. -/
theorem mem_of_region (chooses : chart.Chooses start chosen) {parallel region : NodeId}
    (isChosen : parallel ∈ chosen) (isParallel : (chart.node parallel).isParallel = true)
    (isRegion : region ∈ (chart.node parallel).children) : region ∈ chosen := by
  induction chooses with
  | choose isChoice below ih =>
      rcases isChosen with same | ⟨child, isTaken, isBelow⟩
      · subst same
        have isTaken := isChoice.mem_of_isParallel isParallel isRegion
        exact .inr ⟨region, isTaken, (below region isTaken).mem_start⟩
      · exact .inr ⟨child, isTaken, ih child isTaken isBelow⟩

variable (chooses : chart.Chooses start chosen) (tree : chart.IsTree)
include chooses tree

/-- The nodes that are chosen lie below the start. -/
theorem isWithin {node : NodeId} (isChosen : node ∈ chosen) :
    chart.isWithin node start = true := by
  induction chooses with
  | choose isChoice below ih =>
      rcases isChosen with same | ⟨child, isTaken, isBelow⟩
      · exact same ▸ isWithin_refl node
      · have isParent := tree.parent_of_mem_children (isChoice.mem_children isTaken)
        exact tree.isWithin_trans (ih child isTaken isBelow)
          (isWithin_of_isDescendant (tree.isDescendant_of_parent isParent))

/-- What lies between the start and a chosen node is chosen. -/
theorem mem_of_isWithin {node upper : NodeId} (isChosen : node ∈ chosen)
    (above : chart.isWithin node upper = true) (below : chart.isWithin upper start = true) :
    upper ∈ chosen := by
  induction chooses with
  | choose isChoice chooses ih =>
      rcases isWithin_iff.1 below with same | deeper
      · exact .inl same
      · rcases isChosen with same | ⟨child, isTaken, isBelow⟩
        · subst same
          exact absurd (tree.lt_of_isDescendant deeper)
            (Nat.not_lt_of_le (tree.le_of_isWithin above))
        · -- The way up from `node` passes `upper` before the child that was taken.
          have isParent := tree.parent_of_mem_children (isChoice.mem_children isTaken)
          obtain ⟨other, isOther, within⟩ := tree.exists_child_above deeper
          have same : other = child := tree.eq_of_siblings_above isOther isParent
            (tree.isWithin_trans above within) ((chooses child isTaken).isWithin tree isBelow)
          exact .inr ⟨child, isTaken, ih child isTaken isBelow (same ▸ within)⟩

/-- Nodes that are chosen together part in parallels only. -/
theorem areCompatible {a b : NodeId} (chosenA : a ∈ chosen) (chosenB : b ∈ chosen) :
    chart.AreCompatible a b := by
  induction chooses with
  | @choose node taken chosen isChoice below ih =>
      have chooses : chart.Chooses node _ := .choose isChoice below
      rcases chosenA with same | ⟨left, isLeft, belowLeft⟩
      · subst same
        exact (tree.areCompatible_of_isWithin (chooses.isWithin tree chosenB)).symm
      · rcases chosenB with same | ⟨right, isRight, belowRight⟩
        · subst same
          exact tree.areCompatible_of_isWithin
            (chooses.isWithin tree (.inr ⟨left, isLeft, belowLeft⟩))
        · by_cases same : left = right
          · subst same
            exact ih left isLeft belowLeft belowRight
          · have parted : chart.PartAt node a b := ⟨left, right, same,
              tree.parent_of_mem_children (isChoice.mem_children isLeft),
              tree.parent_of_mem_children (isChoice.mem_children isRight),
              (below left isLeft).isWithin tree belowLeft,
              (below right isRight).isWithin tree belowRight⟩
            exact tree.areCompatible_of_partAt parted
              (isChoice.isParallel_of_ne isLeft isRight same)

/-- Below every chosen node a leaf is chosen. -/
theorem exists_leaf (parallels : chart.ParallelsHaveChildren) {node : NodeId}
    (isChosen : node ∈ chosen) :
    ∃ leaf ∈ chosen, (chart.node leaf).isAtomic = true ∧ chart.isWithin leaf node = true := by
  induction chooses generalizing node with
  | @choose top taken chosen isChoice below ih =>
      rcases isChosen with same | ⟨child, isTaken, isBelow⟩
      · subst same
        cases taken with
        | nil => exact ⟨node, .inl rfl, isChoice.isAtomic_of_nil parallels, isWithin_refl node⟩
        | cons child rest =>
            have isTaken : child ∈ child :: rest := List.mem_cons_self
            have isParent := tree.parent_of_mem_children (isChoice.mem_children isTaken)
            obtain ⟨leaf, isBelow, isAtomic, within⟩ :=
              ih child isTaken (below child isTaken).mem_start
            exact ⟨leaf, .inr ⟨child, isTaken, isBelow⟩, isAtomic, tree.isWithin_trans within
              (isWithin_of_isDescendant (tree.isDescendant_of_parent isParent))⟩
      · obtain ⟨leaf, leafBelow, rest⟩ := ih child isTaken isBelow
        exact ⟨leaf, .inr ⟨child, isTaken, leafBelow⟩, rest⟩

end Chooses

namespace IsConfiguration

variable (isConfiguration : chart.IsConfiguration chosen) (tree : chart.IsTree)
  (parallels : chart.ParallelsHaveChildren)
  (areLeaves : ∀ node, node ∈ leaves ↔ node ∈ chosen ∧ (chart.node node).isAtomic = true)
include isConfiguration tree parallels areLeaves

/-- The active nodes are those that were chosen. -/
theorem mem_active_iff {node : NodeId} : node ∈ chart.active leaves ↔ node ∈ chosen := by
  obtain ⟨top, isTop, chooses⟩ := isConfiguration
  have isParent := tree.parent_of_mem_children isTop
  rw [tree.mem_active]
  constructor
  · rintro ⟨notRoot, leaf, isLeaf, within⟩
    have isChosen := ((areLeaves leaf).1 isLeaf).1
    have belowTop := chooses.isWithin tree isChosen
    apply chooses.mem_of_isWithin tree isChosen within
    rcases tree.isWithin_or_isWithin within belowTop with below | above
    · exact below
    · rcases isWithin_iff.1 above with same | below
      · exact same ▸ isWithin_refl top
      · obtain ⟨parent, isOther, upper⟩ := tree.isDescendant_iff_parent.1 below
        cases isParent.symm.trans isOther
        exact absurd (tree.eq_root_of_isWithin upper) notRoot
  · intro isChosen
    obtain ⟨leaf, leafChosen, isAtomic, within⟩ := chooses.exists_leaf tree parallels isChosen
    refine ⟨?_, leaf, (areLeaves leaf).2 ⟨leafChosen, isAtomic⟩, within⟩
    exact tree.ne_root_of_isDescendant (tree.isDescendant_of_isWithin_of_isDescendant
      (chooses.isWithin tree isChosen) (tree.isDescendant_of_parent isParent))

/-- The leaves of what was chosen are a legal configuration. -/
theorem isLegalConfiguration : chart.IsLegalConfiguration leaves := by
  have mem_active_iff : ∀ {node : NodeId}, node ∈ chart.active leaves ↔ node ∈ chosen :=
    isConfiguration.mem_active_iff tree parallels areLeaves
  obtain ⟨top, isTop, chooses⟩ := isConfiguration
  apply isLegalConfiguration_of_leaves tree
  · obtain ⟨leaf, isChosen, isAtomic, -⟩ := chooses.exists_leaf tree parallels chooses.mem_start
    exact ⟨leaf, (areLeaves leaf).2 ⟨isChosen, isAtomic⟩⟩
  · exact fun leaf isLeaf => ((areLeaves leaf).1 isLeaf).2
  · exact fun a isA b isB =>
      chooses.areCompatible tree ((areLeaves a).1 isA).1 ((areLeaves b).1 isB).1
  · intro id isActive isParallel child isChild
    exact mem_active_iff.2 (chooses.mem_of_region (mem_active_iff.1 isActive) isParallel isChild)

end IsConfiguration

/-! ## Legal configurations are made by choice -/

namespace IsLegalConfiguration

variable (legal : chart.IsLegalConfiguration leaves) (tree : chart.IsTree)
include legal tree

/-- Towards an active node below some other node leads an active child of that one. -/
theorem exists_active_child {node ancestor : NodeId} (isActive : node ∈ chart.active leaves)
    (below : chart.isDescendant node ancestor = true) :
    ∃ child, (child ∈ (chart.node ancestor).children ∧ child ∈ chart.active leaves) ∧
      chart.isWithin node child = true := by
  obtain ⟨child, isParent, within⟩ := tree.exists_child_above below
  obtain ⟨-, leaf, isLeaf, lower⟩ := tree.mem_active.1 isActive
  have childActive : child ∈ chart.active leaves := tree.mem_active.2
    ⟨tree.ne_root_of_parent isParent, leaf, isLeaf, tree.isWithin_trans lower within⟩
  have notHistory := (tree.isNode_of_mem_active legal.atomic childActive).2.2
  exact ⟨child, ⟨(tree.mem_children ancestor child).2 ⟨isParent, notHistory⟩, childActive⟩, within⟩

/-- The active children of an active node are a choice. -/
theorem isChoice {node : NodeId} (isActive : node ∈ chart.active leaves) :
    ∃ taken, chart.IsChoice node taken ∧
      ∀ child, child ∈ taken ↔
        child ∈ (chart.node node).children ∧ child ∈ chart.active leaves := by
  have isNode := tree.isNode_of_mem_active legal.atomic isActive
  have notRoot := tree.not_isRoot node isNode.1 isNode.2.1
  cases isParallel : (chart.node node).isParallel with
  | true =>
      exact ⟨_, .all isParallel, fun child =>
        ⟨fun isChild => ⟨isChild, legal.parallel node isActive isParallel child isChild⟩,
          fun isChild => isChild.1⟩⟩
  | false =>
      have isState : (chart.node node).isState = true := by
        cases kind : (chart.node node).kind <;>
          simp_all [Node.isRoot, Node.isHistory, Node.isState, Node.isParallel]
      cases childless : (chart.node node).children.isEmpty with
      | true =>
          have isAtomic : (chart.node node).isAtomic = true := by
            simp [Node.isAtomic, isState, childless]
          refine ⟨[], .none isAtomic, fun child => ?_⟩
          simp [List.isEmpty_iff.1 childless]
      | false =>
          have isComposite : (chart.node node).isComposite = true := by
            simp [Node.isComposite, isState, childless]
          obtain ⟨child, isChild, unique⟩ := legal.composite node isActive isComposite
          refine ⟨[child], .one isComposite isChild.1, fun other => ?_⟩
          rw [List.mem_singleton]
          exact ⟨fun same => same ▸ isChild, unique other⟩

/-- Everything that is active below an active node can be chosen. -/
theorem chooses {node : NodeId} (isActive : node ∈ chart.active leaves) :
    chart.Chooses node
      {other | other ∈ chart.active leaves ∧ chart.isWithin other node = true} := by
  have inside := (tree.isNode_of_mem_active legal.atomic isActive).2.1
  -- Children come after their parents, so the number of nodes from `node` on decreases.
  induction remaining : chart.nodeCount - node using Nat.strongRecOn generalizing node with
  | ind count ih =>
      obtain ⟨taken, isChoice, mem_taken⟩ := legal.isChoice tree isActive
      have below : ∀ child ∈ taken, chart.Chooses child
          {other | other ∈ chart.active leaves ∧ chart.isWithin other child = true} := by
        intro child isTaken
        obtain ⟨isChild, childActive⟩ := (mem_taken child).1 isTaken
        have childInside := (tree.isNode_of_mem_active legal.atomic childActive).2.1
        have fewer : chart.nodeCount - child < count :=
          remaining ▸ Nat.sub_lt_sub_left inside
            (tree.parent_lt (tree.parent_of_mem_children isChild))
        exact ih _ fewer childActive childInside rfl
      have sameNodes : {other | other ∈ chart.active leaves ∧ chart.isWithin other node = true} =
          {other | other = node ∨ ∃ child ∈ taken,
            other ∈ chart.active leaves ∧ chart.isWithin other child = true} := by
        ext other
        constructor
        · rintro ⟨otherActive, within⟩
          rcases isWithin_iff.1 within with same | deeper
          · exact .inl same
          · obtain ⟨child, isChild, lower⟩ := legal.exists_active_child tree otherActive deeper
            exact .inr ⟨child, (mem_taken child).2 isChild, otherActive, lower⟩
        · rintro (same | ⟨child, isTaken, otherActive, lower⟩)
          · rw [same]
            exact ⟨isActive, isWithin_refl node⟩
          · have isParent := tree.parent_of_mem_children ((mem_taken child).1 isTaken).1
            exact ⟨otherActive, tree.isWithin_trans lower
              (isWithin_of_isDescendant (tree.isDescendant_of_parent isParent))⟩
      exact sameNodes ▸ .choose isChoice below

/-- What is active can be chosen from the root downward, and its atomic states are the leaves. -/
theorem isConfiguration : chart.IsConfiguration {node | node ∈ chart.active leaves} ∧
    ∀ node, node ∈ leaves ↔
      node ∈ chart.active leaves ∧ (chart.node node).isAtomic = true := by
  constructor
  · obtain ⟨top, ⟨isTop, isActive⟩, unique⟩ := legal.topLevel
    have sameNodes : {node | node ∈ chart.active leaves} =
        {node | node ∈ chart.active leaves ∧ chart.isWithin node top = true} := by
      ext node
      refine ⟨fun nodeActive => ⟨nodeActive, ?_⟩, fun both => both.1⟩
      have isNode := tree.isNode_of_mem_active legal.atomic nodeActive
      obtain ⟨child, isChild, lower⟩ := legal.exists_active_child tree nodeActive
        (tree.isDescendant_root isNode.1 isNode.2.1)
      exact unique child isChild ▸ lower
    exact ⟨top, isTop, sameNodes ▸ legal.chooses tree isActive⟩
  · intro node
    refine ⟨fun isLeaf => ⟨mem_active_of_mem tree legal.atomic isLeaf, legal.atomic node isLeaf⟩, ?_⟩
    rintro ⟨isActive, isAtomic⟩
    obtain ⟨-, leaf, isLeaf, within⟩ := tree.mem_active.1 isActive
    rcases isWithin_iff.1 within with same | deeper
    · exact same ▸ isLeaf
    · obtain ⟨child, isChild, -⟩ := legal.exists_active_child tree
        (mem_active_of_mem tree legal.atomic isLeaf) deeper
      have childless := List.isEmpty_iff.1 (Bool.and_eq_true_iff.1 isAtomic).2
      exact absurd (childless ▸ isChild.1) List.not_mem_nil

end IsLegalConfiguration

/-- The check finds nothing wrong exactly with the leaves of configurations made by choice. -/
theorem violations_eq_nil_iff_chosen {definition : Definition}
    (done : ofDefinition definition = .ok chart) (parallels : chart.ParallelsHaveChildren)
    (leaves : NodeSet) :
    chart.violations leaves = [] ↔
      ∃ chosen, chart.IsConfiguration chosen ∧
        ∀ node, node ∈ leaves ↔ node ∈ chosen ∧ (chart.node node).isAtomic = true := by
  have tree := (isBuilt_ofDefinition done).tree
  rw [tree.violations_eq_nil_iff]
  constructor
  · intro legal
    exact ⟨_, legal.isConfiguration tree⟩
  · rintro ⟨chosen, isConfiguration, areLeaves⟩
    exact isConfiguration.isLegalConfiguration tree parallels areLeaves

/-- Bronze and oil, the nodes 6 and 8 of the gallery, are what one choice ends in: one room of
the west wing, and the east wing with it.  Bronze alone leaves the east wing out. -/
theorem gallery_opens_both_wings :
    (ofDefinition (gallery "marble") = .ok (builtOrEmpty (gallery "marble")) ∧
      (builtOrEmpty (gallery "marble")).ParallelsHaveChildren) ∧
    (∃ chosen, (builtOrEmpty (gallery "marble")).IsConfiguration chosen ∧
      ∀ node, node ∈ NodeSet.ofList [6, 8] ↔
        node ∈ chosen ∧ ((builtOrEmpty (gallery "marble")).node node).isAtomic = true) ∧
    ¬ ∃ chosen, (builtOrEmpty (gallery "marble")).IsConfiguration chosen ∧
      ∀ node, node ∈ NodeSet.ofList [6] ↔
        node ∈ chosen ∧ ((builtOrEmpty (gallery "marble")).node node).isAtomic = true := by
  have done : ofDefinition (gallery "marble") = .ok (builtOrEmpty (gallery "marble")) :=
    ofDefinition_eq_ok (by decide +kernel)
  have parallels : (builtOrEmpty (gallery "marble")).ParallelsHaveChildren :=
    parallelsHaveChildren_of_all (by decide +kernel)
  refine ⟨⟨done, parallels⟩, ?_, ?_⟩
  · exact (violations_eq_nil_iff_chosen done parallels _).1 (by decide +kernel)
  · rw [← violations_eq_nil_iff_chosen done parallels]
    decide +kernel

end Chart

end Statechart
