import Statechart.Chart.Validation
import Statechart.Proofs.Chart.Tree

/-!
# Descent in trees

The lineage of a node leads from its parent to the root.  Being within a node
is a partial order in which the nodes above one node form a chain, and two
nodes that are not within each other part at one node, their least common
ancestor, below which they lie in different children.
-/

namespace Statechart

namespace Chart

variable {chart before after : Chart}

/-! ## Lineages -/

theorem lineage_of_root {node : NodeId} (noParent : chart.parent node = none) :
    chart.lineage node = [] := by
  rw [lineage, noParent]

theorem isDescendant_iff {node ancestor : NodeId} :
    chart.isDescendant node ancestor = true ↔ ancestor ∈ chart.lineage node := by
  simp [isDescendant]

theorem isWithin_iff {node ancestor : NodeId} :
    chart.isWithin node ancestor = true ↔
      node = ancestor ∨ chart.isDescendant node ancestor = true := by
  simp [isWithin]

@[simp]
theorem isWithin_refl (node : NodeId) : chart.isWithin node node = true :=
  isWithin_iff.2 (.inl rfl)

theorem isWithin_of_isDescendant {node ancestor : NodeId}
    (below : chart.isDescendant node ancestor = true) : chart.isWithin node ancestor = true :=
  isWithin_iff.2 (.inr below)

theorem mem_cons_lineage {node ancestor : NodeId} :
    ancestor ∈ node :: chart.lineage node ↔ chart.isWithin node ancestor = true := by
  rw [List.mem_cons, ← isDescendant_iff, isWithin_iff, eq_comm]

/-- Descent depends on the parents only. -/
theorem lineage_congr (same : ∀ node, after.parent node = before.parent node) (node : NodeId) :
    after.lineage node = before.lineage node := by
  induction node using Nat.strongRecOn with
  | ind node ih =>
      rw [lineage, lineage, same]
      cases before.parent node with
      | none => rfl
      | some parent =>
          by_cases below : parent < node
          · simp only [below, if_true, ih parent below]
          · simp only [below, if_false]

theorem isDescendant_congr (same : ∀ node, after.parent node = before.parent node)
    (node ancestor : NodeId) :
    after.isDescendant node ancestor = before.isDescendant node ancestor := by
  rw [isDescendant, isDescendant, lineage_congr same]

/-- Two nodes part at a node if they lie below different children of it. -/
def PartAt (chart : Chart) (meeting a b : NodeId) : Prop :=
  ∃ left right, left ≠ right ∧
    chart.parent left = some meeting ∧ chart.parent right = some meeting ∧
    chart.isWithin a left = true ∧ chart.isWithin b right = true

theorem PartAt.symm {meeting a b : NodeId} (parted : chart.PartAt meeting a b) :
    chart.PartAt meeting b a := by
  obtain ⟨left, right, different, isLeft, isRight, leftward, rightward⟩ := parted
  exact ⟨right, left, different.symm, isRight, isLeft, rightward, leftward⟩

namespace IsPlanted

variable (tree : chart.IsPlanted)
include tree

theorem lineage_of_parent {node parent : NodeId} (isParent : chart.parent node = some parent) :
    chart.lineage node = parent :: chart.lineage parent := by
  rw [lineage, isParent]
  simp [tree.parent_lt isParent]

/-! ## The order of descent -/

theorem isDescendant_iff_parent {node ancestor : NodeId} :
    chart.isDescendant node ancestor = true ↔
      ∃ parent, chart.parent node = some parent ∧ chart.isWithin parent ancestor = true := by
  rw [isDescendant_iff]
  cases isParent : chart.parent node with
  | none => simp [lineage_of_root isParent]
  | some parent =>
      rw [tree.lineage_of_parent isParent, List.mem_cons, ← isDescendant_iff, eq_comm,
        ← isWithin_iff]
      simp

theorem isDescendant_of_parent {node parent : NodeId}
    (isParent : chart.parent node = some parent) : chart.isDescendant node parent = true :=
  tree.isDescendant_iff_parent.2 ⟨parent, isParent, isWithin_refl parent⟩

theorem lt_of_isDescendant {node ancestor : NodeId}
    (below : chart.isDescendant node ancestor = true) : ancestor < node := by
  induction node using Nat.strongRecOn with
  | ind node ih =>
      obtain ⟨parent, isParent, within⟩ := tree.isDescendant_iff_parent.1 below
      have parentBelow := tree.parent_lt isParent
      rcases isWithin_iff.1 within with same | above
      · exact same ▸ parentBelow
      · exact Nat.lt_trans (ih parent parentBelow above) parentBelow

theorem le_of_isWithin {node ancestor : NodeId} (within : chart.isWithin node ancestor = true) :
    ancestor ≤ node := by
  rcases isWithin_iff.1 within with same | below
  · exact Nat.le_of_eq same.symm
  · exact Nat.le_of_lt (tree.lt_of_isDescendant below)

/-- The root is within nothing but itself. -/
theorem eq_root_of_isWithin {node : NodeId} (within : chart.isWithin rootId node = true) :
    node = rootId :=
  Nat.le_zero.1 (tree.le_of_isWithin within)

theorem isDescendant_trans_isWithin {node middle ancestor : NodeId}
    (lower : chart.isDescendant node middle = true)
    (upper : chart.isWithin middle ancestor = true) :
    chart.isDescendant node ancestor = true := by
  induction node using Nat.strongRecOn with
  | ind node ih =>
      obtain ⟨parent, isParent, within⟩ := tree.isDescendant_iff_parent.1 lower
      refine tree.isDescendant_iff_parent.2 ⟨parent, isParent, ?_⟩
      rcases isWithin_iff.1 within with same | below
      · exact same ▸ upper
      · exact isWithin_of_isDescendant (ih parent (tree.parent_lt isParent) below)

theorem isWithin_trans {node middle ancestor : NodeId}
    (lower : chart.isWithin node middle = true) (upper : chart.isWithin middle ancestor = true) :
    chart.isWithin node ancestor = true := by
  rcases isWithin_iff.1 lower with same | below
  · exact same ▸ upper
  · exact isWithin_of_isDescendant (tree.isDescendant_trans_isWithin below upper)

theorem isDescendant_of_isWithin_of_isDescendant {node middle ancestor : NodeId}
    (lower : chart.isWithin node middle = true)
    (upper : chart.isDescendant middle ancestor = true) :
    chart.isDescendant node ancestor = true := by
  rcases isWithin_iff.1 lower with same | below
  · exact same ▸ upper
  · exact tree.isDescendant_trans_isWithin below (isWithin_of_isDescendant upper)

theorem not_isDescendant_self (node : NodeId) : ¬ chart.isDescendant node node = true :=
  fun below => Nat.lt_irrefl node (tree.lt_of_isDescendant below)

/-- The nodes above one node form a chain. -/
theorem isWithin_or_isWithin {node a b : NodeId} (belowA : chart.isWithin node a = true)
    (belowB : chart.isWithin node b = true) :
    chart.isWithin a b = true ∨ chart.isWithin b a = true := by
  induction node using Nat.strongRecOn with
  | ind node ih =>
      rcases isWithin_iff.1 belowA with rfl | properA
      · exact .inl belowB
      · rcases isWithin_iff.1 belowB with rfl | properB
        · exact .inr belowA
        · obtain ⟨parent, isParent, parentA⟩ := tree.isDescendant_iff_parent.1 properA
          obtain ⟨other, isOther, parentB⟩ := tree.isDescendant_iff_parent.1 properB
          rw [isParent] at isOther
          cases isOther
          exact ih parent (tree.parent_lt isParent) parentA parentB

theorem lt_nodeCount_of_isDescendant {node ancestor : NodeId}
    (below : chart.isDescendant node ancestor = true) : node < chart.nodeCount := by
  obtain ⟨parent, isParent, -⟩ := tree.isDescendant_iff_parent.1 below
  exact lt_nodeCount_of_parent isParent

theorem ne_root_of_isDescendant {node ancestor : NodeId}
    (below : chart.isDescendant node ancestor = true) : node ≠ rootId := by
  obtain ⟨parent, isParent, -⟩ := tree.isDescendant_iff_parent.1 below
  exact tree.ne_root_of_parent isParent

theorem isProper_of_isDescendant {node ancestor : NodeId}
    (below : chart.isDescendant node ancestor = true) : chart.IsProper node :=
  ⟨tree.ne_root_of_isDescendant below, tree.lt_nodeCount_of_isDescendant below⟩

theorem isWithin_root {node : NodeId} (inside : node < chart.nodeCount) :
    chart.isWithin node rootId = true := by
  induction node using Nat.strongRecOn with
  | ind node ih =>
      by_cases isRoot : node = rootId
      · exact isWithin_iff.2 (.inl isRoot)
      · obtain ⟨parent, isParent, below⟩ := tree.exists_parent node isRoot inside
        have above := ih parent below (Nat.lt_trans below inside)
        exact isWithin_of_isDescendant
          (tree.isDescendant_iff_parent.2 ⟨parent, isParent, above⟩)

theorem isDescendant_root {node : NodeId} (notRoot : node ≠ rootId)
    (inside : node < chart.nodeCount) : chart.isDescendant node rootId = true :=
  (isWithin_iff.1 (tree.isWithin_root inside)).resolve_left notRoot

theorem depth_lt_of_isDescendant {node ancestor : NodeId}
    (below : chart.isDescendant node ancestor = true) :
    (chart.node ancestor).depth < (chart.node node).depth := by
  induction node using Nat.strongRecOn with
  | ind node ih =>
      obtain ⟨parent, isParent, within⟩ := tree.isDescendant_iff_parent.1 below
      have step := tree.depth_eq node parent isParent
      rcases isWithin_iff.1 within with same | above
      · subst same
        omega
      · have := ih parent (tree.parent_lt isParent) above
        omega

/-- Between a node and a proper descendant lies a child of the node. -/
theorem exists_child_above {node ancestor : NodeId}
    (below : chart.isDescendant node ancestor = true) :
    ∃ child, chart.parent child = some ancestor ∧ chart.isWithin node child = true := by
  induction node using Nat.strongRecOn with
  | ind node ih =>
      obtain ⟨parent, isParent, within⟩ := tree.isDescendant_iff_parent.1 below
      rcases isWithin_iff.1 within with same | above
      · exact ⟨node, same ▸ isParent, isWithin_refl node⟩
      · obtain ⟨child, isChild, lower⟩ := ih parent (tree.parent_lt isParent) above
        exact ⟨child, isChild, isWithin_of_isDescendant
          (tree.isDescendant_iff_parent.2 ⟨parent, isParent, lower⟩)⟩

/-! ## Parting -/

theorem eq_of_siblings_above {node left right meeting : NodeId}
    (isLeft : chart.parent left = some meeting) (isRight : chart.parent right = some meeting)
    (leftward : chart.isWithin node left = true) (rightward : chart.isWithin node right = true) :
    left = right := by
  have chain : ∀ {low high : NodeId}, chart.parent low = some meeting →
      chart.parent high = some meeting → chart.isWithin low high = true → low = high := by
    intro low high isLow isHigh within
    rcases isWithin_iff.1 within with same | below
    · exact same
    · obtain ⟨parent, isParent, above⟩ := tree.isDescendant_iff_parent.1 below
      rw [isLow] at isParent
      cases isParent
      exact absurd (tree.parent_lt isHigh) (Nat.not_lt_of_le (tree.le_of_isWithin above))
  rcases tree.isWithin_or_isWithin leftward rightward with lower | lower
  · exact chain isLeft isRight lower
  · exact (chain isRight isLeft lower).symm

theorem isDescendant_of_partAt {meeting a b : NodeId} (parted : chart.PartAt meeting a b) :
    chart.isDescendant a meeting = true := by
  obtain ⟨left, right, -, isLeft, -, leftward, -⟩ := parted
  exact tree.isDescendant_of_isWithin_of_isDescendant leftward (tree.isDescendant_of_parent isLeft)

theorem not_isWithin_of_partAt {meeting a b : NodeId} (parted : chart.PartAt meeting a b) :
    ¬ chart.isWithin a b = true := by
  obtain ⟨left, right, different, isLeft, isRight, leftward, rightward⟩ := parted
  intro within
  exact different (tree.eq_of_siblings_above isLeft isRight leftward
    (tree.isWithin_trans within rightward))

/-- Nodes within parted nodes part at the same node. -/
theorem partAt_lower {meeting a b lowA lowB : NodeId} (parted : chart.PartAt meeting a b)
    (withinA : chart.isWithin lowA a = true) (withinB : chart.isWithin lowB b = true) :
    chart.PartAt meeting lowA lowB := by
  obtain ⟨left, right, different, isLeft, isRight, leftward, rightward⟩ := parted
  exact ⟨left, right, different, isLeft, isRight, tree.isWithin_trans withinA leftward,
    tree.isWithin_trans withinB rightward⟩

/-- Two nodes part at one node only. -/
theorem partAt_unique {first second a b : NodeId} (atFirst : chart.PartAt first a b)
    (atSecond : chart.PartAt second a b) : first = second := by
  have chain : ∀ {high low : NodeId}, chart.PartAt high a b → chart.PartAt low a b →
      ¬ chart.isDescendant low high = true := by
    rintro high low ⟨left, right, different, isLeft, isRight, leftward, rightward⟩ parted below
    obtain ⟨child, isChild, within⟩ := tree.exists_child_above below
    have belowA := tree.isDescendant_of_partAt parted
    have belowB := tree.isDescendant_of_partAt parted.symm
    have sameLeft := tree.eq_of_siblings_above isLeft isChild leftward
      (tree.isWithin_trans (isWithin_of_isDescendant belowA) within)
    have sameRight := tree.eq_of_siblings_above isRight isChild rightward
      (tree.isWithin_trans (isWithin_of_isDescendant belowB) within)
    exact different (sameLeft.trans sameRight.symm)
  have aboveA := isWithin_of_isDescendant (tree.isDescendant_of_partAt atFirst)
  have aboveB := isWithin_of_isDescendant (tree.isDescendant_of_partAt atSecond)
  rcases tree.isWithin_or_isWithin aboveA aboveB with lower | lower
  · exact (isWithin_iff.1 lower).resolve_right (chain atSecond atFirst)
  · exact ((isWithin_iff.1 lower).resolve_right (chain atFirst atSecond)).symm

/-- Two nodes that are not within each other part somewhere. -/
theorem exists_partAt {a b : NodeId} (insideA : a < chart.nodeCount)
    (insideB : b < chart.nodeCount) (notAB : ¬ chart.isWithin a b = true)
    (notBA : ¬ chart.isWithin b a = true) : ∃ meeting, chart.PartAt meeting a b := by
  induction a using Nat.strongRecOn with
  | ind a ih =>
      have notRoot : a ≠ rootId := by
        rintro rfl
        exact notBA (tree.isWithin_root insideB)
      obtain ⟨parent, isParent, below⟩ := tree.exists_parent a notRoot insideA
      by_cases above : chart.isWithin b parent = true
      · have proper : chart.isDescendant b parent = true := by
          apply (isWithin_iff.1 above).resolve_left
          rintro rfl
          exact notAB (isWithin_of_isDescendant (tree.isDescendant_of_parent isParent))
        obtain ⟨child, isChild, within⟩ := tree.exists_child_above proper
        refine ⟨parent, a, child, ?_, isParent, isChild, isWithin_refl a, within⟩
        rintro rfl
        exact notBA within
      · have notWithin : ¬ chart.isWithin parent b = true := fun within =>
          notAB (tree.isWithin_trans
            (isWithin_of_isDescendant (tree.isDescendant_of_parent isParent)) within)
        obtain ⟨meeting, parted⟩ := ih parent below (Nat.lt_trans below insideA) notWithin above
        exact ⟨meeting, tree.partAt_lower parted
          (isWithin_of_isDescendant (tree.isDescendant_of_parent isParent)) (isWithin_refl b)⟩

/-! ## Least common ancestors -/

/-- A node and its lineage, each one below those that follow. -/
theorem pairwise_isDescendant (node : NodeId) :
    (node :: chart.lineage node).Pairwise
      (fun lower upper => chart.isDescendant lower upper = true) := by
  induction node using Nat.strongRecOn with
  | ind node ih =>
      refine List.pairwise_cons.2 ⟨fun _ above => isDescendant_iff.2 above, ?_⟩
      cases isParent : chart.parent node with
      | none =>
          rw [lineage_of_root isParent]
          exact .nil
      | some parent =>
          rw [tree.lineage_of_parent isParent]
          exact ih parent (tree.parent_lt isParent)

/-- The least common ancestor is above both nodes, and all that is above both is
above it. -/
theorem commonAncestor_spec {a b : NodeId} (insideA : a < chart.nodeCount)
    (insideB : b < chart.nodeCount) :
    chart.isWithin a (chart.commonAncestor a b) = true ∧
      chart.isWithin b (chart.commonAncestor a b) = true ∧
      ∀ ancestor, chart.isWithin a ancestor = true → chart.isWithin b ancestor = true →
        chart.isWithin (chart.commonAncestor a b) ancestor = true := by
  have found : ∃ meeting,
      (a :: chart.lineage a).find? (fun candidate => chart.isWithin b candidate) =
        some meeting := by
    refine Option.isSome_iff_exists.1 (List.find?_isSome.2 ⟨rootId, ?_, ?_⟩)
    · exact mem_cons_lineage.2 (tree.isWithin_root insideA)
    · exact tree.isWithin_root insideB
  obtain ⟨meeting, isFirst⟩ := found
  have isMeeting : chart.commonAncestor a b = meeting := by
    rw [commonAncestor, isFirst, Option.getD_some]
  rw [isMeeting]
  obtain ⟨withinB, nearer, further, split, noneNearer⟩ := List.find?_eq_some_iff_append.1 isFirst
  have withinA : chart.isWithin a meeting = true :=
    mem_cons_lineage.1 (split ▸ List.mem_append_right _ List.mem_cons_self)
  refine ⟨withinA, withinB, fun ancestor aboveA aboveB => ?_⟩
  have ordered := tree.pairwise_isDescendant a
  have listed := mem_cons_lineage.2 aboveA
  rw [split] at ordered listed
  rcases List.mem_append.1 listed with isNearer | isFurther
  · have notAbove := noneNearer ancestor isNearer
    simp [aboveB] at notAbove
  · rcases List.mem_cons.1 isFurther with same | isAbove
    · exact same ▸ isWithin_refl _
    · exact isWithin_of_isDescendant
        ((List.pairwise_cons.1 (List.pairwise_append.1 ordered).2.1).1 ancestor isAbove)

/-- Parted nodes have the node where they part as their least common ancestor. -/
theorem commonAncestor_of_partAt {meeting a b : NodeId} (parted : chart.PartAt meeting a b) :
    chart.commonAncestor a b = meeting := by
  have belowA := tree.isDescendant_of_partAt parted
  have belowB := tree.isDescendant_of_partAt parted.symm
  obtain ⟨aboveA, aboveB, least⟩ := tree.commonAncestor_spec
    (tree.lt_nodeCount_of_isDescendant belowA) (tree.lt_nodeCount_of_isDescendant belowB)
  have within := least meeting (isWithin_of_isDescendant belowA) (isWithin_of_isDescendant belowB)
  apply (isWithin_iff.1 within).resolve_right
  intro below
  obtain ⟨child, isChild, lower⟩ := tree.exists_child_above below
  obtain ⟨left, right, different, isLeft, isRight, leftward, rightward⟩ := parted
  have sameLeft := tree.eq_of_siblings_above isLeft isChild leftward
    (tree.isWithin_trans aboveA lower)
  have sameRight := tree.eq_of_siblings_above isRight isChild rightward
    (tree.isWithin_trans aboveB lower)
  exact different (sameLeft.trans sameRight.symm)

/-- Nodes are orthogonal if they part at a parallel. -/
theorem areOrthogonal_iff {a b : NodeId} (insideA : a < chart.nodeCount)
    (insideB : b < chart.nodeCount) :
    chart.areOrthogonal a b = true ↔
      ∃ meeting, chart.PartAt meeting a b ∧ (chart.node meeting).isParallel = true := by
  simp only [areOrthogonal, Bool.and_eq_true, Bool.not_eq_true', Bool.eq_false_iff]
  constructor
  · rintro ⟨⟨notAB, notBA⟩, parallel⟩
    obtain ⟨meeting, parted⟩ := tree.exists_partAt insideA insideB notAB notBA
    exact ⟨meeting, parted, tree.commonAncestor_of_partAt parted ▸ parallel⟩
  · rintro ⟨meeting, parted, parallel⟩
    refine ⟨⟨tree.not_isWithin_of_partAt parted, tree.not_isWithin_of_partAt parted.symm⟩, ?_⟩
    rw [tree.commonAncestor_of_partAt parted]
    exact parallel

end IsPlanted

/-! ## What depends on the tree alone -/

namespace SameTree

theorem isDescendant_eq (same : SameTree before after) :
    after.isDescendant = before.isDescendant := by
  funext node ancestor
  exact isDescendant_congr same.parent_eq node ancestor

theorem isWithin_eq (same : SameTree before after) : after.isWithin = before.isWithin := by
  funext node ancestor
  rw [isWithin, isWithin, same.isDescendant_eq]

theorem areOrthogonal_eq (same : SameTree before after) :
    after.areOrthogonal = before.areOrthogonal := by
  funext a b
  have meets : after.commonAncestor a b = before.commonAncestor a b := by
    rw [commonAncestor, commonAncestor, lineage_congr same.parent_eq, same.isWithin_eq]
  rw [areOrthogonal, areOrthogonal, same.isWithin_eq, meets, same.isParallel_eq]

end SameTree

theorem areLegalTargets_iff {targets : List NodeId} :
    chart.areLegalTargets targets = true ↔
      targets.Pairwise (fun a b => chart.areOrthogonal a b = true) := by
  induction targets with
  | nil => simp [areLegalTargets]
  | cons target rest ih =>
      rw [areLegalTargets, Bool.and_eq_true, List.all_eq_true, ih, List.pairwise_cons]

theorem SameTree.areLegalTargets_eq (same : SameTree before after) :
    after.areLegalTargets = before.areLegalTargets := by
  funext targets
  rw [Bool.eq_iff_iff, areLegalTargets_iff, areLegalTargets_iff, same.areOrthogonal_eq]

theorem SameTree.suitsHistory_eq (same : SameTree before after) :
    after.suitsHistory = before.suitsHistory := by
  funext kind owner target
  cases kind with
  | shallow => simp only [suitsHistory, same.parent_eq]
  | deep => simp only [suitsHistory, same.isDescendant_eq]

end Chart

end Statechart
