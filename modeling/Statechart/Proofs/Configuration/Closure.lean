import Mathlib.Data.List.TakeWhile
import Statechart.Configuration
import Statechart.Proofs.Chart.Descent
import Statechart.Proofs.NodeSet

/-!
# Active nodes

The active nodes of a configuration are its leaves and what is above them, the
root left out.  The computation stops climbing at the first node that is there
already, which is sound because the sets it builds are closed upward.
-/

namespace Statechart

namespace Chart

variable {chart : Chart}

/-- A set with every node above one of its members, but without the root. -/
structure IsUpward (chart : Chart) (set : NodeSet) : Prop where
  root_notMem : ¬ rootId ∈ set
  mem_of_isDescendant : ∀ node ancestor, node ∈ set → chart.isDescendant node ancestor = true →
    ancestor ≠ rootId → ancestor ∈ set

theorem isUpward_empty (chart : Chart) : chart.IsUpward ∅ :=
  ⟨NodeSet.not_mem_empty rootId, fun node _ member => absurd member (NodeSet.not_mem_empty node)⟩

/-- Climbing adds the whole chain if what is there of it lies at its end. -/
theorem mem_addChain {active : NodeSet} {chain : List NodeId} {node : NodeId}
    (distinct : chain.Nodup)
    (closed : chain.Pairwise (fun lower upper => lower ∈ active → upper ∈ active)) :
    node ∈ addChain active chain ↔ node ∈ active ∨ node ∈ chain := by
  induction chain generalizing active with
  | nil => simp [addChain]
  | cons ancestor rest ih =>
      obtain ⟨apart, restDistinct⟩ := List.nodup_cons.1 distinct
      obtain ⟨above, restClosed⟩ := List.pairwise_cons.1 closed
      unfold addChain
      split
      · next present =>
          refine ⟨.inl, fun either => either.elim id fun member => ?_⟩
          rcases List.mem_cons.1 member with same | isRest
          · exact same ▸ present
          · exact above node isRest present
      · have stillClosed : rest.Pairwise (fun lower upper =>
            lower ∈ active.insert ancestor → upper ∈ active.insert ancestor) := by
          refine restClosed.imp_of_mem fun lowerRest _ implies member => ?_
          rcases NodeSet.mem_insert.1 member with same | isOld
          · exact absurd (same ▸ lowerRest) apart
          · exact NodeSet.mem_insert.2 (.inr (implies isOld))
        rw [ih restDistinct stillClosed, NodeSet.mem_insert, List.mem_cons, or_assoc,
          or_left_comm]

/-- Climbing adds nothing but the chain. -/
theorem mem_of_mem_addChain {active : NodeSet} {chain : List NodeId} {node : NodeId}
    (member : node ∈ addChain active chain) : node ∈ active ∨ node ∈ chain := by
  induction chain generalizing active with
  | nil => exact .inl member
  | cons ancestor rest ih =>
      unfold addChain at member
      split at member
      · exact .inl member
      · rcases ih member with added | isRest
        · exact (NodeSet.mem_insert.1 added).elim
            (fun same => .inr (same ▸ List.mem_cons_self)) .inl
        · exact .inr (List.mem_cons_of_mem _ isRest)

/-- The root is never active, in whatever chart. -/
theorem root_notMem_active (chart : Chart) (leaves : NodeSet) : ¬ rootId ∈ chart.active leaves := by
  refine List.foldlRecOn (motive := fun set : NodeSet => ¬ rootId ∈ set) _ _
    (NodeSet.not_mem_empty rootId) fun set notMem node _ member => ?_
  unfold addActive at member
  split at member
  · exact notMem member
  · next notAdded =>
      rcases mem_of_mem_addChain member with inserted | above
      · exact (NodeSet.mem_insert.1 inserted).elim (fun same => notAdded (.inl same.symm)) notMem
      · have below := List.mem_takeWhile_imp above
        rw [bne_self_eq_false] at below
        cases below

namespace IsPlanted

variable (tree : chart.IsPlanted)
include tree

theorem mem_ancestors {node ancestor : NodeId} :
    ancestor ∈ chart.ancestors node ↔
      chart.isDescendant node ancestor = true ∧ ancestor ≠ rootId := by
  rw [ancestors, isDescendant_iff]
  induction node using Nat.strongRecOn with
  | ind node ih =>
      cases isParent : chart.parent node with
      | none => simp [lineage_of_root isParent]
      | some parent =>
          rw [tree.lineage_of_parent isParent]
          by_cases isRoot : parent = rootId
          · subst isRoot
            simp [lineage_of_root tree.parent_root]
          · simp only [List.takeWhile_cons, bne_iff_ne, ne_eq, isRoot, not_false_eq_true, if_true,
              List.mem_cons, ih parent (tree.parent_lt isParent)]
            constructor
            · rintro (same | above)
              · exact ⟨.inl same, same ▸ isRoot⟩
              · exact ⟨.inr above.1, above.2⟩
            · rintro ⟨same | above, notRoot⟩
              · exact .inl same
              · exact .inr ⟨above, notRoot⟩

theorem mem_addActive {set : NodeSet} {node other : NodeId} (upward : chart.IsUpward set) :
    other ∈ chart.addActive set node ↔
      other ∈ set ∨ other ≠ rootId ∧ chart.isWithin node other = true := by
  unfold addActive
  split
  · next settled =>
      refine ⟨.inl, fun either => either.elim id fun ⟨notRoot, within⟩ => ?_⟩
      rcases settled with rfl | present
      · exact absurd (tree.eq_root_of_isWithin within) notRoot
      · rcases isWithin_iff.1 within with same | below
        · exact same ▸ present
        · exact upward.mem_of_isDescendant node other present below notRoot
  · next unsettled =>
      rw [not_or] at unsettled
      have ordered : (chart.ancestors node).Pairwise
          (fun lower upper => chart.isDescendant lower upper = true) :=
        (List.pairwise_cons.1 (tree.pairwise_isDescendant node)).2.sublist
          (List.takeWhile_sublist _)
      have distinct : (chart.ancestors node).Nodup := by
        refine ordered.imp fun {lower upper} below same => ?_
        exact tree.not_isDescendant_self upper (same ▸ below)
      have closed : (chart.ancestors node).Pairwise
          (fun lower upper => lower ∈ set.insert node → upper ∈ set.insert node) := by
        refine ordered.imp_of_mem fun lowerAbove upperAbove below member => ?_
        rcases NodeSet.mem_insert.1 member with same | present
        · have above := (tree.mem_ancestors.1 lowerAbove).1
          exact absurd (same ▸ above) (tree.not_isDescendant_self _)
        · exact NodeSet.mem_insert.2 (.inr (upward.mem_of_isDescendant _ _ present below
            (tree.mem_ancestors.1 upperAbove).2))
      rw [mem_addChain distinct closed, NodeSet.mem_insert, tree.mem_ancestors, isWithin_iff]
      constructor
      · rintro ((same | present) | ⟨below, notRoot⟩)
        · exact .inr ⟨same ▸ unsettled.1, .inl same.symm⟩
        · exact .inl present
        · exact .inr ⟨notRoot, .inr below⟩
      · rintro (present | ⟨notRoot, same | below⟩)
        · exact .inl (.inr present)
        · exact .inl (.inl same.symm)
        · exact .inr ⟨below, notRoot⟩

theorem isUpward_addActive {set : NodeSet} (upward : chart.IsUpward set) (node : NodeId) :
    chart.IsUpward (chart.addActive set node) where
  root_notMem := by
    rw [tree.mem_addActive upward]
    rintro (present | ⟨notRoot, -⟩)
    · exact upward.root_notMem present
    · exact notRoot rfl
  mem_of_isDescendant := by
    intro lower upper member below notRoot
    rw [tree.mem_addActive upward] at member ⊢
    rcases member with present | ⟨-, within⟩
    · exact .inl (upward.mem_of_isDescendant lower upper present below notRoot)
    · exact .inr ⟨notRoot, isWithin_of_isDescendant
        (tree.isDescendant_of_isWithin_of_isDescendant within below)⟩

theorem closure_aux {nodes : List NodeId} {set : NodeSet} (upward : chart.IsUpward set) :
    chart.IsUpward (nodes.foldl chart.addActive set) ∧
      ∀ other, other ∈ nodes.foldl chart.addActive set ↔
        other ∈ set ∨ other ≠ rootId ∧ ∃ node ∈ nodes, chart.isWithin node other = true := by
  induction nodes generalizing set with
  | nil => exact ⟨upward, fun other => by simp⟩
  | cons first rest ih =>
      obtain ⟨isUpward, members⟩ := ih (tree.isUpward_addActive upward first)
      refine ⟨isUpward, fun other => ?_⟩
      rw [List.foldl_cons, members, tree.mem_addActive upward, or_assoc, ← and_or_left]
      simp only [List.mem_cons, exists_eq_or_imp]

/-- The closure of nodes holds what is above them, but not the root. -/
theorem mem_closure {nodes : List NodeId} {other : NodeId} :
    other ∈ chart.closure nodes ↔
      other ≠ rootId ∧ ∃ node ∈ nodes, chart.isWithin node other = true := by
  rw [closure, (tree.closure_aux (isUpward_empty chart)).2]
  exact or_iff_right (NodeSet.not_mem_empty other)

theorem mem_active {leaves : NodeSet} {node : NodeId} :
    node ∈ chart.active leaves ↔
      node ≠ rootId ∧ ∃ leaf ∈ leaves, chart.isWithin leaf node = true :=
  tree.mem_closure

theorem isUpward_active (leaves : NodeSet) : chart.IsUpward (chart.active leaves) :=
  (tree.closure_aux (isUpward_empty chart)).1

end IsPlanted

end Chart

end Statechart
