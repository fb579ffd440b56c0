import Mathlib.Logic.Relation
import Statechart.Proofs.Chart.Editing

/-!
# Ancestors by parents

The ancestors of a node are what parents lead up to, step by step.  Descent follows
the lineage instead; on every chart that can be drawn up the two are the same, and
the order in which two nodes are given makes no difference to where they meet.
-/

namespace Statechart

namespace Chart

variable {chart : Chart}

/-! ## Drafts -/

/-- The charts that edits make of an empty one or of one made of a definition. -/
inductive IsDrafted : Chart → Prop
  | empty (name : Option String) : IsDrafted (.empty name)
  | defined {chart : Chart} {definition : Definition}
      (done : ofDefinition definition = .ok chart) : IsDrafted chart
  | edit {chart : Chart} (drafted : IsDrafted chart) (edit : Edit)
      (callable : edit.IsCallable chart) : IsDrafted (edit.apply chart)

theorem IsDrafted.isKept (drafted : chart.IsDrafted) : chart.IsKept := by
  induction drafted with
  | empty name =>
      exact ⟨(isBuilt_empty name).isGrown, fun validated => absurd validated Bool.false_ne_true⟩
  | defined done =>
      refine ⟨(isBuilt_ofDefinition done).isGrown, fun validated => ?_⟩
      rw [isValidated_ofDefinition done] at validated
      cases validated
  | edit _ edit callable ih => exact ih.apply edit callable

/-- The nodes of a draft hang together, whether it breaks rules of validation or not. -/
theorem IsDrafted.isPlanted (drafted : chart.IsDrafted) : chart.IsPlanted :=
  drafted.isKept.isGrown.planted

/-! ## What parents lead up to -/

/-- One node is a proper ancestor of another one. -/
def IsAbove (chart : Chart) : NodeId → NodeId → Prop :=
  Relation.TransGen (fun upper lower => chart.parent lower = some upper)

/-- One node is a proper ancestor of another one, or the node itself. -/
def IsAtOrAbove (chart : Chart) : NodeId → NodeId → Prop :=
  Relation.ReflTransGen (fun upper lower => chart.parent lower = some upper)

namespace IsPlanted

variable (tree : chart.IsPlanted)
include tree

theorem isWithin_iff_isAtOrAbove {upper lower : NodeId} :
    chart.isWithin lower upper = true ↔ chart.IsAtOrAbove upper lower := by
  constructor
  · intro within
    induction lower using Nat.strongRecOn with
    | ind lower ih =>
        rcases isWithin_iff.1 within with same | below
        · exact same ▸ .refl
        · obtain ⟨parent, isParent, above⟩ := tree.isDescendant_iff_parent.1 below
          exact (ih parent (tree.parent_lt isParent) above).tail isParent
  · intro above
    induction above with
    | refl => exact isWithin_refl upper
    | tail _ isParent ih =>
        exact isWithin_of_isDescendant (tree.isDescendant_iff_parent.2 ⟨_, isParent, ih⟩)

theorem isDescendant_iff_isAbove {upper lower : NodeId} :
    chart.isDescendant lower upper = true ↔ chart.IsAbove upper lower := by
  rw [tree.isDescendant_iff_parent, IsAbove, Relation.TransGen.tail'_iff]
  constructor
  · rintro ⟨parent, isParent, within⟩
    exact ⟨parent, tree.isWithin_iff_isAtOrAbove.1 within, isParent⟩
  · rintro ⟨parent, above, isParent⟩
    exact ⟨parent, isParent, tree.isWithin_iff_isAtOrAbove.2 above⟩

/-- Nodes within each other are the same. -/
theorem isWithin_antisymm {a b : NodeId} (lower : chart.isWithin a b = true)
    (upper : chart.isWithin b a = true) : a = b :=
  Nat.le_antisymm (tree.le_of_isWithin upper) (tree.le_of_isWithin lower)

/-! ## Where nodes meet -/

theorem commonAncestor_comm {a b : NodeId} (insideA : a < chart.nodeCount)
    (insideB : b < chart.nodeCount) : chart.commonAncestor a b = chart.commonAncestor b a := by
  obtain ⟨withinA, withinB, least⟩ := tree.commonAncestor_spec insideA insideB
  obtain ⟨otherB, otherA, otherLeast⟩ := tree.commonAncestor_spec insideB insideA
  exact tree.isWithin_antisymm (least _ otherA otherB) (otherLeast _ withinB withinA)

end IsPlanted

end Chart

end Statechart
