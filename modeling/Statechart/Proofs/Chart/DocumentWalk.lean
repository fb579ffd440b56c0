import Mathlib.Data.List.Flatten
import Statechart.Proofs.Chart.Naming

/-!
# The walk over the document

The walk over the document meets every node but the histories once, and a walk that starts
at one of its nodes is one piece of it.  So a node comes before its descendants, and all
that is within a child comes before what is within a later one.
-/

namespace Statechart

namespace Chart

variable {chart : Chart}

namespace IsPlanted

variable (tree : chart.IsPlanted)
include tree

theorem nodup_documentWalk : chart.documentWalk.Nodup :=
  tree.nodup_walk (fun _ _ isChild => tree.parent_of_mem_children isChild) tree.nodup_children
    chart.nodeCount rootId

theorem not_isHistory_root : (chart.node rootId).isHistory = false := by
  have isRoot := tree.isRoot_root
  cases kind : (chart.node rootId).kind <;> simp_all [Node.isRoot, Node.isHistory]

/-- The walk over the document meets no history. -/
theorem isOwner_of_mem_documentWalk {id : NodeId} (walked : id ∈ chart.documentWalk) :
    id < chart.nodeCount ∧ (chart.node id).isHistory = false := by
  obtain ⟨earlier, later, split⟩ := List.append_of_mem walked
  rcases eq_or_exists_step_of_walk_eq split with rfl | ⟨parent, -, isChild⟩
  · exact ⟨tree.nonempty, tree.not_isHistory_root⟩
  · obtain ⟨isParent, regular⟩ := (tree.mem_children parent id).1 isChild
    exact ⟨lt_nodeCount_of_parent isParent, regular⟩

end IsPlanted

/-! ## Pieces of the walk -/

section Walk

variable {steps : NodeId → List NodeId} {node next : NodeId}

theorem walk_sublist_succ (limit : Nat) (node : NodeId) :
    (walk steps limit node).Sublist (walk steps (limit + 1) node) := by
  induction limit generalizing node with
  | zero => exact (List.nil_sublist _).cons_cons node
  | succ limit ih => exact (List.Sublist.flatMap_right _ fun next _ => ih next).cons_cons node

theorem walk_sublist_mono {limit higher : Nat} (lower : limit ≤ higher) (node : NodeId) :
    (walk steps limit node).Sublist (walk steps higher node) := by
  induction lower with
  | refl => exact .refl _
  | step _ ih => exact ih.trans (walk_sublist_succ _ node)

theorem walk_sublist_of_step (isStep : next ∈ steps node) (limit : Nat) :
    (walk steps limit next).Sublist (walk steps (limit + 1) node) := by
  have piece : ([next].flatMap (walk steps limit)).Sublist ((steps node).flatMap (walk steps limit)) :=
    (List.singleton_sublist.2 isStep).flatMap _
  rw [List.flatMap_singleton] at piece
  exact piece.cons node

end Walk

namespace IsTree

variable (tree : chart.IsTree)
include tree

/-- The walk from a node goes deep enough to be a piece of the walk over the document. -/
theorem walk_sublist_documentWalk {id : NodeId} (inside : id < chart.nodeCount)
    (regular : (chart.node id).isHistory = false) :
    (walk (fun node => (chart.node node).children) (chart.nodeCount - id) id).Sublist
      chart.documentWalk := by
  induction id using Nat.strongRecOn with
  | ind id ih =>
      by_cases isRoot : id = rootId
      · subst isRoot
        exact .refl _
      · obtain ⟨parent, isParent, below⟩ := tree.exists_parent id isRoot inside
        have isChild := (tree.mem_children parent id).2 ⟨isParent, regular⟩
        have deeper : chart.nodeCount - id + 1 ≤ chart.nodeCount - parent :=
          Nat.sub_lt_sub_left (Nat.lt_trans below inside) below
        refine ((walk_sublist_of_step isChild _).trans (walk_sublist_mono deeper parent)).trans ?_
        exact ih parent below (Nat.lt_trans below inside)
          (tree.not_isHistory_parent id parent isParent)

/-- The walk over the document reaches all nodes but the histories. -/
theorem mem_documentWalk {id : NodeId} (inside : id < chart.nodeCount)
    (regular : (chart.node id).isHistory = false) : id ∈ chart.documentWalk :=
  (tree.walk_sublist_documentWalk inside regular).subset mem_walk_self

/-- The walk from a node reaches all regular nodes in its subtree. -/
theorem mem_walk_of_isWithin {id low : NodeId} (regular : (chart.node low).isHistory = false)
    (within : chart.isWithin low id = true) :
    low ∈ walk (fun node => (chart.node node).children) (low - id) id := by
  induction low using Nat.strongRecOn with
  | ind low ih =>
      rcases isWithin_iff.1 within with rfl | below
      · exact mem_walk_self
      · obtain ⟨parent, isParent, above⟩ := tree.isDescendant_iff_parent.1 below
        have parentBelow := tree.parent_lt isParent
        have reached := ih parent parentBelow (tree.not_isHistory_parent low parent isParent) above
        have isChild := (tree.mem_children parent low).2 ⟨isParent, regular⟩
        exact mem_walk_mono (mem_walk_succ reached isChild)
          (Nat.sub_lt_sub_right (tree.le_of_isWithin above) parentBelow)

/-- The walk over the document comes to a node before it comes to its descendants. -/
theorem pair_sublist_of_isDescendant {id low : NodeId}
    (regular : (chart.node id).isHistory = false) (regularLow : (chart.node low).isHistory = false)
    (below : chart.isDescendant low id = true) : [id, low].Sublist chart.documentWalk := by
  have insideLow := tree.lt_nodeCount_of_isDescendant below
  have higher := tree.lt_of_isDescendant below
  have inside := Nat.lt_trans higher insideLow
  have piece := tree.walk_sublist_documentWalk inside regular
  have reached := mem_walk_mono
    (tree.mem_walk_of_isWithin regularLow (isWithin_of_isDescendant below))
    (Nat.sub_le_sub_right (Nat.le_of_lt insideLow) id)
  obtain ⟨limit, isLimit⟩ := Nat.exists_eq_add_one.2 (Nat.sub_pos_of_lt inside)
  rw [isLimit] at piece reached
  have later := (List.mem_cons.1 reached).resolve_left (Nat.ne_of_gt higher)
  exact ((List.singleton_sublist.2 later).cons_cons id).trans piece

/-- It comes to all that is within a child before it comes to what is within a later one. -/
theorem pair_sublist_of_siblings {parent left right lowLeft lowRight : NodeId}
    (siblings : [left, right].Sublist (chart.node parent).children)
    (regularLeft : (chart.node lowLeft).isHistory = false)
    (regularRight : (chart.node lowRight).isHistory = false)
    (withinLeft : chart.isWithin lowLeft left = true)
    (withinRight : chart.isWithin lowRight right = true)
    (insideLeft : lowLeft < chart.nodeCount) (insideRight : lowRight < chart.nodeCount) :
    [lowLeft, lowRight].Sublist chart.documentWalk := by
  have isParent : ∀ {child}, child ∈ [left, right] → chart.parent child = some parent :=
    fun isChild => tree.parent_of_mem_children (siblings.subset isChild)
  have ofLeft := isParent List.mem_cons_self
  have ofRight := isParent (List.mem_cons_of_mem _ List.mem_cons_self)
  have piece := tree.walk_sublist_documentWalk (tree.parent_lt_nodeCount ofLeft)
    (tree.not_isHistory_parent left parent ofLeft)
  obtain ⟨limit, isLimit⟩ :=
    Nat.exists_eq_add_one.2 (Nat.sub_pos_of_lt (tree.parent_lt_nodeCount ofLeft))
  rw [isLimit] at piece
  have reaches : ∀ {child low}, chart.parent child = some parent → low < chart.nodeCount →
      (chart.node low).isHistory = false → chart.isWithin low child = true →
      low ∈ walk (fun node => (chart.node node).children) limit child := by
    intro child low isChild inside regular within
    have below := tree.parent_lt isChild
    have higher := Nat.le_trans (Nat.le_of_lt below) (tree.le_of_isWithin within)
    have near : low - child < limit + 1 := isLimit ▸ Nat.lt_of_le_of_lt
      (Nat.sub_le_sub_left (Nat.le_of_lt below) low) (Nat.sub_lt_sub_right higher inside)
    exact mem_walk_mono (tree.mem_walk_of_isWithin regular within) (Nat.le_of_lt_succ near)
  have pieces : [lowLeft, lowRight].Sublist ([left, right].flatMap
      (walk (fun node => (chart.node node).children) limit)) := by
    rw [List.flatMap_cons, List.flatMap_singleton]
    exact (List.singleton_sublist.2 (reaches ofLeft insideLeft regularLeft withinLeft)).append
      (List.singleton_sublist.2 (reaches ofRight insideRight regularRight withinRight))
  exact (pieces.trans ((siblings.flatMap _).cons parent)).trans piece

end IsTree

end Chart

end Statechart
