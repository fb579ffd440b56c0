import Mathlib.Data.List.Sort
import Statechart.Proofs.Chart.Descent
import Statechart.Configuration

/-!
# Orders of nodes

Sorting is insertion sort.  The entry order puts every node after all that are
above it, and the exit order before them.
-/

namespace Statechart

namespace Chart

variable {chart : Chart}

section Sorting

variable {Element : Type} (mayPrecede : Element → Element → Bool)

theorem insertOrdered_eq (element : Element) (list : List Element) :
    insertOrdered mayPrecede element list =
      list.orderedInsert (fun a b => mayPrecede a b = true) element := by
  induction list with
  | nil => rfl
  | cons first rest ih => rw [insertOrdered, ih, List.orderedInsert_cons]

theorem sortOrdered_eq (list : List Element) :
    sortOrdered mayPrecede list = list.insertionSort (fun a b => mayPrecede a b = true) := by
  induction list with
  | nil => rfl
  | cons first rest ih =>
      rw [List.insertionSort_cons, ← ih, ← insertOrdered_eq]
      rfl

/-- Sorting keeps the elements. -/
theorem sortOrdered_perm (list : List Element) : (sortOrdered mayPrecede list).Perm list := by
  rw [sortOrdered_eq]
  exact List.perm_insertionSort _ list

theorem mem_sortOrdered {list : List Element} {element : Element} :
    element ∈ sortOrdered mayPrecede list ↔ element ∈ list :=
  (sortOrdered_perm mayPrecede list).mem_iff

theorem nodup_sortOrdered {list : List Element} (distinct : list.Nodup) :
    (sortOrdered mayPrecede list).Nodup :=
  (sortOrdered_perm mayPrecede list).nodup_iff.2 distinct

/-- A total and transitive order holds between the elements of a sorted list. -/
theorem pairwise_sortOrdered (total : ∀ a b, mayPrecede a b = true ∨ mayPrecede b a = true)
    (transitive : ∀ a b c, mayPrecede a b = true → mayPrecede b c = true →
      mayPrecede a c = true) (list : List Element) :
    (sortOrdered mayPrecede list).Pairwise (fun a b => mayPrecede a b = true) := by
  rw [sortOrdered_eq]
  have : Std.Total (fun a b => mayPrecede a b = true) := ⟨total⟩
  have : IsTrans Element (fun a b => mayPrecede a b = true) := ⟨transitive⟩
  exact List.pairwise_insertionSort _ list

end Sorting

theorem precedesOutward_iff {a b : NodeId} :
    chart.precedesOutward a b = true ↔
      (chart.node a).depth < (chart.node b).depth ∨
        (chart.node a).depth = (chart.node b).depth ∧
          (chart.node a).order ≤ (chart.node b).order := by
  simp [precedesOutward]

theorem precedesOutward_total (a b : NodeId) :
    chart.precedesOutward a b = true ∨ chart.precedesOutward b a = true := by
  rw [precedesOutward_iff, precedesOutward_iff]
  omega

theorem precedesOutward_trans (a b c : NodeId) (first : chart.precedesOutward a b = true)
    (second : chart.precedesOutward b c = true) : chart.precedesOutward a c = true := by
  rw [precedesOutward_iff] at first second ⊢
  omega

namespace IsTree

variable (tree : chart.IsTree)
include tree

theorem not_precedesOutward {node ancestor : NodeId}
    (below : chart.isDescendant node ancestor = true) :
    ¬ chart.precedesOutward node ancestor = true := by
  have deeper := tree.depth_lt_of_isDescendant below
  rw [precedesOutward_iff]
  omega

/-- In entry order no node comes before one that is above it. -/
theorem pairwise_inEntryOrder (nodes : List NodeId) :
    (chart.inEntryOrder nodes).Pairwise (fun a b => ¬ chart.isDescendant a b = true) :=
  (pairwise_sortOrdered _ precedesOutward_total precedesOutward_trans nodes).imp
    fun precedes below => tree.not_precedesOutward below precedes

/-- In exit order no node comes before one that is below it. -/
theorem pairwise_inExitOrder (nodes : List NodeId) :
    (chart.inExitOrder nodes).Pairwise (fun a b => ¬ chart.isDescendant b a = true) :=
  (pairwise_sortOrdered _ (fun a b => precedesOutward_total b a)
    (fun a b c first second => precedesOutward_trans c b a second first) nodes).imp
    fun precedes below => tree.not_precedesOutward below precedes

end IsTree

end Chart

end Statechart
