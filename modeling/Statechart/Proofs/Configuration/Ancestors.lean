import Statechart.Proofs.Chart.Ancestry
import Statechart.Proofs.Configuration.Closure

/-!
# Closures hold every ancestor

A closure is computed node by node, and each climb ends at the first ancestor that is
there already.  What has been computed is closed upward at any time, so a climb that
ends early has nothing left to add: all comes out as if every climb went up to the
root.  So a closure is determined by the nodes that it is of, however they are listed.
-/

namespace Statechart

namespace Chart

variable {chart : Chart}

/-- A node and its ancestors, nearest first, the root left out. -/
def chainFrom (chart : Chart) (node : NodeId) : List NodeId :=
  if node = rootId then [] else node :: chart.ancestors node

namespace IsPlanted

variable (tree : chart.IsPlanted)
include tree

theorem mem_chainFrom {node other : NodeId} :
    other ∈ chart.chainFrom node ↔ other ≠ rootId ∧ chart.isWithin node other = true := by
  unfold chainFrom
  split
  · next isRoot =>
      subst isRoot
      refine ⟨fun member => absurd member List.not_mem_nil, fun ⟨notRoot, within⟩ => ?_⟩
      exact absurd (tree.eq_root_of_isWithin within) notRoot
  · next notRoot =>
      rw [List.mem_cons, tree.mem_ancestors, isWithin_iff]
      constructor
      · rintro (rfl | ⟨below, apart⟩)
        · exact ⟨notRoot, .inl rfl⟩
        · exact ⟨apart, .inr below⟩
      · rintro ⟨apart, same | below⟩
        · exact .inl same.symm
        · exact .inr ⟨below, apart⟩

/-- To a set that is closed upward a climb adds the whole chain, wherever it ends. -/
theorem addActive_eq {set : NodeSet} (upward : chart.IsUpward set) (node : NodeId) :
    chart.addActive set node = set.insertAll (chart.chainFrom node) := by
  ext other
  rw [tree.mem_addActive upward, NodeSet.mem_insertAll, tree.mem_chainFrom]

theorem foldl_addActive_eq {set : NodeSet} (upward : chart.IsUpward set) (nodes : List NodeId) :
    nodes.foldl chart.addActive set = set.insertAll (nodes.flatMap chart.chainFrom) := by
  induction nodes generalizing set with
  | nil => rfl
  | cons node rest ih =>
      calc (node :: rest).foldl chart.addActive set
        _ = rest.foldl chart.addActive (chart.addActive set node) := List.foldl_cons ..
        _ = (chart.addActive set node).insertAll (rest.flatMap chart.chainFrom) :=
          ih (tree.isUpward_addActive upward node)
        _ = (set.insertAll (chart.chainFrom node)).insertAll (rest.flatMap chart.chainFrom) := by
          rw [tree.addActive_eq upward]
        _ = set.insertAll ((node :: rest).flatMap chart.chainFrom) := by
          rw [List.flatMap_cons, NodeSet.insertAll, NodeSet.insertAll, NodeSet.insertAll,
            List.foldl_append]

/-- No climb that ends early makes a difference. -/
theorem closure_eq (nodes : List NodeId) :
    chart.closure nodes = NodeSet.ofList (nodes.flatMap chart.chainFrom) :=
  tree.foldl_addActive_eq (isUpward_empty chart) nodes

theorem mem_closure_iff_isAbove {nodes : List NodeId} {other : NodeId} :
    other ∈ chart.closure nodes ↔
      other ≠ rootId ∧ (other ∈ nodes ∨ ∃ node ∈ nodes, chart.IsAbove other node) := by
  rw [tree.mem_closure]
  simp only [isWithin_iff, tree.isDescendant_iff_isAbove, and_or_left, exists_or,
    exists_eq_right]

/-- A closure is of the nodes that are listed, in whatever order and however often. -/
theorem closure_congr {nodes others : List NodeId} (same : ∀ node, node ∈ nodes ↔ node ∈ others) :
    chart.closure nodes = chart.closure others := by
  ext other
  simp only [tree.mem_closure, same]

end IsPlanted

/-- The closure of listed nodes of a draft holds those of them that are not the root and their
ancestors below the root, and nothing else.  It is what comes out if each climb goes up to the
root.  Lists of the same nodes have the same closure. -/
theorem closure_holds_all_ancestors (drafted : chart.IsDrafted) (nodes : List NodeId) :
    (∀ other, other ∈ chart.closure nodes ↔
      other ≠ rootId ∧ (other ∈ nodes ∨ ∃ node ∈ nodes, chart.IsAbove other node)) ∧
    chart.closure nodes = NodeSet.ofList (nodes.flatMap chart.chainFrom) ∧
    ∀ others, (∀ node, node ∈ nodes ↔ node ∈ others) →
      chart.closure others = chart.closure nodes := by
  have tree := drafted.isPlanted
  refine ⟨fun other => ?_, tree.closure_eq nodes, fun others same => ?_⟩
  · exact tree.mem_closure_iff_isAbove
  · exact (tree.closure_congr same).symm

/-- The bronze and the oil painting are listed behind the wing of the bronze, and the root with
them; the room of the bronze comes in because it is above the bronze. -/
theorem gallery_closure_is_complete :
    let chart := builtOrEmpty (gallery "marble")
    (chart.IsDrafted ∧ ∀ node : NodeId, node ∈ [2, 0, 6, 2, 8] ↔ node ∈ [8, 6, 2, 0]) ∧
    (chart.closure [2, 0, 6, 2, 8]).toList = [1, 2, 5, 6, 7, 8] ∧
    (∃ node ∈ [2, 0, 6, 2, 8], chart.IsAbove 5 node) ∧
    chart.closure [8, 6, 2, 0] = chart.closure [2, 0, 6, 2, 8] := by
  have forth : ([2, 0, 6, 2, 8] : List NodeId) ⊆ [8, 6, 2, 0] := by decide
  have back : ([8, 6, 2, 0] : List NodeId) ⊆ [2, 0, 6, 2, 8] := by decide
  have same : ∀ node : NodeId, node ∈ [2, 0, 6, 2, 8] ↔ node ∈ [8, 6, 2, 0] :=
    fun node => ⟨@forth node, @back node⟩
  have drafted : (builtOrEmpty (gallery "marble")).IsDrafted :=
    .defined (ofDefinition_eq_ok (by decide +kernel))
  have isRoomIn : 5 ∈ (builtOrEmpty (gallery "marble")).closure [2, 0, 6, 2, 8] := by
    decide +kernel
  obtain ⟨mem_iff, isComplete, alike⟩ := closure_holds_all_ancestors drafted [2, 0, 6, 2, 8]
  refine ⟨⟨drafted, same⟩, ?_, ?_, alike _ same⟩
  · rw [isComplete]
    decide +kernel
  · exact ((mem_iff 5).1 isRoomIn).2.resolve_left (by decide)

end Chart

end Statechart
