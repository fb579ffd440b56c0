import Mathlib.Data.List.Chain
import Statechart.Proofs.Chart.Ancestry
import Statechart.Proofs.Microstep.Exits

/-!
# Where routes turn

Two nodes meet in the lowest node at or above both.  The scope of a route is the
lowest node above both its ends, which is where they meet unless this is one of
them.  From the source to the scope a route goes up from parent to parent, from
there it comes down to the target in the same way.
-/

namespace Statechart

namespace Chart

variable {chart : Chart}

/-- A node at or above two nodes that has every other such node at or above it. -/
structure IsMeeting (chart : Chart) (a b meeting : NodeId) : Prop where
  above_first : chart.IsAtOrAbove meeting a
  above_second : chart.IsAtOrAbove meeting b
  lowest : ∀ upper, chart.IsAtOrAbove upper a → chart.IsAtOrAbove upper b →
    chart.IsAtOrAbove upper meeting

/-- Each node of a list is followed by its parent. -/
def Rises (chart : Chart) : List NodeId → Prop :=
  List.IsChain (fun lower upper => chart.parent lower = some upper)

/-- Each node of a list follows its parent. -/
def Falls (chart : Chart) : List NodeId → Prop :=
  List.IsChain (fun upper lower => chart.parent lower = some upper)

/-- A route between two nodes by way of the deepest node above both. -/
structure IsRoute (chart : Chart) (source target : NodeId) (route : Route) : Prop where
  above_source : chart.IsAbove route.scope source
  above_target : chart.IsAbove route.scope target
  deepest : ∀ upper, chart.IsAbove upper source → chart.IsAbove upper target →
    upper ≠ route.scope →
      chart.IsAbove upper route.scope ∧ (chart.node upper).depth < (chart.node route.scope).depth
  up_begins : route.up.head? = some source
  up_rises : chart.Rises (route.up ++ [route.scope])
  down_falls : chart.Falls (route.scope :: route.down)
  down_ends : route.down.getLast? = some target

theorem rises_cons_cons {lower upper : NodeId} {nodes : List NodeId} :
    chart.Rises (lower :: upper :: nodes) ↔
      chart.parent lower = some upper ∧ chart.Rises (upper :: nodes) :=
  List.isChain_cons_cons

/-- What falls from a node rises to it the other way round. -/
theorem falls_iff {scope : NodeId} {nodes : List NodeId} :
    chart.Falls (scope :: nodes) ↔ chart.Rises (nodes.reverse ++ [scope]) := by
  rw [← List.reverse_cons]
  exact List.isChain_reverse.symm

namespace IsPlanted

variable (tree : chart.IsPlanted)
include tree

theorem isMeeting_commonAncestor {a b : NodeId} (insideA : a < chart.nodeCount)
    (insideB : b < chart.nodeCount) : chart.IsMeeting a b (chart.commonAncestor a b) := by
  obtain ⟨withinA, withinB, least⟩ := tree.commonAncestor_spec insideA insideB
  simp only [tree.isWithin_iff_isAtOrAbove] at withinA withinB least
  exact ⟨withinA, withinB, least⟩

/-- A segment begins at its node and rises to the scope. -/
theorem segment_rises {node scope : NodeId} (below : chart.isDescendant node scope = true) :
    (chart.segment node scope).head? = some node ∧
      chart.Rises (chart.segment node scope ++ [scope]) := by
  induction node using Nat.strongRecOn with
  | ind node ih =>
      obtain ⟨parent, isParent, within⟩ := tree.isDescendant_iff_parent.1 below
      have apart : node ≠ scope := fun same => tree.not_isDescendant_self scope (same ▸ below)
      rw [tree.segment_of_parent isParent apart]
      refine ⟨rfl, ?_⟩
      split
      · next atScope =>
          rw [List.singleton_append, Rises, List.isChain_pair, ← atScope]
          exact isParent
      · next apartParent =>
          obtain ⟨begins, rises⟩ := ih parent (tree.parent_lt isParent)
            ((isWithin_iff.1 within).resolve_left apartParent)
          rw [List.cons_append, Rises, List.isChain_cons]
          refine ⟨fun next isNext => ?_, rises⟩
          rw [List.head?_append, begins] at isNext
          cases isNext
          exact isParent

/-- No other node above both ends of a route is as deep as its scope. -/
theorem routeScope_deepest {source target upper : NodeId} (aboveSource : chart.IsAbove upper source)
    (aboveTarget : chart.IsAbove upper target) (apart : upper ≠ chart.routeScope source target) :
    chart.IsAbove upper (chart.routeScope source target) ∧
      (chart.node upper).depth < (chart.node (chart.routeScope source target)).depth := by
  have within := tree.routeScope_isWithin (tree.isDescendant_iff_isAbove.2 aboveSource)
    (tree.isDescendant_iff_isAbove.2 aboveTarget)
  have below := (isWithin_iff.1 within).resolve_left (Ne.symm apart)
  exact ⟨tree.isDescendant_iff_isAbove.1 below, tree.depth_lt_of_isDescendant below⟩

theorem isRoute_route {source target : NodeId} (isSource : chart.IsProper source)
    (isTarget : chart.IsProper target) :
    chart.IsRoute source target (chart.route source target) := by
  obtain ⟨sourceBelow, targetBelow⟩ := tree.isDescendant_routeScope isSource isTarget
  obtain ⟨upBegins, upRises⟩ := tree.segment_rises sourceBelow
  obtain ⟨downBegins, downRises⟩ := tree.segment_rises targetBelow
  constructor
  case above_source => exact tree.isDescendant_iff_isAbove.1 sourceBelow
  case above_target => exact tree.isDescendant_iff_isAbove.1 targetBelow
  case deepest => exact fun upper => tree.routeScope_deepest
  case up_begins => exact upBegins
  case up_rises => exact upRises
  case down_falls =>
      rw [route, falls_iff, List.reverse_reverse]
      exact downRises
  case down_ends => exact (List.getLast?_reverse).trans downBegins

end IsPlanted

/-! ## The only routes -/

/-- What rises to a node begins below it. -/
theorem Rises.isAbove {first scope : NodeId} {rest : List NodeId}
    (rises : chart.Rises (first :: rest ++ [scope])) : chart.IsAbove scope first := by
  induction rest generalizing first with
  | nil =>
      obtain ⟨isParent, -⟩ := rises_cons_cons.1 rises
      exact .single isParent
  | cons next rest ih =>
      obtain ⟨isParent, rises⟩ := rises_cons_cons.1 rises
      exact (ih rises).tail isParent

namespace IsPlanted

variable (tree : chart.IsPlanted)
include tree

theorem not_isAbove_self (node : NodeId) : ¬ chart.IsAbove node node := fun above =>
  tree.not_isDescendant_self node (tree.isDescendant_iff_isAbove.2 above)

/-- What rises to a node does not come to it before its end. -/
theorem ne_of_rises {first scope : NodeId} {rest : List NodeId}
    (rises : chart.Rises (first :: rest ++ [scope])) : first ≠ scope := by
  rintro rfl
  exact tree.not_isAbove_self first rises.isAbove

/-- Nothing but a segment rises from a node to a scope. -/
theorem eq_segment_of_rises {first scope : NodeId} {rest : List NodeId}
    (rises : chart.Rises (first :: rest ++ [scope])) :
    first :: rest = chart.segment first scope := by
  induction rest generalizing first with
  | nil =>
      obtain ⟨isParent, -⟩ := rises_cons_cons.1 rises
      rw [tree.segment_of_parent isParent (tree.ne_of_rises rises), if_pos rfl]
  | cons next rest ih =>
      obtain ⟨isParent, further⟩ : _ ∧ chart.Rises (next :: rest ++ [scope]) :=
        rises_cons_cons.1 rises
      rw [tree.segment_of_parent isParent (tree.ne_of_rises rises),
        if_neg (tree.ne_of_rises further), ih further]

theorem eq_segment_of_head? {node scope : NodeId} {nodes : List NodeId}
    (begins : nodes.head? = some node) (rises : chart.Rises (nodes ++ [scope])) :
    nodes = chart.segment node scope := by
  obtain ⟨rest, rfl⟩ := List.head?_eq_some_iff.1 begins
  exact tree.eq_segment_of_rises rises

/-- There is one route between two nodes. -/
theorem isRoute_iff {source target : NodeId} {route : Route} (isSource : chart.IsProper source)
    (isTarget : chart.IsProper target) :
    chart.IsRoute source target route ↔ route = chart.route source target := by
  have isRoute := tree.isRoute_route isSource isTarget
  refine ⟨fun other => ?_, fun same => same ▸ isRoute⟩
  have sameScope : route.scope = chart.routeScope source target := by
    -- Each of two scopes would be deeper than the other one.
    by_contra apart
    obtain ⟨-, deeper⟩ := isRoute.deepest _ other.above_source other.above_target apart
    obtain ⟨-, shallower⟩ :=
      other.deepest _ isRoute.above_source isRoute.above_target (Ne.symm apart)
    exact Nat.lt_asymm deeper shallower
  have sameUp : route.up = chart.segment source (chart.routeScope source target) :=
    sameScope ▸ tree.eq_segment_of_head? other.up_begins other.up_rises
  have sameDown : route.down.reverse = chart.segment target (chart.routeScope source target) :=
    sameScope ▸ tree.eq_segment_of_head? (List.head?_reverse.trans other.down_ends)
      (falls_iff.1 other.down_falls)
  calc route
    _ = ⟨route.scope, route.up, route.down.reverse.reverse⟩ := by rw [List.reverse_reverse]
    _ = chart.route source target := by rw [sameScope, sameUp, sameDown, Chart.route]

end IsPlanted

/-- Any two nodes of a draft meet in their least common ancestor, in whichever order they are
given.  Between nodes other than the root there is one route that turns in the deepest node above
both, rises to it from its source and falls from it to its target. -/
theorem routes_turn_at_deepest_ancestor (drafted : chart.IsDrafted) :
    (∀ a b, a < chart.nodeCount → b < chart.nodeCount →
      chart.IsMeeting a b (chart.commonAncestor a b) ∧
        chart.commonAncestor a b = chart.commonAncestor b a) ∧
    ∀ source target, chart.IsProper source → chart.IsProper target →
      ∀ route, chart.IsRoute source target route ↔ route = chart.route source target := by
  have tree := drafted.isPlanted
  refine ⟨fun a b insideA insideB => ⟨?_, ?_⟩, fun source target isSource isTarget route => ?_⟩
  · exact tree.isMeeting_commonAncestor insideA insideB
  · exact tree.commonAncestor_comm insideA insideB
  · exact tree.isRoute_iff isSource isTarget

/-- From the bronze to the oil painting one turns in the gallery, from the room of the bronze to
the bronze in the wing around both. -/
theorem gallery_routes_turn :
    let chart := builtOrEmpty (gallery "marble")
    (chart.IsDrafted ∧ 8 < chart.nodeCount ∧ 6 < chart.nodeCount ∧ 5 < chart.nodeCount) ∧
    chart.IsMeeting 6 8 1 ∧ chart.IsRoute 6 8 ⟨1, [6, 5, 2], [7, 8]⟩ ∧
    chart.IsMeeting 5 6 5 ∧ chart.IsRoute 5 6 ⟨2, [5], [5, 6]⟩ := by
  have drafted : (builtOrEmpty (gallery "marble")).IsDrafted :=
    .defined (ofDefinition_eq_ok (by decide +kernel))
  have oil : 8 < (builtOrEmpty (gallery "marble")).nodeCount := by decide +kernel
  have bronze : 6 < (builtOrEmpty (gallery "marble")).nodeCount := by decide +kernel
  have room : 5 < (builtOrEmpty (gallery "marble")).nodeCount := by decide +kernel
  obtain ⟨meet, isRoute_iff⟩ := routes_turn_at_deepest_ancestor drafted
  obtain ⟨ofWings, -⟩ := meet 6 8 bronze oil
  obtain ⟨ofRoom, -⟩ := meet 5 6 room bronze
  have isGallery : (builtOrEmpty (gallery "marble")).commonAncestor 6 8 = 1 := by decide +kernel
  have isRoom : (builtOrEmpty (gallery "marble")).commonAncestor 5 6 = 5 := by decide +kernel
  rw [isGallery] at ofWings
  rw [isRoom] at ofRoom
  refine ⟨⟨drafted, oil, bronze, room⟩, ofWings, ?_, ofRoom, ?_⟩
  · exact (isRoute_iff 6 8 ⟨by decide, bronze⟩ ⟨by decide, oil⟩ _).2 (by decide +kernel)
  · exact (isRoute_iff 5 6 ⟨by decide, room⟩ ⟨by decide, bronze⟩ _).2 (by decide +kernel)

end Chart

end Statechart
