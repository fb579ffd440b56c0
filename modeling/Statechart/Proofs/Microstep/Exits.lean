import Statechart.Microstep.Resolution
import Statechart.Proofs.Microstep.Expansion

/-!
# What routes leave

A route turns in a scope above its source and its target.  It leaves the active
nodes below the child of the scope on the source's side, and all contents of a
parallel of which it leaves a region.  So a node that stays although a leaf below
it is left has a target below it, and the leaves that stay are compatible with
the targets of transitions that start at active nodes.
-/

namespace Statechart

namespace Chart

variable {chart : Chart}

namespace IsPlanted

variable (tree : chart.IsPlanted)
include tree

/-! ## Segments -/

/-- A segment goes up by one node unless it is at its end. -/
theorem segment_of_parent {node scope parent : NodeId} (isParent : chart.parent node = some parent)
    (apart : node ≠ scope) :
    chart.segment node scope =
      node :: (if parent = scope then [] else chart.segment parent scope) := by
  have notRoot := tree.ne_root_of_parent isParent
  rw [segment, List.takeWhile_cons, tree.lineage_of_parent isParent]
  simp only [bne_iff_ne, ne_eq, apart, notRoot, not_false_eq_true, and_self, if_true,
    Bool.and_eq_true]
  split
  · next same => simp [same]
  · rfl

theorem mem_segment {node scope member : NodeId} (below : chart.isDescendant node scope = true) :
    member ∈ chart.segment node scope ↔
      chart.isWithin node member = true ∧ chart.isDescendant member scope = true := by
  induction node using Nat.strongRecOn with
  | ind node ih =>
      obtain ⟨parent, isParent, within⟩ := tree.isDescendant_iff_parent.1 below
      have apart : node ≠ scope := fun same => tree.not_isDescendant_self scope (same ▸ below)
      have step : chart.isWithin node member = true ↔
          member = node ∨ chart.isWithin parent member = true := by
        rw [isWithin_iff, tree.isDescendant_iff_parent, isParent, eq_comm]
        simp
      rw [tree.segment_of_parent isParent apart, List.mem_cons, step, or_and_right]
      apply or_congr ⟨fun same => ⟨same, same ▸ below⟩, And.left⟩
      split
      · next atScope =>
          subst atScope
          refine ⟨fun member => absurd member List.not_mem_nil, fun ⟨above, lower⟩ => ?_⟩
          exact absurd (tree.isDescendant_of_isWithin_of_isDescendant above lower)
            (tree.not_isDescendant_self parent)
      · next apartParent =>
          exact ih parent (tree.parent_lt isParent)
            ((isWithin_iff.1 within).resolve_left apartParent)

/-- A segment ends at the child of its scope. -/
theorem exists_getLast?_segment {node scope : NodeId}
    (below : chart.isDescendant node scope = true) :
    ∃ top, (chart.segment node scope).getLast? = some top ∧ chart.parent top = some scope ∧
      chart.isWithin node top = true := by
  induction node using Nat.strongRecOn with
  | ind node ih =>
      obtain ⟨parent, isParent, within⟩ := tree.isDescendant_iff_parent.1 below
      have apart : node ≠ scope := fun same => tree.not_isDescendant_self scope (same ▸ below)
      rw [tree.segment_of_parent isParent apart]
      split
      · next atScope => exact ⟨node, rfl, atScope ▸ isParent, isWithin_refl node⟩
      · next apartParent =>
          obtain ⟨top, isLast, isTop, above⟩ := ih parent (tree.parent_lt isParent)
            ((isWithin_iff.1 within).resolve_left apartParent)
          refine ⟨top, ?_, isTop, tree.isWithin_trans
            (isWithin_of_isDescendant (tree.isDescendant_of_parent isParent)) above⟩
          rw [List.getLast?_cons, isLast]
          rfl

/-! ## Scopes -/

/-- The scope of a route is above its target, wherever the route begins. -/
theorem target_isDescendant_routeScope (source : NodeId) {target : NodeId}
    (isTarget : chart.IsProper target) :
    chart.isDescendant target (chart.routeScope source target) = true := by
  have above : chart.isWithin target (chart.commonAncestor source target) = true := by
    rw [commonAncestor]
    cases found : (source :: chart.lineage source).find? (chart.isWithin target ·) with
    | none => exact tree.isWithin_root isTarget.2
    | some meeting =>
        rw [Option.getD_some]
        exact List.find?_some found
  rw [routeScope]
  split
  · cases isParent : chart.parent (chart.commonAncestor source target) with
    | none => exact tree.isDescendant_root isTarget.1 isTarget.2
    | some parent =>
        exact tree.isDescendant_of_isWithin_of_isDescendant above
          (tree.isDescendant_of_parent isParent)
  · next notEnd =>
      exact (isWithin_iff.1 above).resolve_left fun same => notEnd (.inr same.symm)

/-- The scope of a route is above both its ends. -/
theorem isDescendant_routeScope {source target : NodeId} (isSource : chart.IsProper source)
    (isTarget : chart.IsProper target) :
    chart.isDescendant source (chart.routeScope source target) = true ∧
      chart.isDescendant target (chart.routeScope source target) = true := by
  refine ⟨?_, tree.target_isDescendant_routeScope source isTarget⟩
  obtain ⟨aboveSource, -, -⟩ := tree.commonAncestor_spec isSource.2 isTarget.2
  rw [routeScope]
  split
  · next isEnd =>
      have isProper : chart.IsProper (chart.commonAncestor source target) := by
        rcases isEnd with same | same
        · exact same.symm ▸ isSource
        · exact same.symm ▸ isTarget
      obtain ⟨parent, isParent, -⟩ := tree.exists_parent _ isProper.1 isProper.2
      rw [isParent, Option.getD_some]
      exact tree.isDescendant_of_isWithin_of_isDescendant aboveSource
        (tree.isDescendant_of_parent isParent)
  · next notEnd =>
      exact (isWithin_iff.1 aboveSource).resolve_left fun same => notEnd (.inl same.symm)

/-- The scope of a route is within all that is above both its ends. -/
theorem routeScope_isWithin {source target upper : NodeId}
    (sourceBelow : chart.isDescendant source upper = true)
    (targetBelow : chart.isDescendant target upper = true) :
    chart.isWithin (chart.routeScope source target) upper = true := by
  obtain ⟨-, -, least⟩ := tree.commonAncestor_spec
    (tree.lt_nodeCount_of_isDescendant sourceBelow) (tree.lt_nodeCount_of_isDescendant targetBelow)
  rw [routeScope]
  split
  · next isEnd =>
      -- An end lies below, so its parent lies within.
      have below : chart.isDescendant (chart.commonAncestor source target) upper = true := by
        rcases isEnd with same | same
        · exact same.symm ▸ sourceBelow
        · exact same.symm ▸ targetBelow
      obtain ⟨parent, isParent, parentWithin⟩ := tree.isDescendant_iff_parent.1 below
      rw [isParent]
      exact parentWithin
  · exact least upper (isWithin_of_isDescendant sourceBelow) (isWithin_of_isDescendant targetBelow)

end IsPlanted

/-! ## Exits -/

/-- A node that a route leaves. -/
def IsLeftBy (chart : Chart) (route : Route) (node : NodeId) : Prop :=
  (∃ top, route.topExited? = some top ∧ chart.isWithin node top = true) ∨
    ∃ region ∈ route.regionsExited chart, ∃ parallel, chart.parent region = some parallel ∧
      chart.isDescendant node parallel = true

theorem mem_addExited {active exited : NodeSet} {route : Route} {node : NodeId} :
    node ∈ chart.addExited active exited route ↔
      node ∈ exited ∨ node ∈ active ∧ chart.IsLeftBy route node := by
  rw [addExited, NodeSet.mem_insertAll, NodeSet.mem_insertAll, or_assoc, IsLeftBy, and_or_left]
  refine or_congr Iff.rfl (or_congr ?_ ?_)
  · cases route.topExited? with
    | none => simp
    | some top => simp [NodeSet.mem_toList]
  · simp only [List.mem_flatMap]
    constructor
    · rintro ⟨region, isRegion, member⟩
      cases isParent : chart.parent region with
      | none => simp [isParent] at member
      | some parallel =>
          simp only [isParent, List.mem_filter, NodeSet.mem_toList] at member
          exact ⟨member.1, region, isRegion, parallel, isParent, member.2⟩
    · rintro ⟨isActive, region, isRegion, parallel, isParent, below⟩
      refine ⟨region, isRegion, ?_⟩
      simp only [isParent, List.mem_filter, NodeSet.mem_toList]
      exact ⟨isActive, below⟩

theorem mem_exitedBy {active : NodeSet} {routes : List Route} {node : NodeId} :
    node ∈ chart.exitedBy active routes ↔
      node ∈ active ∧ ∃ route ∈ routes, chart.IsLeftBy route node := by
  suffices general : ∀ exited : NodeSet, node ∈ routes.foldl (chart.addExited active) exited ↔
      node ∈ exited ∨ node ∈ active ∧ ∃ route ∈ routes, chart.IsLeftBy route node by
    rw [exitedBy, general]
    exact or_iff_right (NodeSet.not_mem_empty node)
  induction routes with
  | nil => simp
  | cons route rest ih =>
      intro exited
      rw [List.foldl_cons, ih, mem_addExited, or_assoc, ← and_or_left]
      simp only [List.mem_cons, exists_eq_or_imp]

theorem IsTree.isLeftBy_of_isDescendant (tree : chart.IsTree) {route : Route}
    {node ancestor : NodeId} (left : chart.IsLeftBy route ancestor)
    (below : chart.isDescendant node ancestor = true) : chart.IsLeftBy route node := by
  rcases left with ⟨top, isTop, within⟩ | ⟨region, isRegion, parallel, isParent, lower⟩
  · exact .inl ⟨top, isTop,
      tree.isWithin_trans (isWithin_of_isDescendant below) within⟩
  · exact .inr ⟨region, isRegion, parallel, isParent,
      tree.isDescendant_trans_isWithin below (isWithin_of_isDescendant lower)⟩

namespace IsTree

variable (tree : chart.IsTree)
include tree

theorem exists_topExited_route {source target : NodeId} (isSource : chart.IsProper source)
    (isTarget : chart.IsProper target) :
    ∃ top, (chart.route source target).topExited? = some top ∧
      chart.parent top = some (chart.routeScope source target) ∧
      chart.isWithin source top = true :=
  tree.exists_getLast?_segment (tree.isDescendant_routeScope isSource isTarget).1

theorem mem_regionsExited_route {source target region : NodeId}
    (isSource : chart.IsProper source) (isTarget : chart.IsProper target) :
    region ∈ (chart.route source target).regionsExited chart ↔
      (chart.isWithin source region = true ∧
        chart.isDescendant region (chart.routeScope source target) = true) ∧
      chart.isRegion region = true := by
  rw [Route.regionsExited, List.mem_filter]
  exact and_congr_left fun _ =>
    tree.mem_segment (tree.isDescendant_routeScope isSource isTarget).1

/-- A node that stays although a node within it is left has the target below it. -/
theorem isDescendant_target_of_stays {source target node leaf : NodeId}
    (isSource : chart.IsProper source) (isTarget : chart.IsProper target)
    (above : chart.isWithin leaf node = true)
    (left : chart.IsLeftBy (chart.route source target) leaf)
    (stays : ¬ chart.IsLeftBy (chart.route source target) node) :
    chart.isDescendant target node = true := by
  obtain ⟨sourceBelow, targetBelow⟩ := tree.isDescendant_routeScope isSource isTarget
  obtain ⟨top, isTop, isParent, aboveSource⟩ := tree.exists_topExited_route isSource isTarget
  have notBelowTop : ¬ chart.isWithin node top = true := fun within =>
    stays (.inl ⟨top, isTop, within⟩)
  suffices scopeWithin :
      chart.isWithin (chart.routeScope source target) node = true from
    tree.isDescendant_trans_isWithin targetBelow scopeWithin
  rcases left with ⟨other, isOther, within⟩ | ⟨region, isRegion, parallel, ofRegion, below⟩
  · -- The leaf is below the top of the route, so the top is below the node.
    have same : other = top := Option.some.inj (isOther.symm.trans isTop)
    subst same
    have lower := (tree.isWithin_or_isWithin above within).resolve_left notBelowTop
    have proper : chart.isDescendant other node = true := by
      refine (isWithin_iff.1 lower).resolve_left fun same => notBelowTop ?_
      rw [same]
      exact isWithin_refl node
    obtain ⟨parent, isOfOther, parentWithin⟩ := tree.isDescendant_iff_parent.1 proper
    rw [isParent] at isOfOther
    exact Option.some.inj isOfOther ▸ parentWithin
  · -- The leaf is below a parallel that is left, so the parallel is within the node.
    obtain ⟨⟨regionAbove, regionBelow⟩, -⟩ :=
      (tree.mem_regionsExited_route isSource isTarget).1 isRegion
    have notBelow : ¬ chart.isDescendant node parallel = true := fun lower =>
      stays (.inr ⟨region, isRegion, parallel, ofRegion, lower⟩)
    have parallelWithin : chart.isWithin parallel node = true := by
      rcases tree.isWithin_or_isWithin above (isWithin_of_isDescendant below) with lower | lower
      · exact isWithin_iff.2 (.inl ((isWithin_iff.1 lower).resolve_right notBelow).symm)
      · exact lower
    have parallelBelow : chart.isWithin parallel (chart.routeScope source target) = true := by
      obtain ⟨parent, isOfRegion, within⟩ := tree.isDescendant_iff_parent.1 regionBelow
      rw [ofRegion] at isOfRegion
      exact Option.some.inj isOfRegion ▸ within
    rcases tree.isWithin_or_isWithin parallelBelow parallelWithin with lower | lower
    · exact lower
    · rcases isWithin_iff.1 lower with same | proper
      · exact same ▸ isWithin_refl _
      · -- Otherwise the node would lie on the way up and be left itself.
        obtain ⟨child, isChild, within⟩ := tree.exists_child_above proper
        have sourceWithin : chart.isWithin source node = true :=
          tree.isWithin_trans regionAbove (tree.isWithin_trans
            (isWithin_of_isDescendant (tree.isDescendant_of_parent ofRegion)) parallelWithin)
        have sameTop := tree.eq_of_siblings_above isChild isParent
          (tree.isWithin_trans sourceWithin within) aboveSource
        exact absurd (sameTop ▸ within) notBelowTop

end IsTree

theorem IsLegalConfiguration.isProper (tree : chart.IsTree) {leaves : NodeSet}
    (legal : chart.IsLegalConfiguration leaves) {node : NodeId}
    (isActive : node ∈ chart.active leaves) : chart.IsProper node :=
  have isNode := tree.isNode_of_mem_active legal.atomic isActive
  ⟨isNode.1, isNode.2.1⟩

/-- Whatever is active below the scope of a route from an active node is left. -/
theorem IsLegalConfiguration.isLeftBy_of_isDescendant_routeScope (tree : chart.IsTree)
    {leaves : NodeSet} (legal : chart.IsLegalConfiguration leaves) {source target node : NodeId}
    (isSource : source ∈ chart.active leaves) (isTarget : chart.IsProper target)
    (isActive : node ∈ chart.active leaves)
    (below : chart.isDescendant node (chart.routeScope source target) = true) :
    chart.IsLeftBy (chart.route source target) node := by
  have properSource := legal.isProper tree isSource
  obtain ⟨top, isTop, isParent, aboveSource⟩ := tree.exists_topExited_route properSource isTarget
  obtain ⟨child, isChild, within⟩ := tree.exists_child_above below
  by_cases same : child = top
  · exact .inl ⟨top, isTop, same ▸ within⟩
  · -- Two children of the scope are active, so it is a parallel that is left.
    have isParallel := legal.areCompatible tree isActive isSource _
      ⟨child, top, same, isChild, isParent, within, aboveSource⟩
    have topActive : top ∈ chart.active leaves := by
      rcases isWithin_iff.1 aboveSource with isSame | lower
      · exact isSame ▸ isSource
      · exact (tree.isUpward_active leaves).mem_of_isDescendant source top isSource lower
          (tree.ne_root_of_parent isParent)
    have isRegion : chart.isRegion top = true := by
      rw [isRegion, (tree.isNode_of_mem_active legal.atomic topActive).2.2, isParent]
      exact isParallel
    exact .inr ⟨top, (tree.mem_regionsExited_route properSource isTarget).2
      ⟨⟨aboveSource, tree.isDescendant_of_parent isParent⟩, isRegion⟩, _, isParent, below⟩

/-- A leaf that stays is compatible with the target of a route from an active
node. -/
theorem IsExecutable.areCompatible_of_stays (executable : chart.IsExecutable) {leaves : NodeSet}
    (legal : chart.IsLegalConfiguration leaves) {source target leaf : NodeId}
    (isSource : source ∈ chart.active leaves) (isTarget : chart.IsProper target)
    (isLeaf : leaf ∈ leaves) (stays : ¬ chart.IsLeftBy (chart.route source target) leaf) :
    chart.AreCompatible leaf target := by
  have tree := executable.tree
  have properSource := legal.isProper tree isSource
  have isActive := mem_active_of_mem tree legal.atomic isLeaf
  have childless : ∀ {node : NodeId}, ¬ chart.isDescendant node leaf = true := fun below =>
    tree.not_isDescendant_of_isAtomic (legal.atomic leaf isLeaf)
      (executable.histories_eq_nil leaf (legal.atomic leaf isLeaf)) below
  obtain ⟨sourceBelow, targetBelow⟩ := tree.isDescendant_routeScope properSource isTarget
  have notBelow : ¬ chart.isDescendant leaf (chart.routeScope source target) = true := fun below =>
    stays (legal.isLeftBy_of_isDescendant_routeScope tree isSource isTarget isActive below)
  have apart : leaf ≠ chart.routeScope source target := by
    intro same
    exact childless (same ▸ sourceBelow)
  have notWithin : ¬ chart.isWithin leaf (chart.routeScope source target) = true := fun within =>
    (isWithin_iff.1 within).elim apart notBelow
  have notAbove : ¬ chart.isWithin (chart.routeScope source target) leaf = true := fun within =>
    (isWithin_iff.1 within).elim (fun same => apart same.symm) childless
  have properLeaf := legal.isProper tree isActive
  have notRoot : chart.routeScope source target ≠ rootId := by
    intro isRoot
    exact notWithin (isRoot ▸ tree.isWithin_root properLeaf.2)
  have scopeActive := (tree.isUpward_active leaves).mem_of_isDescendant source _ isSource
    sourceBelow notRoot
  exact tree.areCompatible_lower (legal.areCompatible tree isActive scopeActive) properLeaf.2
    (legal.isProper tree scopeActive).2 notWithin notAbove (isWithin_refl leaf)
    (isWithin_of_isDescendant targetBelow)

end Chart

end Statechart
