import Statechart.Proofs.Microstep.Exits

/-!
# What is to be expanded

Open are the targets of the transitions and the uncovered siblings of entered
regions; the seeds are the open nodes that have neither an open node nor a
remaining leaf below them.  So wherever a node is open, a seed or a remaining
leaf is found at the bottom.
-/

namespace Statechart

namespace Chart

variable {chart : Chart}

theorem mem_appendNew {nodes : List NodeId} {added node : NodeId} :
    node ∈ appendNew nodes added ↔ node ∈ nodes ∨ node = added := by
  rw [appendNew]
  split
  · next present =>
      rw [List.contains_iff_mem] at present
      exact ⟨.inl, fun either => either.elim id fun same => same ▸ present⟩
  · rw [List.mem_append, List.mem_singleton]

theorem mem_foldl_appendNew {start nodes : List NodeId} {node : NodeId} :
    node ∈ nodes.foldl appendNew start ↔ node ∈ start ∨ node ∈ nodes := by
  induction nodes generalizing start with
  | nil => simp
  | cons first rest ih => rw [List.foldl_cons, ih, mem_appendNew, or_assoc, List.mem_cons]

theorem mem_targetsOf {transitions : List TransitionId} {node : NodeId} :
    node ∈ chart.targetsOf transitions ↔
      ∃ id ∈ transitions, node ∈ (chart.transition id).targets := by
  rw [targetsOf, mem_foldl_appendNew, List.mem_flatMap]
  exact or_iff_right List.not_mem_nil

theorem mem_targetsOf_singleton {id : TransitionId} {node : NodeId} :
    node ∈ chart.targetsOf [id] ↔ node ∈ (chart.transition id).targets := by
  simp [mem_targetsOf]

theorem mem_routesOf {transitions : List TransitionId} {route : Route} :
    route ∈ chart.routesOf transitions ↔
      ∃ id ∈ transitions, ∃ target ∈ (chart.transition id).targets,
        chart.route (chart.transition id).source target = route := by
  simp only [routesOf, List.mem_flatMap, List.mem_map]

/-- What may have to be expanded, before nodes with something below them are left
out. -/
def openNodes (chart : Chart) (transitions : List TransitionId) (residual : NodeSet)
    (routes : List Route) : List NodeId :=
  let targets := chart.targetsOf transitions
  let covered := chart.closure (residual.toList ++ targets)
  let crossing := routes.filter (Route.isCrossRegion chart)
  (crossing.flatMap (chart.uncoveredSiblings covered)).foldl appendNew targets

/-- A child of a parallel that holds one of some nodes, without holding any of
them itself. -/
def IsUncovered (chart : Chart) (Committed : NodeId → Prop) (region : NodeId) : Prop :=
  ∃ parallel, chart.parent region = some parallel ∧ (chart.node parallel).isParallel = true ∧
    (∃ held, Committed held ∧ chart.isWithin held parallel = true) ∧
    ∀ node, Committed node → ¬ chart.isWithin node region = true

section Seeds

variable {transitions : List TransitionId} {residual : NodeSet} {routes : List Route}
variable {node : NodeId}

theorem mem_seeds :
    node ∈ chart.seeds transitions residual routes ↔
      node ∈ chart.openNodes transitions residual routes ∧
        ∀ pin, pin ∈ chart.openNodes transitions residual routes ∨ pin ∈ residual →
          ¬ chart.isDescendant pin node = true := by
  have unfolded : chart.seeds transitions residual routes =
      (chart.openNodes transitions residual routes).filter (fun seed =>
        !(chart.openNodes transitions residual routes ++ residual.toList).any
          (fun pin => chart.isDescendant pin seed)) := rfl
  rw [unfolded, List.mem_filter]
  simp only [Bool.not_eq_true', List.any_eq_false, List.mem_append, NodeSet.mem_toList]

theorem mem_openNodes_of_target (isTarget : node ∈ chart.targetsOf transitions) :
    node ∈ chart.openNodes transitions residual routes :=
  mem_foldl_appendNew.2 (.inl isTarget)

/-- Some member of a list with a property is the highest one. -/
theorem exists_highest {nodes : List NodeId} {Wanted : NodeId → Prop}
    (some : ∃ node ∈ nodes, Wanted node) :
    ∃ node ∈ nodes, Wanted node ∧ ∀ other ∈ nodes, Wanted other → other ≤ node := by
  classical
  induction nodes with
  | nil =>
      obtain ⟨node, member, -⟩ := some
      exact absurd member List.not_mem_nil
  | cons first rest ih =>
      by_cases inRest : ∃ node ∈ rest, Wanted node
      · obtain ⟨highest, member, wanted, bound⟩ := ih inRest
        by_cases better : Wanted first ∧ highest ≤ first
        · refine ⟨first, List.mem_cons_self, better.1, fun other isOther otherWanted => ?_⟩
          rcases List.mem_cons.1 isOther with same | isRest
          · exact Nat.le_of_eq same
          · exact Nat.le_trans (bound other isRest otherWanted) better.2
        · refine ⟨highest, List.mem_cons_of_mem _ member, wanted,
            fun other isOther otherWanted => ?_⟩
          rcases List.mem_cons.1 isOther with same | isRest
          · subst same
            exact Nat.le_of_not_le fun lower => better ⟨otherWanted, lower⟩
          · exact bound other isRest otherWanted
      · obtain ⟨node, member, wanted⟩ := some
        rcases List.mem_cons.1 member with same | isRest
        · subst same
          refine ⟨node, List.mem_cons_self, wanted, fun other isOther otherWanted => ?_⟩
          rcases List.mem_cons.1 isOther with same | isRest
          · exact Nat.le_of_eq same
          · exact absurd ⟨other, isRest, otherWanted⟩ inRest
        · exact absurd ⟨node, isRest, wanted⟩ inRest

/-- Where a node is open, a seed or a remaining leaf is found, also among those
with a property that passes downward. -/
theorem IsTree.exists_seed (tree : chart.IsTree) {Wanted : NodeId → Prop}
    (downward : ∀ upper lower, Wanted upper → chart.isDescendant lower upper = true →
      Wanted lower)
    (isOpen : node ∈ chart.openNodes transitions residual routes) (wanted : Wanted node) :
    (∃ seed ∈ chart.seeds transitions residual routes, Wanted seed) ∨
      ∃ leaf ∈ residual, Wanted leaf := by
  have known : ∃ node ∈ chart.openNodes transitions residual routes ++ residual.toList,
      Wanted node := ⟨node, List.mem_append_left _ isOpen, wanted⟩
  obtain ⟨highest, member, isWanted, bound⟩ := exists_highest known
  rcases List.mem_append.1 member with isOpenNode | isLeaf
  · refine .inl ⟨highest, mem_seeds.2 ⟨isOpenNode, fun pin isPin below => ?_⟩, isWanted⟩
    have listed := List.mem_append.2 (isPin.imp_right NodeSet.mem_toList.2)
    exact absurd (tree.lt_of_isDescendant below)
      (Nat.not_lt_of_le (bound pin listed (downward highest pin isWanted below)))
  · exact .inr ⟨highest, isLeaf, isWanted⟩

end Seeds

namespace IsExecutable

variable (executable : chart.IsExecutable)
include executable

theorem isProper_of_mem_targetsOf {transitions : List TransitionId} {node : NodeId}
    (isTarget : node ∈ chart.targetsOf transitions) : chart.IsProper node := by
  obtain ⟨id, -, member⟩ := mem_targetsOf.1 isTarget
  exact executable.isNode_target id node member

/-- Open are targets, and siblings of regions that hold a target, if they hold neither a
target nor a remaining leaf themselves. -/
theorem target_or_isSibling {transitions : List TransitionId} {residual : NodeSet}
    {node : NodeId}
    (isOpen : node ∈ chart.openNodes transitions residual (chart.routesOf transitions)) :
    node ∈ chart.targetsOf transitions ∨
      ∃ region parallel, region ∈ (chart.node parallel).children ∧
        (chart.node parallel).isParallel = true ∧ node ∈ (chart.node parallel).children ∧
        (∃ target ∈ chart.targetsOf transitions, chart.isWithin target region = true) ∧
        ∀ held, held ∈ residual ∨ held ∈ chart.targetsOf transitions →
          ¬ chart.isWithin held node = true := by
  have tree := executable.tree
  apply (mem_foldl_appendNew.1 isOpen).imp_right
  intro isSibling
  obtain ⟨route, isCrossing, member⟩ := List.mem_flatMap.1 isSibling
  obtain ⟨region, isEntered, isChild⟩ := List.mem_flatMap.1 member
  obtain ⟨id, isTransition, target, isTarget, rfl⟩ :=
    mem_routesOf.1 (List.mem_filter.1 isCrossing).1
  have properTarget := executable.isNode_target id target isTarget
  obtain ⟨onRoute, isRegion⟩ := List.mem_filter.1 isEntered
  have within : chart.isWithin target region = true :=
    ((tree.mem_segment (tree.target_isDescendant_routeScope _ properTarget)).1
      (List.mem_reverse.1 onRoute)).1
  cases ofRegion : chart.parent region with
  | none => simp [ofRegion] at isChild
  | some parallel =>
      rw [ofRegion] at isChild
      obtain ⟨isRegionOf, uncovered⟩ := List.mem_filter.1 isChild
      have isParallel : (chart.node region).isHistory = false ∧
          (chart.node parallel).isParallel = true := by
        rw [Chart.isRegion, ofRegion] at isRegion
        simpa using isRegion
      refine ⟨region, parallel, (tree.mem_children parallel region).2 ⟨ofRegion, isParallel.1⟩,
        isParallel.2, isRegionOf,
        ⟨target, mem_targetsOf.2 ⟨id, isTransition, isTarget⟩, within⟩, ?_⟩
      intro held committed withinNode
      have notRoot := tree.ne_root_of_parent (tree.parent_of_mem_children isRegionOf)
      have covered := tree.mem_closure.2 ⟨notRoot, held,
        List.mem_append.2 (committed.imp_left NodeSet.mem_toList.2), withinNode⟩
      rw [Bool.not_eq_true', NodeSet.contains_eq_false_iff] at uncovered
      exact uncovered covered

/-- Open are targets, and uncovered regions of the targets and remaining leaves. -/
theorem target_or_isUncovered {transitions : List TransitionId} {residual : NodeSet}
    {node : NodeId}
    (isOpen : node ∈ chart.openNodes transitions residual (chart.routesOf transitions)) :
    node ∈ chart.targetsOf transitions ∨
      chart.IsUncovered
        (fun held => held ∈ residual ∨ held ∈ chart.targetsOf transitions) node := by
  apply (executable.target_or_isSibling isOpen).imp_right
  rintro ⟨region, parallel, isRegion, isParallel, isChild, ⟨target, isTarget, within⟩, free⟩
  have above := isWithin_of_isDescendant
    (executable.tree.isDescendant_of_parent (executable.tree.parent_of_mem_children isRegion))
  exact ⟨parallel, executable.tree.parent_of_mem_children isChild, isParallel,
    ⟨target, .inr isTarget, executable.tree.isWithin_trans within above⟩, free⟩

theorem isProper_of_mem_openNodes {transitions : List TransitionId} {residual : NodeSet}
    {node : NodeId}
    (isOpen : node ∈ chart.openNodes transitions residual (chart.routesOf transitions)) :
    chart.IsProper node := by
  rcases executable.target_or_isUncovered isOpen with isTarget | ⟨parallel, isParent, -⟩
  · exact executable.isProper_of_mem_targetsOf isTarget
  · exact ⟨executable.tree.ne_root_of_parent isParent, lt_nodeCount_of_parent isParent⟩

end IsExecutable

end Chart

end Statechart
