import Statechart.Proofs.Microstep.Agreement

/-!
# The frame of a microstep

Every route has a scope, and a microstep takes place below the scopes of its
routes: there all that is active is exited, and what is active afterwards is
entered.  Outside of all scopes the leaves are the same before and after.  The
regions that are filled in the end lie in scope as well, since a parallel that
was active had all its regions, and one that is new lies in scope itself.
-/

namespace Statechart

namespace Chart

variable {chart : Chart} {history : NodeMap (List NodeId)}

/-- The scope of a route of one of some transitions. -/
def IsScope (chart : Chart) (transitions : List TransitionId) (scope : NodeId) : Prop :=
  ∃ id ∈ transitions, ∃ target ∈ (chart.transition id).targets,
    (chart.route (chart.transition id).source target).scope = scope

/-- A node below the scope of a route. -/
def IsInScope (chart : Chart) (transitions : List TransitionId) (node : NodeId) : Prop :=
  ∃ scope, chart.IsScope transitions scope ∧ chart.isDescendant node scope = true

/-- What is committed to a configuration: outside of all scopes the leaves from
before, and something in every scope. -/
structure IsFramed (chart : Chart) (before : NodeSet) (transitions : List TransitionId)
    (Committed : NodeId → Prop) : Prop where
  outside : ∀ node, ¬ chart.IsInScope transitions node → (Committed node ↔ node ∈ before)
  inside : ∀ scope, chart.IsScope transitions scope →
    ∃ node, Committed node ∧ chart.isDescendant node scope = true

/-- What a route leaves lies below its scope. -/
theorem IsTree.isDescendant_scope_of_isLeftBy (tree : chart.IsTree) {source target node : NodeId}
    (isSource : chart.IsProper source) (isTarget : chart.IsProper target)
    (left : chart.IsLeftBy (chart.route source target) node) :
    chart.isDescendant node (chart.route source target).scope = true := by
  rcases left with ⟨top, isTop, within⟩ | ⟨region, isRegion, parallel, isParent, below⟩
  · obtain ⟨other, isOther, isChild, -⟩ := tree.exists_topExited_route isSource isTarget
    obtain rfl := Option.some.inj (isTop.symm.trans isOther)
    exact tree.isDescendant_of_isWithin_of_isDescendant within
      (tree.isDescendant_of_parent isChild)
  · obtain ⟨⟨-, regionBelow⟩, -⟩ := (tree.mem_regionsExited_route isSource isTarget).1 isRegion
    obtain ⟨parent, isOther, within⟩ := tree.isDescendant_iff_parent.1 regionBelow
    obtain rfl := Option.some.inj (isParent.symm.trans isOther)
    exact tree.isDescendant_trans_isWithin below within

namespace IsExecutable

variable (executable : chart.IsExecutable)
include executable

/-! ## What lies in scope -/

theorem isInScope_of_isTarget {transitions : List TransitionId} {target : NodeId}
    (isTarget : target ∈ chart.targetsOf transitions) : chart.IsInScope transitions target := by
  obtain ⟨id, isTransition, member⟩ := mem_targetsOf.1 isTarget
  exact ⟨_, ⟨id, isTransition, target, member, rfl⟩,
    executable.tree.target_isDescendant_routeScope _ (executable.isNode_target id target member)⟩

/-- Below every scope there is a target. -/
theorem exists_target_of_isScope {transitions : List TransitionId} {scope : NodeId}
    (isScope : chart.IsScope transitions scope) :
    ∃ target ∈ chart.targetsOf transitions, chart.isDescendant target scope = true := by
  obtain ⟨id, isTransition, target, member, rfl⟩ := isScope
  exact ⟨target, mem_targetsOf.2 ⟨id, isTransition, member⟩,
    executable.tree.target_isDescendant_routeScope _ (executable.isNode_target id target member)⟩

/-- The leaves that a node leads to lie below all that the node lies below. -/
theorem isDescendant_of_enters (records : chart.RecordsAreValid history)
    {node leaf upper : NodeId} (below : chart.isDescendant node upper = true)
    (enters : chart.Enters history node leaf) : chart.isDescendant leaf upper = true := by
  have tree := executable.tree
  have within := tree.isWithin_trans (executable.isWithin_anchor_of_enters records enters)
    (tree.isWithin_anchor_of_isDescendant below)
  refine (isWithin_iff.1 within).resolve_left fun same => ?_
  exact tree.not_isDescendant_of_isAtomic enters.isAtomic
    (executable.histories_eq_nil leaf enters.isAtomic) (same ▸ below)

section Legal

variable {before : NodeSet} {transitions : List TransitionId}
variable (legal : chart.IsLegalConfiguration before)
variable (active : ∀ id ∈ transitions, (chart.transition id).source ∈ chart.active before)
include legal active

/-- Of the active nodes those in scope are left. -/
theorem mem_leavesBehind_iff {node : NodeId} :
    node ∈ chart.leavesBehind before transitions ↔
      node ∈ chart.active before ∧ chart.IsInScope transitions node := by
  have tree := executable.tree
  rw [mem_leavesBehind]
  refine and_congr_right fun isActive => ⟨?_, ?_⟩
  · rintro ⟨id, isTransition, target, isTarget, left⟩
    exact ⟨_, ⟨id, isTransition, target, isTarget, rfl⟩, tree.isDescendant_scope_of_isLeftBy
      (legal.isProper tree (active id isTransition)) (executable.isNode_target id target isTarget)
      left⟩
  · rintro ⟨scope, ⟨id, isTransition, target, isTarget, rfl⟩, below⟩
    exact ⟨id, isTransition, target, isTarget, legal.isLeftBy_of_isDescendant_routeScope tree
      (active id isTransition) (executable.isNode_target id target isTarget) isActive below⟩

/-- Of the leaves those out of scope remain. -/
theorem mem_residualOf_iff {leaf : NodeId} :
    leaf ∈ chart.residualOf before transitions ↔
      leaf ∈ before ∧ ¬ chart.IsInScope transitions leaf := by
  rw [mem_residualOf, executable.mem_leavesBehind_iff legal active]
  refine and_congr_right fun isLeaf => not_congr (and_iff_right ?_)
  exact mem_active_of_mem executable.tree legal.atomic isLeaf

/-- A scope is active, since a source lies below it, unless it is the root. -/
theorem mem_active_of_isScope {scope : NodeId} (isScope : chart.IsScope transitions scope)
    (notRoot : scope ≠ rootId) : scope ∈ chart.active before := by
  have tree := executable.tree
  obtain ⟨id, isTransition, target, isTarget, rfl⟩ := isScope
  have isSource := active id isTransition
  exact (tree.isUpward_active before).mem_of_isDescendant _ _ isSource
    (tree.isDescendant_routeScope (legal.isProper tree isSource)
      (executable.isNode_target id target isTarget)).1 notRoot

/-- What lies above a node in scope was active, or lies in scope as well. -/
theorem isInScope_of_above {node upper : NodeId} (inScope : chart.IsInScope transitions node)
    (within : chart.isWithin node upper = true) (notRoot : upper ≠ rootId)
    (inactive : ¬ upper ∈ chart.active before) : chart.IsInScope transitions upper := by
  have tree := executable.tree
  obtain ⟨scope, isScope, below⟩ := inScope
  have different : upper ≠ scope := by
    rintro rfl
    exact inactive (executable.mem_active_of_isScope legal active isScope notRoot)
  rcases tree.isWithin_or_isWithin within (isWithin_of_isDescendant below) with lower | higher
  · exact ⟨scope, isScope, (isWithin_iff.1 lower).resolve_left different⟩
  · -- The scope is below the node, which would then be active.
    have proper := (isWithin_iff.1 higher).resolve_left fun same => different same.symm
    exact absurd ((tree.isUpward_active before).mem_of_isDescendant scope upper
      (executable.mem_active_of_isScope legal active isScope (tree.ne_root_of_isDescendant proper))
      proper notRoot) inactive

/-- A region without anything committed lies in scope if its parallel holds something. -/
theorem isInScope_of_isUncovered {Committed : NodeId → Prop}
    (framed : chart.IsFramed before transitions Committed) {region : NodeId}
    (regular : (chart.node region).isHistory = false)
    (uncovered : chart.IsUncovered Committed region) : chart.IsInScope transitions region := by
  have tree := executable.tree
  obtain ⟨parallel, isParent, isParallel, ⟨held, isHeld, heldWithin⟩, free⟩ := uncovered
  have notRoot : parallel ≠ rootId := by
    rintro rfl
    have isRoot := tree.kinds_of_notNode (.inl rfl)
    exact absurd (isRoot.2.1.symm.trans isParallel) Bool.false_ne_true
  by_cases isActive : parallel ∈ chart.active before
  · -- The region was active, and the leaf below it is gone, so a scope is above the leaf.
    have regionActive := legal.parallel parallel isActive isParallel region
      ((tree.mem_children parallel region).2 ⟨isParent, regular⟩)
    obtain ⟨-, leaf, isLeaf, within⟩ := tree.mem_active.1 regionActive
    have inScope : chart.IsInScope transitions leaf := by
      by_contra outside
      exact free leaf ((framed.outside leaf outside).2 isLeaf) within
    obtain ⟨scope, isScope, below⟩ := inScope
    obtain ⟨other, isOther, otherBelow⟩ := framed.inside scope isScope
    have notWithin : ¬ chart.isWithin scope region = true := fun lower =>
      free other isOther (tree.isWithin_trans (isWithin_of_isDescendant otherBelow) lower)
    have lower := (tree.isWithin_or_isWithin within (isWithin_of_isDescendant below)).resolve_right
      notWithin
    refine ⟨scope, isScope, (isWithin_iff.1 lower).resolve_left fun same => notWithin ?_⟩
    rw [same]
    exact isWithin_refl scope
  · -- The parallel is new, and so is what it holds.
    have inScope : chart.IsInScope transitions held := by
      by_contra outside
      have isLeaf := (framed.outside held outside).1 isHeld
      exact isActive (tree.mem_active.2 ⟨notRoot, held, isLeaf, heldWithin⟩)
    obtain ⟨scope, isScope, below⟩ :=
      executable.isInScope_of_above legal active inScope heldWithin notRoot isActive
    exact ⟨scope, isScope, tree.isDescendant_trans_isWithin (tree.isDescendant_of_parent isParent)
      (isWithin_of_isDescendant below)⟩

/-! ## What is expanded in scope -/

theorem isFramed_residual_or_target :
    chart.IsFramed before transitions (fun node => node ∈ chart.residualOf before transitions ∨
      node ∈ chart.targetsOf transitions) := by
  constructor
  · intro node outside
    rw [executable.mem_residualOf_iff legal active, and_iff_left outside]
    exact or_iff_left fun isTarget => outside (executable.isInScope_of_isTarget isTarget)
  · intro scope isScope
    obtain ⟨target, isTarget, below⟩ := executable.exists_target_of_isScope isScope
    exact ⟨target, .inr isTarget, below⟩

/-- All that is open lies in scope. -/
theorem isInScope_of_mem_openNodes {node : NodeId}
    (isOpen : node ∈ chart.openNodes transitions (chart.residualOf before transitions)
      (chart.routesOf transitions)) : chart.IsInScope transitions node := by
  have tree := executable.tree
  rcases executable.target_or_isSibling isOpen with
    isTarget | ⟨region, parallel, isRegion, isParallel, isChild, ⟨target, isTarget, within⟩, free⟩
  · exact executable.isInScope_of_isTarget isTarget
  · have ofParallel := (tree.mem_children parallel node).1 isChild
    refine executable.isInScope_of_isUncovered legal active
      (executable.isFramed_residual_or_target legal active) ofParallel.2
      ⟨parallel, ofParallel.1, isParallel, ⟨target, .inr isTarget, ?_⟩, free⟩
    exact tree.isWithin_trans within (isWithin_of_isDescendant
      (tree.isDescendant_of_parent (tree.parent_of_mem_children isRegion)))

section Records

variable (records : chart.RecordsAreValid history)
include records

omit legal active in
theorem isInScope_of_enters {node leaf : NodeId} (inScope : chart.IsInScope transitions node)
    (enters : chart.Enters history node leaf) : chart.IsInScope transitions leaf := by
  obtain ⟨scope, isScope, below⟩ := inScope
  exact ⟨scope, isScope, executable.isDescendant_of_enters records below enters⟩

/-- The expansion of the seeds keeps to the frame. -/
theorem isFramed_of_seeds (parallels : chart.ParallelsHaveChildren) {reached : Expansion}
    (first : chart.expandNodes history { leaves := chart.residualOf before transitions }
      (chart.seedsOf before transitions) = some reached) :
    chart.IsFramed before transitions (fun leaf => leaf ∈ reached.leaves) := by
  have tree := executable.tree
  constructor
  · intro leaf outside
    rw [mem_expandNodes first, executable.mem_residualOf_iff legal active, and_iff_left outside]
    refine or_iff_left ?_
    rintro ⟨seed, isSeed, enters⟩
    exact outside (executable.isInScope_of_enters records
      (executable.isInScope_of_mem_openNodes legal active (mem_seeds.1 isSeed).1) enters)
  · intro scope isScope
    obtain ⟨target, isTarget, targetBelow⟩ := executable.exists_target_of_isScope isScope
    have downward : ∀ upper lower, chart.isDescendant upper scope = true →
        chart.isDescendant lower upper = true → chart.isDescendant lower scope = true :=
      fun upper lower above below =>
        tree.isDescendant_trans_isWithin below (isWithin_of_isDescendant above)
    rcases tree.exists_seed downward (mem_openNodes_of_target isTarget) targetBelow with
      ⟨seed, isSeed, seedBelow⟩ | ⟨leaf, isLeaf, leafBelow⟩
    · obtain ⟨start, last, expanded⟩ := exists_expandNode_of_expandNodes first seed isSeed
      obtain ⟨leaf, enters⟩ := executable.exists_enters records parallels
        (executable.isProper_of_mem_openNodes (mem_seeds.1 isSeed).1) expanded
      exact ⟨leaf, (mem_expandNodes first).2 (.inr ⟨seed, isSeed, enters⟩),
        executable.isDescendant_of_enters records seedBelow enters⟩
    · exact ⟨leaf, (mem_expandNodes first).2 (.inl isLeaf), leafBelow⟩

omit records in
/-- The regions that are missing lie in scope. -/
theorem isInScope_of_mem_missingRegions {leaves : NodeSet}
    (framed : chart.IsFramed before transitions (fun leaf => leaf ∈ leaves)) {region : NodeId}
    (missing : region ∈ chart.missingRegions leaves) : chart.IsInScope transitions region := by
  obtain ⟨parallel, -, -, isChild, -⟩ := mem_missingRegions.1 missing
  exact executable.isInScope_of_isUncovered legal active framed
    ((executable.tree.mem_children parallel region).1 isChild).2
    (executable.tree.isUncovered_of_mem_missingRegions missing)

/-- A round of filling keeps to the frame. -/
theorem isFramed_of_round {reached next : Expansion}
    (framed : chart.IsFramed before transitions (fun leaf => leaf ∈ reached.leaves))
    (stepped : chart.expandNodes history reached (chart.missingRegions reached.leaves) =
      some next) : chart.IsFramed before transitions (fun leaf => leaf ∈ next.leaves) := by
  constructor
  · intro leaf outside
    rw [mem_expandNodes stepped, ← framed.outside leaf outside]
    refine or_iff_left ?_
    rintro ⟨region, missing, enters⟩
    exact outside (executable.isInScope_of_enters records
      (executable.isInScope_of_mem_missingRegions legal active framed missing) enters)
  · intro scope isScope
    obtain ⟨leaf, isLeaf, below⟩ := framed.inside scope isScope
    exact ⟨leaf, (mem_expandNodes stepped).2 (.inl isLeaf), below⟩

/-- A resolved microstep keeps to the frame. -/
theorem isFramed_of_resolve (parallels : chart.ParallelsHaveChildren) {resolution : Resolution}
    (done : chart.resolve history before transitions = .ok resolution) :
    chart.IsFramed before transitions (fun leaf => leaf ∈ resolution.after) := by
  obtain ⟨after, expanded, -, rfl⟩ := resolve_eq_ok_iff.1 done
  obtain ⟨reached, first, others⟩ := Option.bind_eq_some_iff.1 expanded
  have rounds : ∀ middle next : Expansion,
      chart.IsFramed before transitions (fun leaf => leaf ∈ middle.leaves) →
      chart.expandNodes history middle (chart.missingRegions middle.leaves) = some next →
      chart.IsFramed before transitions (fun leaf => leaf ∈ next.leaves) :=
    fun _ _ => executable.isFramed_of_round legal active records
  exact (fillRegions_keeps rounds
    (executable.isFramed_of_seeds legal active records parallels first) others).1

/-- Entered are the nodes in scope that are active afterwards. -/
theorem mem_entered_iff_isInScope (parallels : chart.ParallelsHaveChildren)
    {resolution : Resolution}
    (done : chart.resolve history before transitions = .ok resolution) {node : NodeId} :
    node ∈ resolution.entered ↔
      node ∈ chart.active resolution.after ∧ chart.IsInScope transitions node := by
  have tree := executable.tree
  have framed := executable.isFramed_of_resolve legal active records parallels done
  rw [mem_entered_iff done, mem_exited_iff done, executable.mem_leavesBehind_iff legal active]
  refine and_congr_right fun isActive => ⟨?_, fun inScope => ?_⟩
  · rintro (inactive | ⟨-, inScope⟩)
    · obtain ⟨notRoot, leaf, isLeaf, within⟩ := tree.mem_active.1 isActive
      have leafInScope : chart.IsInScope transitions leaf := by
        by_contra outside
        exact inactive (tree.mem_active.2
          ⟨notRoot, leaf, (framed.outside leaf outside).1 isLeaf, within⟩)
      exact executable.isInScope_of_above legal active leafInScope within notRoot inactive
    · exact inScope
  · by_cases wasActive : node ∈ chart.active before
    · exact .inr ⟨wasActive, inScope⟩
    · exact .inl wasActive

end Records

end Legal

end IsExecutable

/-! ## One transition -/

/-- The outermost of the scopes of the routes of a transition. -/
def IsOutermostScope (chart : Chart) (id : TransitionId) (scope : NodeId) : Prop :=
  chart.IsScope [id] scope ∧
    ∀ other, chart.IsScope [id] other → chart.isWithin other scope = true

theorem IsOutermostScope.isInScope_iff {chart : Chart} {id : TransitionId} {scope : NodeId}
    (outermost : chart.IsOutermostScope id scope) (tree : chart.IsTree) {node : NodeId} :
    chart.IsInScope [id] node ↔ chart.isDescendant node scope = true := by
  refine ⟨?_, fun below => ⟨scope, outermost.1, below⟩⟩
  rintro ⟨other, isScope, below⟩
  exact tree.isDescendant_trans_isWithin below (outermost.2 other isScope)

namespace IsExecutable

variable (executable : chart.IsExecutable)
include executable

/-- The scopes of a transition are all above its source, so one of them is above the others. -/
theorem exists_isOutermostScope {id : TransitionId}
    (isSource : chart.IsProper (chart.transition id).source)
    (targeted : (chart.transition id).targets ≠ []) :
    ∃ scope, chart.IsOutermostScope id scope := by
  have tree := executable.tree
  have above : ∀ scope, chart.IsScope [id] scope →
      chart.isWithin (chart.transition id).source scope = true := by
    rintro scope ⟨other, member, target, isTarget, rfl⟩
    obtain rfl := List.mem_singleton.1 member
    exact isWithin_of_isDescendant (tree.isDescendant_routeScope isSource
      (executable.isNode_target other target isTarget)).1
  have some : ∃ scope, chart.IsScope [id] scope := by
    obtain ⟨target, isTarget⟩ := List.exists_mem_of_ne_nil _ targeted
    exact ⟨_, id, List.mem_singleton_self id, target, isTarget, rfl⟩
  -- Ancestors come first in the numbering.
  classical
  refine ⟨Nat.find some, Nat.find_spec some, fun other isScope => ?_⟩
  rcases tree.isWithin_or_isWithin (above other isScope) (above _ (Nat.find_spec some)) with
    lower | higher
  · exact lower
  · have same := Nat.le_antisymm (Nat.find_min' some isScope) (tree.le_of_isWithin higher)
    rw [same]
    exact isWithin_refl other

end IsExecutable

/-- In a chart without histories a transition of an active state can be taken alone, and leads
to a legal configuration with all its targets.  Below the outermost of its scopes all is exited
that was active, and all is entered that is active afterwards; the leaves elsewhere are the
same.  A transition without targets changes nothing. -/
theorem transition_resolves_within_scope {definition : Definition}
    (accepted : Machine.chartOf definition = .ok chart)
    (noHistories : ∀ id, (chart.node id).isHistory = false)
    (parallels : chart.ParallelsHaveChildren) {before : NodeSet}
    (legal : chart.IsLegalConfiguration before) (history : NodeMap (List NodeId))
    {source : NodeId} {id : TransitionId} (isActive : source ∈ chart.active before)
    (outgoing : id ∈ (chart.node source).transitions) :
    ∃ resolution, chart.resolve history before [id] = .ok resolution ∧
      chart.IsLegalConfiguration resolution.after ∧
      (∀ target ∈ (chart.transition id).targets, target ∈ chart.active resolution.after) ∧
      ((chart.transition id).targets = [] →
        resolution.exited = [] ∧ resolution.entered = [] ∧ resolution.after = before) ∧
      ((chart.transition id).targets ≠ [] → ∃ scope, chart.IsOutermostScope id scope ∧
        (∀ node, node ∈ resolution.exited ↔
          node ∈ chart.active before ∧ chart.isDescendant node scope = true) ∧
        (∀ node, node ∈ resolution.entered ↔
          node ∈ chart.active resolution.after ∧ chart.isDescendant node scope = true) ∧
        ∀ leaf, ¬ chart.isDescendant leaf scope = true →
          (leaf ∈ resolution.after ↔ leaf ∈ before)) := by
  have executable := isExecutable_of_chartOf accepted
  have tree := executable.tree
  have records := recordsAreValid_of_noHistories noHistories history
  have isSource := executable.source_eq source id outgoing
  have proper := legal.isProper tree isActive
  have active : ∀ other ∈ [id], (chart.transition other).source ∈ chart.active before := by
    intro other member
    rw [List.mem_singleton.1 member, isSource]
    exact isActive
  have agree : chart.TargetsAgree [id] := fun first isFirst second isSecond different =>
    absurd ((List.mem_singleton.1 isFirst).trans (List.mem_singleton.1 isSecond).symm) different
  have compatible := (executable.allCompatible_targets_iff fun other member =>
    List.mem_singleton.1 member ▸
      executable.outgoing source proper.1 (noHistories source) id outgoing).2 agree
  obtain ⟨resolution, done⟩ :=
    exists_resolve_of_allCompatible executable noHistories legal active parallels compatible
  have leads := executable.leadsFrom_of_resolve parallels records
    (fun _ other member => legal.isProper tree (active other member)) done
  have exited : ∀ node, node ∈ resolution.exited ↔
      node ∈ chart.active before ∧ chart.IsInScope [id] node := fun node =>
    (mem_exited_iff done).trans (executable.mem_leavesBehind_iff legal active)
  have entered : ∀ node, node ∈ resolution.entered ↔
      node ∈ chart.active resolution.after ∧ chart.IsInScope [id] node := fun node =>
    executable.mem_entered_iff_isInScope legal active records parallels done
  have framed := executable.isFramed_of_resolve legal active records parallels done
  refine ⟨resolution, done, leads.legal, fun target isTarget =>
    isActive_of_isTarget executable noHistories parallels done
      (mem_targetsOf_singleton.2 isTarget), fun noTargets => ?_, fun targeted => ?_⟩
  · have outside : ∀ node, ¬ chart.IsInScope [id] node := by
      rintro node ⟨scope, ⟨other, member, target, isTarget, -⟩, -⟩
      rw [List.mem_singleton.1 member, noTargets] at isTarget
      exact List.not_mem_nil isTarget
    refine ⟨?_, ?_, NodeSet.ext fun leaf => framed.outside leaf (outside leaf)⟩
    · exact List.eq_nil_iff_forall_not_mem.2 fun node member =>
        outside node ((exited node).1 member).2
    · exact List.eq_nil_iff_forall_not_mem.2 fun node member =>
        outside node ((entered node).1 member).2
  · have fromProper : chart.IsProper (chart.transition id).source := isSource.symm ▸ proper
    obtain ⟨scope, outermost⟩ := executable.exists_isOutermostScope fromProper targeted
    simp only [outermost.isInScope_iff tree] at exited entered
    exact ⟨scope, outermost, exited, entered, fun leaf notBelow =>
      framed.outside leaf fun inScope => notBelow ((outermost.isInScope_iff tree).1 inScope)⟩

/-- Two parallels, one within the other.  On `cross` a state of the inner one leads to states of
both its regions. -/
def tower : Definition :=
  { states := [
      { id := some "town", isParallel := true, states := [
        { id := some "hall", isParallel := true, states := [
          { id := some "left", states := [
            { id := some "west", transitions := [
              { event := some "cross", target := some "south north" }] },
            { id := some "south" }] },
          { id := some "right", states := [{ id := some "east" }, { id := some "north" }] }] },
        { id := some "bridge", states := [{ id := some "up" }, { id := some "down" }] }] }] }

/-- The routes to the two targets turn at different nodes, and the bridge stays as it is. -/
theorem cross_stays_in_hall :
    (Machine.chartOf tower = .ok (Machine.chartOrEmpty tower) ∧
      (∀ id, ((Machine.chartOrEmpty tower).node id).isHistory = false) ∧
      (Machine.chartOrEmpty tower).ParallelsHaveChildren ∧
      (Machine.chartOrEmpty tower).IsLegalConfiguration (.ofList [4, 7, 10]) ∧
      4 ∈ (Machine.chartOrEmpty tower).active (.ofList [4, 7, 10]) ∧
      0 ∈ ((Machine.chartOrEmpty tower).node 4).transitions) ∧
    ∃ resolution,
      (Machine.chartOrEmpty tower).resolve ∅ (.ofList [4, 7, 10]) [0] = .ok resolution ∧
      ∃ scope, (Machine.chartOrEmpty tower).IsOutermostScope 0 scope ∧
        ∀ leaf, ¬ (Machine.chartOrEmpty tower).isDescendant leaf scope = true →
          (leaf ∈ resolution.after ↔ leaf ∈ NodeSet.ofList [4, 7, 10]) := by
  -- The chart is evaluated once for all that is read off it.
  obtain ⟨isOk, withoutHistories, withChildren, noViolations, isActive, outgoing, targeted⟩ :
      (Machine.chartOf tower).isOk = true ∧
      (Machine.chartOrEmpty tower).nodes.all (fun node => !node.isHistory) = true ∧
      (Machine.chartOrEmpty tower).nodes.all
        (fun node => !node.isParallel || !node.children.isEmpty) = true ∧
      (Machine.chartOrEmpty tower).violations (.ofList [4, 7, 10]) = [] ∧
      4 ∈ (Machine.chartOrEmpty tower).active (.ofList [4, 7, 10]) ∧
      0 ∈ ((Machine.chartOrEmpty tower).node 4).transitions ∧
      ((Machine.chartOrEmpty tower).transition 0).targets ≠ [] := by
    decide +kernel
  have accepted := Machine.chartOf_eq_ok isOk
  have noHistories := noHistories_of_all withoutHistories
  have parallels := parallelsHaveChildren_of_all withChildren
  have legal := isLegalConfiguration_of_violations accepted noViolations
  obtain ⟨resolution, done, -, -, -, inScope⟩ := transition_resolves_within_scope accepted
    noHistories parallels legal ∅ isActive outgoing
  obtain ⟨scope, outermost, -, -, elsewhere⟩ := inScope targeted
  exact ⟨⟨accepted, noHistories, parallels, legal, isActive, outgoing⟩, resolution, done, scope,
    outermost, elsewhere⟩

end Chart

end Statechart
