import Statechart.Proofs.Configuration.Order
import Statechart.Proofs.Microstep.Seeds

/-!
# What a resolved microstep promises

The states to be exited are active, with all that is active below them, and come
inner ones first; the states to be entered are those that are active afterwards
and were not active before or are exited, outer ones first.  No state leaves the
configuration unless it is exited, although exits, seeds and leaves are computed
apart from each other.
-/

namespace Statechart

namespace Chart

variable {chart : Chart} {history : NodeMap (List NodeId)}

/-- The active nodes that transitions leave. -/
def leavesBehind (chart : Chart) (before : NodeSet) (transitions : List TransitionId) : NodeSet :=
  chart.exitedBy (chart.active before) (chart.routesOf transitions)

/-- The leaves that stay. -/
def residualOf (chart : Chart) (before : NodeSet) (transitions : List TransitionId) : NodeSet :=
  before.filter (fun leaf => !(chart.leavesBehind before transitions).contains leaf)

/-- What is expanded. -/
def seedsOf (chart : Chart) (before : NodeSet) (transitions : List TransitionId) : List NodeId :=
  chart.seeds transitions (chart.residualOf before transitions) (chart.routesOf transitions)

/-- The resolution of a microstep of which the expansion is known. -/
def resolutionOf (chart : Chart) (before : NodeSet) (transitions : List TransitionId)
    (reached : Expansion) : Resolution :=
  let exited := chart.leavesBehind before transitions
  let entered := (chart.active reached.leaves).filter
    (fun node => !(chart.active before).contains node || exited.contains node)
  { exited := chart.inExitOrder exited.toList
    entered := chart.inEntryOrder entered.toList
    after := reached.leaves
    defaultEntries := reached.defaultEntries
    historyDefaults := reached.historyDefaults }

/-- A microstep is resolved if the expansion comes to an end in a legal
configuration. -/
theorem resolve_eq_ok_iff {before : NodeSet} {transitions : List TransitionId}
    {resolution : Resolution} :
    chart.resolve history before transitions = .ok resolution ↔
      ∃ reached, chart.expand history (chart.residualOf before transitions)
          (chart.seedsOf before transitions) = some reached ∧
        chart.violations reached.leaves = [] ∧
        chart.resolutionOf before transitions reached = resolution := by
  constructor
  · intro done
    unfold resolve at done
    dsimp only at done
    split at done
    · cases done
    · next reached expanded =>
        split at done
        · next noViolations =>
            cases done
            exact ⟨reached, expanded, noViolations, rfl⟩
        · cases done
  · rintro ⟨reached, expanded, noViolations, rfl⟩
    unfold seedsOf residualOf leavesBehind at expanded
    unfold resolve
    simp only [expanded, noViolations]
    rfl

theorem mem_leavesBehind {before : NodeSet} {transitions : List TransitionId} {node : NodeId} :
    node ∈ chart.leavesBehind before transitions ↔
      node ∈ chart.active before ∧ ∃ id ∈ transitions,
        ∃ target ∈ (chart.transition id).targets,
          chart.IsLeftBy (chart.route (chart.transition id).source target) node := by
  rw [leavesBehind, mem_exitedBy]
  simp only [mem_routesOf]
  refine and_congr_right fun _ => ⟨?_, ?_⟩
  · rintro ⟨route, ⟨id, isTransition, target, isTarget, rfl⟩, left⟩
    exact ⟨id, isTransition, target, isTarget, left⟩
  · rintro ⟨id, isTransition, target, isTarget, left⟩
    exact ⟨_, ⟨id, isTransition, target, isTarget, rfl⟩, left⟩

theorem mem_residualOf {before : NodeSet} {transitions : List TransitionId} {leaf : NodeId} :
    leaf ∈ chart.residualOf before transitions ↔
      leaf ∈ before ∧ ¬ leaf ∈ chart.leavesBehind before transitions := by
  rw [residualOf, NodeSet.mem_filter, Bool.not_eq_true', NodeSet.contains_eq_false_iff]

/-! ## Filling regions -/

theorem mem_missingRegions {leaves : NodeSet} {region : NodeId} :
    region ∈ chart.missingRegions leaves ↔
      ∃ parallel ∈ chart.active leaves, (chart.node parallel).isParallel = true ∧
        region ∈ (chart.node parallel).children ∧ ¬ region ∈ chart.active leaves := by
  rw [missingRegions, List.mem_filter, List.mem_flatMap]
  simp only [List.mem_filter, NodeSet.mem_toList, Bool.not_eq_true', NodeSet.contains_eq_false_iff]
  constructor
  · rintro ⟨⟨parallel, ⟨isActive, isParallel⟩, isChild⟩, missing⟩
    exact ⟨parallel, isActive, isParallel, isChild, missing⟩
  · rintro ⟨parallel, isActive, isParallel, isChild, missing⟩
    exact ⟨⟨parallel, ⟨isActive, isParallel⟩, isChild⟩, missing⟩

/-- What every round keeps holds in the end, when no region is missing. -/
theorem fillRegions_keeps {Invariant : Expansion → Prop} {limit : Nat} {reached after : Expansion}
    (rounds : ∀ reached next, Invariant reached →
      chart.expandNodes history reached (chart.missingRegions reached.leaves) = some next →
      Invariant next)
    (holds : Invariant reached) (done : chart.fillRegions history limit reached = some after) :
    Invariant after ∧ chart.missingRegions after.leaves = [] := by
  induction limit generalizing reached with
  | zero => cases done
  | succ limit ih =>
      rw [fillRegions] at done
      split at done
      · next noneMissing =>
          cases done
          exact ⟨holds, noneMissing⟩
      · obtain ⟨next, first, others⟩ := Option.bind_eq_some_iff.1 done
        exact ih (rounds reached next holds first) others

theorem missingRegions_of_fillRegions {limit : Nat} {reached after : Expansion}
    (done : chart.fillRegions history limit reached = some after) :
    chart.missingRegions after.leaves = [] := by
  have rounds : ∀ middle next : Expansion, True →
      chart.expandNodes history middle (chart.missingRegions middle.leaves) = some next → True :=
    fun _ _ known _ => known
  exact (fillRegions_keeps rounds trivial done).2

/-- Filling regions keeps the leaves. -/
theorem mem_of_fillRegions {limit : Nat} {reached after : Expansion} {leaf : NodeId}
    (done : chart.fillRegions history limit reached = some after)
    (isReached : leaf ∈ reached.leaves) : leaf ∈ after.leaves := by
  have rounds : ∀ middle next : Expansion, leaf ∈ middle.leaves →
      chart.expandNodes history middle (chart.missingRegions middle.leaves) = some next →
      leaf ∈ next.leaves :=
    fun middle next member stepped => (mem_expandNodes stepped).2 (.inl member)
  exact (fillRegions_keeps rounds isReached done).1

/-- The expansion keeps the leaves that remain, and adds those of the seeds. -/
theorem mem_of_expand {residual : NodeSet} {seeds : List NodeId} {after : Expansion}
    (done : chart.expand history residual seeds = some after) {leaf : NodeId}
    (known : leaf ∈ residual ∨ ∃ seed ∈ seeds, chart.Enters history seed leaf) :
    leaf ∈ after.leaves := by
  obtain ⟨reached, first, others⟩ := Option.bind_eq_some_iff.1 done
  exact mem_of_fillRegions others ((mem_expandNodes first).2 known)

/-- All that an expansion reaches is atomic, and no region is missing in the end. -/
theorem atomic_of_expand {residual : NodeSet} {seeds : List NodeId} {after : Expansion}
    (atomic : ∀ leaf ∈ residual, (chart.node leaf).isAtomic = true)
    (done : chart.expand history residual seeds = some after) :
    (∀ leaf ∈ after.leaves, (chart.node leaf).isAtomic = true) ∧
      chart.missingRegions after.leaves = [] := by
  have steps : ∀ {reached next : Expansion} {nodes : List NodeId},
      (∀ leaf ∈ reached.leaves, (chart.node leaf).isAtomic = true) →
      chart.expandNodes history reached nodes = some next →
      ∀ leaf ∈ next.leaves, (chart.node leaf).isAtomic = true := by
    intro reached next nodes known stepped leaf isLeaf
    rcases (mem_expandNodes stepped).1 isLeaf with isOld | ⟨node, -, enters⟩
    · exact known leaf isOld
    · exact enters.isAtomic
  obtain ⟨reached, first, others⟩ := Option.bind_eq_some_iff.1 done
  have rounds : ∀ middle next : Expansion,
      (∀ leaf ∈ middle.leaves, (chart.node leaf).isAtomic = true) →
      chart.expandNodes history middle (chart.missingRegions middle.leaves) = some next →
      ∀ leaf ∈ next.leaves, (chart.node leaf).isAtomic = true :=
    fun _ _ => steps
  exact fillRegions_keeps rounds (steps atomic first) others

/-- Every seed is expanded on its way. -/
theorem exists_expandNode_of_expandNodes {limit : Nat} {nodes : List NodeId}
    {reached after : Expansion}
    (done : nodes.foldlM (chart.expandNode history limit) reached = some after) :
    ∀ node ∈ nodes, ∃ first last, chart.expandNode history limit first node = some last := by
  induction nodes generalizing reached with
  | nil => exact fun node member => absurd member List.not_mem_nil
  | cons first rest ih =>
      rw [List.foldlM_cons] at done
      obtain ⟨middle, isFirst, others⟩ := Option.bind_eq_some_iff.1 done
      intro node member
      rcases List.mem_cons.1 member with same | isRest
      · exact ⟨reached, middle, same ▸ isFirst⟩
      · exact ih others node isRest

/-! ## Resolutions -/

/-- A resolution whose exits and entries lead from one configuration to the next. -/
structure LeadsFrom (chart : Chart) (before : NodeSet) (resolution : Resolution) : Prop where
  legal : chart.IsLegalConfiguration resolution.after
  isActive_of_exited : ∀ node ∈ resolution.exited, node ∈ chart.active before
  exited_of_isDescendant : ∀ node ∈ resolution.exited, ∀ lower ∈ chart.active before,
    chart.isDescendant lower node = true → lower ∈ resolution.exited
  stays : ∀ node ∈ chart.active before, ¬ node ∈ resolution.exited →
    node ∈ chart.active resolution.after
  mem_entered : ∀ node, node ∈ resolution.entered ↔ node ∈ chart.active resolution.after ∧
    (¬ node ∈ chart.active before ∨ node ∈ resolution.exited)
  inner_first : resolution.exited.Pairwise (fun a b => ¬ chart.isDescendant b a = true)
  outer_first : resolution.entered.Pairwise (fun a b => ¬ chart.isDescendant a b = true)
  nodup_exited : resolution.exited.Nodup
  nodup_entered : resolution.entered.Nodup

/-- Exited are the nodes that the transitions leave. -/
theorem mem_exited_iff {before : NodeSet} {transitions : List TransitionId}
    {resolution : Resolution} (done : chart.resolve history before transitions = .ok resolution)
    {node : NodeId} :
    node ∈ resolution.exited ↔ node ∈ chart.leavesBehind before transitions := by
  obtain ⟨reached, -, -, rfl⟩ := resolve_eq_ok_iff.1 done
  exact (mem_sortOrdered _).trans NodeSet.mem_toList

/-- Entered are the nodes that are active afterwards, and were not before or are exited. -/
theorem mem_entered_iff {before : NodeSet} {transitions : List TransitionId}
    {resolution : Resolution} (done : chart.resolve history before transitions = .ok resolution)
    {node : NodeId} :
    node ∈ resolution.entered ↔ node ∈ chart.active resolution.after ∧
      (¬ node ∈ chart.active before ∨ node ∈ resolution.exited) := by
  rw [mem_exited_iff done]
  obtain ⟨reached, -, -, rfl⟩ := resolve_eq_ok_iff.1 done
  apply ((mem_sortOrdered _).trans NodeSet.mem_toList).trans
  rw [NodeSet.mem_filter, Bool.or_eq_true, Bool.not_eq_true', NodeSet.contains_eq_false_iff,
    NodeSet.contains_iff]
  rfl

/-- What is active afterwards has stayed or is entered. -/
theorem LeadsFrom.stays_or_entered {before : NodeSet} {resolution : Resolution}
    (leads : chart.LeadsFrom before resolution) {node : NodeId}
    (isActive : node ∈ chart.active resolution.after) :
    (node ∈ chart.active before ∧ ¬ node ∈ resolution.exited) ∨ node ∈ resolution.entered := by
  by_cases stays : node ∈ chart.active before ∧ ¬ node ∈ resolution.exited
  · exact .inl stays
  · refine .inr ((leads.mem_entered node).2 ⟨isActive, ?_⟩)
    rw [not_and_or, Decidable.not_not] at stays
    exact stays

namespace IsExecutable

variable (executable : chart.IsExecutable)
include executable

/-- Where a target has a property that passes downward, a node with that property
stays, or is expanded and yields a leaf. -/
theorem exists_leaf_of_target (parallels : chart.ParallelsHaveChildren)
    (records : chart.RecordsAreValid history) {before : NodeSet}
    {transitions : List TransitionId} {after : Expansion}
    (done : chart.expand history (chart.residualOf before transitions)
      (chart.seedsOf before transitions) = some after)
    {Wanted : NodeId → Prop}
    (downward : ∀ upper lower, Wanted upper → chart.isDescendant lower upper = true →
      Wanted lower)
    {target : NodeId} (isTarget : target ∈ chart.targetsOf transitions)
    (wanted : Wanted target) :
    ∃ node, Wanted node ∧
      ∃ leaf ∈ after.leaves, leaf = node ∨ chart.isWithin leaf (chart.anchor node) = true := by
  rcases executable.tree.exists_seed downward (mem_openNodes_of_target isTarget) wanted with
    ⟨seed, isSeed, seedWanted⟩ | ⟨leaf, isLeaf, leafWanted⟩
  · obtain ⟨reached, first, -⟩ := Option.bind_eq_some_iff.1 done
    obtain ⟨start, last, expanded⟩ := exists_expandNode_of_expandNodes first seed isSeed
    have isProper := executable.isProper_of_mem_openNodes (mem_seeds.1 isSeed).1
    obtain ⟨leaf, enters⟩ := executable.exists_enters records parallels isProper expanded
    exact ⟨seed, seedWanted, leaf, mem_of_expand done (.inr ⟨seed, isSeed, enters⟩),
      .inr (executable.isWithin_anchor_of_enters records enters)⟩
  · exact ⟨leaf, leafWanted, leaf, mem_of_expand done (.inl isLeaf), .inl rfl⟩

/-- An expansion has leaves if there were some, or if there is a target. -/
theorem exists_mem_of_expand (parallels : chart.ParallelsHaveChildren)
    (records : chart.RecordsAreValid history) {before : NodeSet}
    {transitions : List TransitionId} {after : Expansion}
    (done : chart.expand history (chart.residualOf before transitions)
      (chart.seedsOf before transitions) = some after)
    (some : (∃ leaf, leaf ∈ before) ∨ ∃ target, target ∈ chart.targetsOf transitions) :
    ∃ leaf, leaf ∈ after.leaves := by
  have ofTarget : (∃ target, target ∈ chart.targetsOf transitions) →
      ∃ leaf, leaf ∈ after.leaves := by
    rintro ⟨target, isTarget⟩
    obtain ⟨-, -, leaf, isLeaf, -⟩ := executable.exists_leaf_of_target parallels records done
      (fun _ _ _ _ => trivial) isTarget trivial
    exact ⟨leaf, isLeaf⟩
  rcases some with ⟨leaf, isLeaf⟩ | isTarget
  · by_cases left : leaf ∈ chart.leavesBehind before transitions
    · obtain ⟨-, id, isTransition, target, isTarget, -⟩ := mem_leavesBehind.1 left
      exact ofTarget ⟨target, mem_targetsOf.2 ⟨id, isTransition, isTarget⟩⟩
    · exact ⟨leaf, mem_of_expand done (.inl (mem_residualOf.2 ⟨isLeaf, left⟩))⟩
  · exact ofTarget isTarget

/-- Wherever a target is below a node, a leaf is below the node afterwards. -/
theorem isActive_of_target_below (parallels : chart.ParallelsHaveChildren)
    (records : chart.RecordsAreValid history) {before : NodeSet}
    {transitions : List TransitionId} {after : Expansion}
    (done : chart.expand history (chart.residualOf before transitions)
      (chart.seedsOf before transitions) = some after)
    {node target : NodeId} (notRoot : node ≠ rootId)
    (isTarget : target ∈ chart.targetsOf transitions)
    (below : chart.isDescendant target node = true) : node ∈ chart.active after.leaves := by
  have tree := executable.tree
  have downward : ∀ upper lower, chart.isDescendant upper node = true →
      chart.isDescendant lower upper = true → chart.isDescendant lower node = true :=
    fun upper lower above lowerBelow =>
      tree.isDescendant_trans_isWithin lowerBelow (isWithin_of_isDescendant above)
  obtain ⟨lower, lowerBelow, leaf, isLeaf, same | within⟩ :=
    executable.exists_leaf_of_target parallels records done downward isTarget below
  · exact tree.mem_active.2 ⟨notRoot, leaf, isLeaf, same ▸ isWithin_of_isDescendant lowerBelow⟩
  · exact tree.mem_active.2 ⟨notRoot, leaf, isLeaf,
      tree.isWithin_trans within (tree.isWithin_anchor_of_isDescendant lowerBelow)⟩

/-- A resolved microstep leads from a configuration to the next one.  Of the
sources of transitions only matters that they are nodes, and nothing if no state
is active yet. -/
theorem leadsFrom_of_resolve (parallels : chart.ParallelsHaveChildren)
    (records : chart.RecordsAreValid history) {before : NodeSet}
    {transitions : List TransitionId} {resolution : Resolution}
    (proper : (∃ leaf, leaf ∈ before) →
      ∀ id ∈ transitions, chart.IsProper (chart.transition id).source)
    (done : chart.resolve history before transitions = .ok resolution) :
    chart.LeadsFrom before resolution := by
  have tree := executable.tree
  obtain ⟨reached, expanded, noViolations, rfl⟩ := resolve_eq_ok_iff.1 done
  have exited : ∀ node, node ∈ (chart.resolutionOf before transitions reached).exited ↔
      node ∈ chart.leavesBehind before transitions := fun node => mem_exited_iff done
  refine ⟨tree.violations_eq_nil_iff.1 noViolations, ?_, ?_, ?_, fun node => mem_entered_iff done,
    tree.pairwise_inExitOrder _, tree.pairwise_inEntryOrder _,
    nodup_sortOrdered _ (NodeSet.nodup_toList _), nodup_sortOrdered _ (NodeSet.nodup_toList _)⟩
  · exact fun node isExited => (mem_leavesBehind.1 ((exited node).1 isExited)).1
  · intro node isExited lower isActive below
    obtain ⟨-, id, isTransition, target, isTarget, left⟩ :=
      mem_leavesBehind.1 ((exited node).1 isExited)
    exact (exited lower).2 (mem_leavesBehind.2 ⟨isActive, id, isTransition, target, isTarget,
      tree.isLeftBy_of_isDescendant left below⟩)
  · intro node isActive notExited
    rw [exited] at notExited
    obtain ⟨notRoot, leaf, isLeaf, within⟩ := tree.mem_active.1 isActive
    by_cases stays : leaf ∈ chart.leavesBehind before transitions
    · -- The leaf goes but the node stays, so some target is below the node.
      obtain ⟨-, id, isTransition, target, isTarget, left⟩ := mem_leavesBehind.1 stays
      have sources := proper ⟨leaf, isLeaf⟩
      have notLeft : ¬ chart.IsLeftBy (chart.route (chart.transition id).source target) node :=
        fun isLeft => notExited
          (mem_leavesBehind.2 ⟨isActive, id, isTransition, target, isTarget, isLeft⟩)
      have below := tree.isDescendant_target_of_stays (sources id isTransition)
        (executable.isNode_target id target isTarget) within left notLeft
      exact executable.isActive_of_target_below parallels records expanded notRoot
        (mem_targetsOf.2 ⟨id, isTransition, isTarget⟩) below
    · exact tree.mem_active.2 ⟨notRoot, leaf,
        mem_of_expand expanded (.inl (mem_residualOf.2 ⟨isLeaf, stays⟩)), within⟩

end IsExecutable

end Chart

end Statechart
