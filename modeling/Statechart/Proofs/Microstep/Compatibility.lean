import Statechart.Proofs.Microstep.Agenda

/-!
# When a microstep can be resolved

Nodes that are compatible stay so when they are expanded, and when uncovered
regions join them; a history counts as its owner here, since it may lead to
anything below it.  Leaves that stay are compatible with all targets.  So in a
chart without histories all that can make the next configuration illegal is that
targets of different transitions are incompatible, and if they are, it is.
-/

namespace Statechart

namespace Chart

variable {chart : Chart} {history : NodeMap (List NodeId)}

/-- Every two of some nodes are compatible. -/
def AllCompatible (chart : Chart) (Committed : NodeId → Prop) : Prop :=
  ∀ a b, Committed a → Committed b → chart.AreCompatible a b

/-- Leaves that may be active together: they are atomic and compatible. -/
structure MayBeActive (chart : Chart) (leaves : NodeSet) : Prop where
  atomic : ∀ leaf ∈ leaves, (chart.node leaf).isAtomic = true
  compatible : chart.AllCompatible (fun leaf => leaf ∈ leaves)

theorem MayBeActive.lt_nodeCount {leaves : NodeSet} (may : chart.MayBeActive leaves)
    (tree : chart.IsTree) : ∀ leaf ∈ leaves, leaf < chart.nodeCount :=
  fun leaf isLeaf => (tree.isNode_of_isState (isState_of_isAtomic (may.atomic leaf isLeaf))).2

/-- Different leaves of a legal configuration part in a parallel. -/
theorem IsExecutable.areOrthogonal_of_mem (executable : chart.IsExecutable) {leaves : NodeSet}
    (legal : chart.IsLegalConfiguration leaves) {a b : NodeId} (isA : a ∈ leaves)
    (isB : b ∈ leaves) (different : a ≠ b) : chart.areOrthogonal a b = true := by
  have tree := executable.tree
  have inside : ∀ leaf ∈ leaves, leaf < chart.nodeCount := fun leaf isLeaf =>
    (tree.isNode_of_isState (isState_of_isAtomic (legal.atomic leaf isLeaf))).2
  have notNested : ∀ {upper lower : NodeId}, upper ∈ leaves → lower ≠ upper →
      ¬ chart.isWithin lower upper = true := fun isUpper apart within =>
    (isWithin_iff.1 within).elim apart (tree.not_isDescendant_of_isAtomic (legal.atomic _ isUpper)
      (executable.histories_eq_nil _ (legal.atomic _ isUpper)))
  have compatible := legal.areCompatible tree (mem_active_of_mem tree legal.atomic isA)
    (mem_active_of_mem tree legal.atomic isB)
  rcases (tree.areCompatible_iff (inside a isA) (inside b isB)).1 compatible with
    within | within | orthogonal
  · exact absurd within (notNested isB different)
  · exact absurd within (notNested isA (Ne.symm different))
  · exact orthogonal

/-! ## Uncovered regions -/

namespace IsTree

variable (tree : chart.IsTree)
include tree

theorem areCompatible_of_isUncovered {Committed : NodeId → Prop}
    (compatible : chart.AllCompatible Committed)
    (inside : ∀ node, Committed node → node < chart.nodeCount) {region node : NodeId}
    (uncovered : chart.IsUncovered Committed region) (committed : Committed node) :
    chart.AreCompatible region node := by
  obtain ⟨parallel, isParent, isParallel, ⟨held, isHeld, heldWithin⟩, free⟩ := uncovered
  have below := tree.isDescendant_of_parent isParent
  by_cases nodeWithin : chart.isWithin node parallel = true
  · rcases isWithin_iff.1 nodeWithin with same | proper
    · exact tree.areCompatible_of_isWithin (same ▸ isWithin_of_isDescendant below)
    · obtain ⟨child, isChild, within⟩ := tree.exists_child_above proper
      have different : region ≠ child := fun same => free node committed (same ▸ within)
      exact tree.areCompatible_of_partAt
        ⟨region, child, different, isParent, isChild, isWithin_refl region, within⟩ isParallel
  · by_cases parallelWithin : chart.isWithin parallel node = true
    · exact tree.areCompatible_of_isWithin
        (tree.isWithin_trans (isWithin_of_isDescendant below) parallelWithin)
    · -- The region parts from the node where the held node does.
      obtain ⟨meeting, parted⟩ := tree.exists_partAt (tree.parent_lt_nodeCount isParent)
        (inside node committed) parallelWithin nodeWithin
      have isMeeting := compatible held node isHeld committed meeting
        (tree.partAt_lower parted heldWithin (isWithin_refl node))
      exact tree.areCompatible_of_partAt (tree.partAt_lower parted
        (isWithin_of_isDescendant below) (isWithin_refl node)) isMeeting

/-- No region that holds nothing is within another one. -/
theorem not_isDescendant_of_isUncovered {Committed : NodeId → Prop} {region other : NodeId}
    (uncovered : chart.IsUncovered Committed region)
    (otherUncovered : chart.IsUncovered Committed other) :
    ¬ chart.isDescendant other region = true := by
  obtain ⟨-, -, -, -, free⟩ := uncovered
  obtain ⟨parallel, isParent, -, ⟨held, isHeld, heldWithin⟩, -⟩ := otherUncovered
  intro below
  obtain ⟨parent, isOther, within⟩ := tree.isDescendant_iff_parent.1 below
  rw [isParent] at isOther
  cases isOther
  exact free held isHeld (tree.isWithin_trans heldWithin within)

/-- Uncovered regions may join compatible nodes. -/
theorem allCompatible_or_isUncovered {Committed : NodeId → Prop}
    (compatible : chart.AllCompatible Committed)
    (inside : ∀ node, Committed node → node < chart.nodeCount) :
    chart.AllCompatible (fun node => Committed node ∨ chart.IsUncovered Committed node) := by
  rintro a b (isA | isA) (isB | isB)
  · exact compatible a b isA isB
  · exact (tree.areCompatible_of_isUncovered compatible inside isB isA).symm
  · exact tree.areCompatible_of_isUncovered compatible inside isA isB
  · by_cases same : b = a
    · exact same ▸ tree.areCompatible_of_isWithin (isWithin_refl b)
    · -- The second region counts as committed beside the others.
      have apart : ¬ chart.isWithin b a = true := fun within =>
        (isWithin_iff.1 within).elim same (tree.not_isDescendant_of_isUncovered isA isB)
      have insideB : b < chart.nodeCount := by
        obtain ⟨parallel, isParent, -⟩ := isB
        exact lt_nodeCount_of_parent isParent
      have both : chart.AllCompatible (fun node => Committed node ∨ node = b) := by
        rintro first second (isFirst | rfl) (isSecond | rfl)
        · exact compatible first second isFirst isSecond
        · exact (tree.areCompatible_of_isUncovered compatible inside isB isFirst).symm
        · exact tree.areCompatible_of_isUncovered compatible inside isB isSecond
        · exact tree.areCompatible_of_isWithin (isWithin_refl _)
      obtain ⟨parallel, isParent, isParallel, ⟨held, isHeld, heldWithin⟩, free⟩ := isA
      refine tree.areCompatible_of_isUncovered both ?_
        ⟨parallel, isParent, isParallel, ⟨held, .inl isHeld, heldWithin⟩, ?_⟩ (.inr rfl)
      · exact fun node either => either.elim (inside node) fun isB => isB ▸ insideB
      · exact fun node either => either.elim (free node) fun isB => isB ▸ apart

end IsTree

/-! ## Expansions of compatible nodes -/

/-- Missing regions are the uncovered ones of the leaves. -/
theorem IsTree.isUncovered_of_mem_missingRegions (tree : chart.IsTree) {leaves : NodeSet}
    {region : NodeId} (missing : region ∈ chart.missingRegions leaves) :
    chart.IsUncovered (fun leaf => leaf ∈ leaves) region := by
  obtain ⟨parallel, isActive, isParallel, isChild, inactive⟩ := mem_missingRegions.1 missing
  have isParent := tree.parent_of_mem_children isChild
  obtain ⟨-, held, isHeld, within⟩ := tree.mem_active.1 isActive
  refine ⟨parallel, isParent, isParallel, ⟨held, isHeld, within⟩, fun leaf isLeaf below => ?_⟩
  exact inactive (tree.mem_active.2 ⟨tree.ne_root_of_parent isParent, leaf, isLeaf, below⟩)

/-- Leaves that may be active together are a legal configuration if there are any and no
region is missing. -/
theorem MayBeActive.isLegalConfiguration {leaves : NodeSet} (may : chart.MayBeActive leaves)
    (tree : chart.IsTree) (nonempty : ∃ leaf, leaf ∈ leaves)
    (noneMissing : chart.missingRegions leaves = []) : chart.IsLegalConfiguration leaves := by
  refine isLegalConfiguration_of_leaves tree nonempty may.atomic
    (fun a isA b isB => may.compatible a b isA isB) fun id isActive isParallel child isChild => ?_
  by_contra inactive
  have missing := mem_missingRegions.2 ⟨id, isActive, isParallel, isChild, inactive⟩
  rw [noneMissing] at missing
  exact List.not_mem_nil missing

section Apart

variable (executable : chart.IsExecutable) (records : chart.RecordsAreValid history)
  (apart : chart.LeadsApart history)
include executable records apart

/-- Nodes with compatible anchors, none of them within another one, yield leaves that are
compatible. -/
theorem mayBeActive_of_expandNodes {nodes : List NodeId} {reached after : Expansion}
    (atomic : ∀ leaf ∈ reached.leaves, (chart.node leaf).isAtomic = true)
    (compatible : chart.AllCompatible
      (fun other => other ∈ reached.leaves ∨ ∃ node ∈ nodes, chart.anchor node = other))
    (bottom : ∀ node ∈ nodes, ∀ other ∈ nodes, other ≠ node →
      ¬ chart.isWithin (chart.anchor other) (chart.anchor node) = true)
    (free : ∀ node ∈ nodes, ∀ leaf ∈ reached.leaves,
      ¬ chart.isDescendant leaf (chart.anchor node) = true)
    (proper : ∀ node ∈ nodes, chart.IsProper node)
    (done : chart.expandNodes history reached nodes = some after) :
    chart.MayBeActive after.leaves := by
  have tree := executable.tree
  have fromLeaf : ∀ leaf ∈ reached.leaves, ∀ node ∈ nodes, ∀ lower,
      chart.Enters history node lower → chart.AreCompatible leaf lower := by
    intro leaf isLeaf node isNode lower enters
    have within := executable.isWithin_anchor_of_enters records enters
    by_cases same : leaf = chart.anchor node
    · exact (tree.areCompatible_of_isWithin (same ▸ within)).symm
    · refine tree.areCompatible_lower (compatible leaf _ (.inl isLeaf) (.inr ⟨node, isNode, rfl⟩))
        (tree.isNode_of_isState (isState_of_isAtomic (atomic leaf isLeaf))).2
        (tree.anchor_lt_nodeCount (proper node isNode)) ?_ ?_ (isWithin_refl leaf) within
      · exact fun above => (isWithin_iff.1 above).elim same (free node isNode leaf isLeaf)
      · refine fun above => (isWithin_iff.1 above).elim (fun isSame => same isSame.symm) ?_
        exact tree.not_isDescendant_of_isAtomic (atomic leaf isLeaf)
          (executable.histories_eq_nil leaf (atomic leaf isLeaf))
  constructor
  · intro leaf isLeaf
    rcases (mem_expandNodes done).1 isLeaf with isOld | ⟨node, -, enters⟩
    · exact atomic leaf isOld
    · exact enters.isAtomic
  · intro a b isA isB
    rcases (mem_expandNodes done).1 isA with oldA | ⟨first, isFirst, entersA⟩
    · rcases (mem_expandNodes done).1 isB with oldB | ⟨second, isSecond, entersB⟩
      · exact compatible a b (.inl oldA) (.inl oldB)
      · exact fromLeaf a oldA second isSecond b entersB
    · rcases (mem_expandNodes done).1 isB with oldB | ⟨second, isSecond, entersB⟩
      · exact (fromLeaf b oldB first isFirst a entersA).symm
      · by_cases same : first = second
        · exact executable.areCompatible_of_enters records apart entersA (same ▸ entersB)
        · exact tree.areCompatible_lower
            (compatible _ _ (.inr ⟨first, isFirst, rfl⟩) (.inr ⟨second, isSecond, rfl⟩))
            (tree.anchor_lt_nodeCount (proper first isFirst))
            (tree.anchor_lt_nodeCount (proper second isSecond))
            (bottom second isSecond first isFirst same)
            (bottom first isFirst second isSecond (Ne.symm same))
            (executable.isWithin_anchor_of_enters records entersA)
            (executable.isWithin_anchor_of_enters records entersB)

/-- A round of filling keeps leaves atomic and compatible. -/
theorem mayBeActive_of_round {reached next : Expansion} (may : chart.MayBeActive reached.leaves)
    (stepped : chart.expandNodes history reached (chart.missingRegions reached.leaves) =
      some next) : chart.MayBeActive next.leaves := by
  have tree := executable.tree
  have uncovered : ∀ region ∈ chart.missingRegions reached.leaves,
      chart.IsUncovered (fun leaf => leaf ∈ reached.leaves) region :=
    fun region => tree.isUncovered_of_mem_missingRegions
  have regular : ∀ region ∈ chart.missingRegions reached.leaves,
      chart.anchor region = region := by
    intro region isRegion
    obtain ⟨parallel, -, -, isChild, -⟩ := mem_missingRegions.1 isRegion
    exact anchor_of_mem_children tree isChild
  refine mayBeActive_of_expandNodes executable records apart may.atomic ?_ ?_ ?_ ?_ stepped
  · have known : ∀ node, node ∈ reached.leaves ∨
        (∃ region ∈ chart.missingRegions reached.leaves, chart.anchor region = node) →
        node ∈ reached.leaves ∨ chart.IsUncovered (fun leaf => leaf ∈ reached.leaves) node := by
      rintro node (isLeaf | ⟨region, isRegion, rfl⟩)
      · exact .inl isLeaf
      · exact .inr ((regular region isRegion).symm ▸ uncovered region isRegion)
    exact fun a b isA isB => tree.allCompatible_or_isUncovered may.compatible
      (may.lt_nodeCount tree) a b (known a isA) (known b isB)
  · intro region isRegion other isOther different within
    rw [regular region isRegion, regular other isOther] at within
    exact (isWithin_iff.1 within).elim different
      (tree.not_isDescendant_of_isUncovered (uncovered region isRegion) (uncovered other isOther))
  · intro region isRegion leaf isLeaf below
    obtain ⟨-, -, -, -, free⟩ := uncovered region isRegion
    rw [regular region isRegion] at below
    exact free leaf isLeaf (isWithin_of_isDescendant below)
  · intro region isRegion
    obtain ⟨parallel, isParent, -⟩ := uncovered region isRegion
    exact ⟨tree.ne_root_of_parent isParent, lt_nodeCount_of_parent isParent⟩

/-- Filling regions keeps leaves atomic and compatible. -/
theorem mayBeActive_of_fillRegions {limit : Nat} {reached after : Expansion}
    (may : chart.MayBeActive reached.leaves)
    (done : chart.fillRegions history limit reached = some after) :
    chart.MayBeActive after.leaves ∧ chart.missingRegions after.leaves = [] :=
  have rounds : ∀ middle next : Expansion, chart.MayBeActive middle.leaves →
      chart.expandNodes history middle (chart.missingRegions middle.leaves) = some next →
      chart.MayBeActive next.leaves :=
    fun _ _ => mayBeActive_of_round executable records apart
  fillRegions_keeps rounds may done

end Apart

/-! ## Charts without histories -/

section NoHistories

variable (executable : chart.IsExecutable) (noHistories : ∀ id, (chart.node id).isHistory = false)
include executable noHistories

section Resolving

variable {before : NodeSet} {transitions : List TransitionId}
variable (legal : chart.IsLegalConfiguration before)
variable (active : ∀ id ∈ transitions, (chart.transition id).source ∈ chart.active before)
include legal active

omit noHistories in
/-- The leaves that stay are compatible with each other and with all targets. -/
theorem allCompatible_residual_or_target
    (targets : chart.AllCompatible (fun node => node ∈ chart.targetsOf transitions)) :
    chart.AllCompatible (fun node => node ∈ chart.residualOf before transitions ∨
      node ∈ chart.targetsOf transitions) := by
  have tree := executable.tree
  have withTarget : ∀ leaf ∈ chart.residualOf before transitions,
      ∀ target ∈ chart.targetsOf transitions, chart.AreCompatible leaf target := by
    intro leaf isResidual target isTarget
    obtain ⟨isLeaf, stays⟩ := mem_residualOf.1 isResidual
    obtain ⟨id, isTransition, ofTransition⟩ := mem_targetsOf.1 isTarget
    refine executable.areCompatible_of_stays legal (active id isTransition)
      (executable.isProper_of_mem_targetsOf isTarget) isLeaf fun left => stays ?_
    exact mem_leavesBehind.2 ⟨mem_active_of_mem tree legal.atomic isLeaf, id, isTransition, target,
      ofTransition, left⟩
  rintro a b (leafA | targetA) (leafB | targetB)
  · exact legal.areCompatible tree (mem_active_of_mem tree legal.atomic (mem_residualOf.1 leafA).1)
      (mem_active_of_mem tree legal.atomic (mem_residualOf.1 leafB).1)
  · exact withTarget a leafA b targetB
  · exact (withTarget b leafB a targetA).symm
  · exact targets a b targetA targetB

/-- What the seeds are expanded to, beside the leaves that stay, may be active together. -/
theorem mayBeActive_of_seeds
    (targets : chart.AllCompatible (fun node => node ∈ chart.targetsOf transitions))
    {reached : Expansion} (first : chart.expandNodes history
      { leaves := chart.residualOf before transitions } (chart.seedsOf before transitions) =
        some reached) : chart.MayBeActive reached.leaves := by
  have tree := executable.tree
  have residualAtomic : ∀ leaf ∈ chart.residualOf before transitions,
      (chart.node leaf).isAtomic = true :=
    fun leaf isResidual => legal.atomic leaf (mem_residualOf.1 isResidual).1
  have inside : ∀ node, node ∈ chart.residualOf before transitions ∨
      node ∈ chart.targetsOf transitions → node < chart.nodeCount := by
    rintro node (isResidual | isTarget)
    · exact (tree.isNode_of_isState (isState_of_isAtomic (residualAtomic node isResidual))).2
    · exact (executable.isProper_of_mem_targetsOf isTarget).2
  have all := tree.allCompatible_or_isUncovered
    (allCompatible_residual_or_target executable legal active targets) inside
  have known : ∀ node, node ∈ chart.residualOf before transitions ∨
      (∃ seed ∈ chart.seedsOf before transitions, chart.anchor seed = node) →
      (node ∈ chart.residualOf before transitions ∨ node ∈ chart.targetsOf transitions) ∨
        chart.IsUncovered (fun held => held ∈ chart.residualOf before transitions ∨
          held ∈ chart.targetsOf transitions) node := by
    rintro node (isResidual | ⟨seed, isSeed, rfl⟩)
    · exact .inl (.inl isResidual)
    · rw [anchor_of_noHistories noHistories]
      exact (executable.target_or_isUncovered (mem_seeds.1 isSeed).1).imp_left .inr
  refine mayBeActive_of_expandNodes executable (recordsAreValid_of_noHistories noHistories history)
    (executable.leadsApart_of_noHistories noHistories history) residualAtomic
    (fun a b isA isB => all a b (known a isA) (known b isB)) ?_ ?_
    (fun seed isSeed => executable.isProper_of_mem_openNodes (mem_seeds.1 isSeed).1) first
  · intro seed isSeed other isOther different within
    rw [anchor_of_noHistories noHistories, anchor_of_noHistories noHistories] at within
    exact (isWithin_iff.1 within).elim different
      ((mem_seeds.1 isSeed).2 other (.inl (mem_seeds.1 isOther).1))
  · intro seed isSeed leaf isLeaf
    rw [anchor_of_noHistories noHistories]
    exact (mem_seeds.1 isSeed).2 leaf (.inr isLeaf)

/-- Compatible targets lead to a legal configuration. -/
theorem exists_resolve_of_allCompatible (parallels : chart.ParallelsHaveChildren)
    (targets : chart.AllCompatible (fun node => node ∈ chart.targetsOf transitions)) :
    ∃ resolution, chart.resolve history before transitions = .ok resolution := by
  have tree := executable.tree
  have records := recordsAreValid_of_noHistories noHistories history
  have apart := executable.leadsApart_of_noHistories noHistories history
  obtain ⟨after, expanded⟩ : ∃ after, chart.expand history (chart.residualOf before transitions)
      (chart.seedsOf before transitions) = some after := by
    have ends : ∀ node, chart.IsProper node → chart.Ends history chart.nodeCount node :=
      fun node isProper => ⟨{ leaves := ∅ }, executable.exists_expandNode noHistories _ isProper.2
        (Nat.le_add_left _ _)⟩
    exact executable.exists_expand records parallels ends fun seed isSeed =>
      ends seed (executable.isProper_of_mem_openNodes (mem_seeds.1 isSeed).1)
  -- The seeds are expanded beside the leaves that stay, then missing regions are filled.
  obtain ⟨reached, first, others⟩ := Option.bind_eq_some_iff.1 expanded
  have mayReached := mayBeActive_of_seeds executable noHistories legal active targets first
  obtain ⟨may, noneMissing⟩ := mayBeActive_of_fillRegions executable records apart mayReached others
  have nonempty := executable.exists_mem_of_expand parallels records expanded
    (.inl (legal.exists_mem tree))
  have isLegal := may.isLegalConfiguration tree nonempty noneMissing
  exact ⟨_, resolve_eq_ok_iff.2 ⟨after, expanded, tree.violations_eq_nil_iff.2 isLegal, rfl⟩⟩

omit legal active in
/-- In a chart without histories every target is active after the microstep. -/
theorem isActive_of_isTarget (parallels : chart.ParallelsHaveChildren) {resolution : Resolution}
    (done : chart.resolve history before transitions = .ok resolution) {target : NodeId}
    (isTarget : target ∈ chart.targetsOf transitions) :
    target ∈ chart.active resolution.after := by
  have tree := executable.tree
  have records := recordsAreValid_of_noHistories noHistories history
  obtain ⟨reached, expanded, -, rfl⟩ := resolve_eq_ok_iff.1 done
  have downward : ∀ upper lower, chart.isWithin upper target = true →
      chart.isDescendant lower upper = true → chart.isWithin lower target = true :=
    fun upper lower above below => tree.isWithin_trans (isWithin_of_isDescendant below) above
  obtain ⟨node, isWanted, leaf, isLeaf, within⟩ := executable.exists_leaf_of_target parallels
    records expanded downward isTarget (isWithin_refl target)
  rw [anchor_of_noHistories noHistories] at within
  refine tree.mem_active.2 ⟨(executable.isProper_of_mem_targetsOf isTarget).1, leaf, isLeaf, ?_⟩
  exact tree.isWithin_trans (within.elim (fun same => isWithin_iff.2 (.inl same)) id) isWanted

/-- A microstep can be resolved just in case its targets are compatible. -/
theorem exists_resolve_iff (parallels : chart.ParallelsHaveChildren) :
    (∃ resolution, chart.resolve history before transitions = .ok resolution) ↔
      chart.AllCompatible (fun node => node ∈ chart.targetsOf transitions) := by
  refine ⟨fun ⟨resolution, done⟩ a b isA isB => ?_,
    exists_resolve_of_allCompatible executable noHistories legal active parallels⟩
  have sources : (∃ leaf, leaf ∈ before) →
      ∀ id ∈ transitions, chart.IsProper (chart.transition id).source :=
    fun _ id isTransition => legal.isProper executable.tree (active id isTransition)
  have leads := executable.leadsFrom_of_resolve parallels
    (recordsAreValid_of_noHistories noHistories history) sources done
  exact leads.legal.areCompatible executable.tree
    (isActive_of_isTarget executable noHistories parallels done isA)
    (isActive_of_isTarget executable noHistories parallels done isB)

end Resolving

end NoHistories

end Chart

end Statechart
