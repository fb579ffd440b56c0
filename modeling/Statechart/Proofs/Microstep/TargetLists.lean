import Statechart.Proofs.Microstep.Frame

/-!
# Taking one transition to several targets

Validation has seen to it that the targets of a transition part in parallels.  What
stays when the transition is taken is compatible with them, and so is what they lead to,
as long as no history stands beside a target below its owner.  In general the next
configuration is legal just in case every two of its leaves part in a parallel.
-/

namespace Statechart

namespace Chart

variable {chart : Chart} {history : NodeMap (List NodeId)} {before : NodeSet}
  {id : TransitionId}

instance (chart : Chart) (targets : List NodeId) : Decidable (chart.HistoriesStandAlone targets) :=
  inferInstanceAs (Decidable (∀ target ∈ targets, (chart.node target).isHistory = true →
    ∀ other ∈ targets, other ≠ target → ¬ chart.isDescendant other (chart.anchor target) = true))

theorem entriesStandAlone_of_all
    (all : chart.nodes.all (fun node => (node.initial.toList ++ node.historyDefault.toList).all
      (fun id => decide (chart.HistoriesStandAlone (chart.transition id).targets))) = true) :
    chart.EntriesStandAlone := by
  intro id transition isEntry
  have holds := List.all_eq_true.1 (forall_node_of_all
    (fun node => (node.initial.toList ++ node.historyDefault.toList).all
      (fun id => decide (chart.HistoriesStandAlone (chart.transition id).targets))) rfl all id)
  refine of_decide_eq_true (holds transition ?_)
  rw [List.mem_append, Option.mem_toList, Option.mem_toList]
  exact isEntry

/-- What stays when a transition is taken is atomic, compatible with the targets, and not
below their anchors. -/
structure StaysBeside (chart : Chart) (before : NodeSet) (id : TransitionId) : Prop where
  atomic : ∀ leaf ∈ chart.residualOf before [id], (chart.node leaf).isAtomic = true
  compatible : chart.AllCompatible (fun node =>
    node ∈ chart.residualOf before [id] ∨ node ∈ chart.targetsOf [id])
  free : ∀ leaf ∈ chart.residualOf before [id], ∀ target ∈ (chart.transition id).targets,
    ¬ chart.isDescendant leaf (chart.anchor target) = true

/-- Nodes are compatible if some nodes within them are. -/
theorem IsTree.areCompatible_upper (tree : chart.IsTree) {a b lowA lowB : NodeId}
    (compatible : chart.AreCompatible lowA lowB) (withinA : chart.isWithin lowA a = true)
    (withinB : chart.isWithin lowB b = true) : chart.AreCompatible a b :=
  fun meeting parted => compatible meeting (tree.partAt_lower parted withinA withinB)

namespace IsExecutable

variable (executable : chart.IsExecutable)
include executable

theorem allCompatible_targetsOf
    (legalTargets : chart.areLegalTargets (chart.transition id).targets = true) :
    chart.AllCompatible (fun node => node ∈ chart.targetsOf [id]) := by
  apply (executable.allCompatible_targets_iff (by simpa using legalTargets)).2
  simp [TargetsAgree]

/-- Nothing stays where nothing was active. -/
theorem staysBeside_empty
    (legalTargets : chart.areLegalTargets (chart.transition id).targets = true) :
    chart.StaysBeside ∅ id := by
  have noLeaf : ∀ leaf, ¬ leaf ∈ chart.residualOf ∅ [id] := fun leaf isLeaf =>
    NodeSet.not_mem_empty leaf (mem_residualOf.1 isLeaf).1
  constructor
  · exact fun leaf isLeaf => absurd isLeaf (noLeaf leaf)
  · exact fun a b isA isB => executable.allCompatible_targetsOf legalTargets a b
      (isA.resolve_left (noLeaf a)) (isB.resolve_left (noLeaf b))
  · exact fun leaf isLeaf => absurd isLeaf (noLeaf leaf)

/-- The leaves that stay lie outside of all scopes, and each target lies in one. -/
theorem staysBeside_of_legal
    (legalTargets : chart.areLegalTargets (chart.transition id).targets = true)
    (legal : chart.IsLegalConfiguration before)
    (isActive : (chart.transition id).source ∈ chart.active before) :
    chart.StaysBeside before id := by
  have tree := executable.tree
  have active : ∀ other ∈ [id], (chart.transition other).source ∈ chart.active before := by
    simpa using isActive
  constructor
  · exact fun leaf isLeaf => legal.atomic leaf (mem_residualOf.1 isLeaf).1
  · exact allCompatible_residual_or_target executable legal active
      (executable.allCompatible_targetsOf legalTargets)
  · intro leaf isLeaf target isTarget below
    apply ((executable.mem_residualOf_iff legal active).1 isLeaf).2
    have targetBelow := tree.target_isDescendant_routeScope (chart.transition id).source
      (executable.isNode_target id target isTarget)
    exact ⟨_, ⟨id, List.mem_singleton_self id, target, isTarget, rfl⟩,
      tree.isDescendant_trans_isWithin below (tree.isWithin_anchor_of_isDescendant targetBelow)⟩

/-! ## What the targets lead to -/

section Beside

variable (beside : chart.StaysBeside before id)
include beside

/-- What stays, the anchors of the targets and the uncovered regions beside them are
compatible. -/
theorem allCompatible_anchors :
    chart.AllCompatible (fun node => node ∈ chart.residualOf before [id] ∨
      ∃ seed ∈ chart.seedsOf before [id], chart.anchor seed = node) := by
  have tree := executable.tree
  let IsHeld (node : NodeId) : Prop := node ∈ chart.residualOf before [id] ∨
    ∃ target ∈ chart.targetsOf [id], chart.anchor target = node
  have exists_lower : ∀ node, IsHeld node → ∃ lower, (lower ∈ chart.residualOf before [id] ∨
      lower ∈ chart.targetsOf [id]) ∧ chart.isWithin lower node = true := by
    rintro node (isResidual | ⟨target, isTarget, rfl⟩)
    · exact ⟨node, .inl isResidual, isWithin_refl node⟩
    · exact ⟨target, .inr isTarget,
        tree.isWithin_anchor (executable.isProper_of_mem_targetsOf isTarget)⟩
  have ofHeld : chart.AllCompatible IsHeld := by
    intro a b isA isB
    obtain ⟨lowA, isLowA, withinA⟩ := exists_lower a isA
    obtain ⟨lowB, isLowB, withinB⟩ := exists_lower b isB
    exact tree.areCompatible_upper (beside.compatible lowA lowB isLowA isLowB) withinA withinB
  have inside : ∀ node, IsHeld node → node < chart.nodeCount := by
    rintro node (isResidual | ⟨target, isTarget, rfl⟩)
    · exact (tree.isNode_of_isState (isState_of_isAtomic (beside.atomic node isResidual))).2
    · exact tree.anchor_lt_nodeCount (executable.isProper_of_mem_targetsOf isTarget)
  have known : ∀ node, node ∈ chart.residualOf before [id] ∨
      (∃ seed ∈ chart.seedsOf before [id], chart.anchor seed = node) →
      IsHeld node ∨ chart.IsUncovered IsHeld node := by
    rintro node (isResidual | ⟨seed, isSeed, rfl⟩)
    · exact .inl (.inl isResidual)
    rcases executable.target_or_isSibling (mem_seeds.1 isSeed).1 with
      isTarget | ⟨region, parallel, isRegion, isParallel, isChild, ⟨target, isTarget, within⟩,
        free⟩
    · exact .inl (.inr ⟨seed, isTarget, rfl⟩)
    · rw [anchor_of_mem_children tree isChild]
      have isRegionOf := (tree.mem_children parallel region).1 isRegion
      refine .inr ⟨parallel, tree.parent_of_mem_children isChild, isParallel,
        ⟨chart.anchor target, .inr ⟨target, isTarget, rfl⟩, ?_⟩, fun held isHeld below => ?_⟩
      · apply tree.isWithin_trans (tree.isWithin_anchor_of_isWithin within ?_)
          (isWithin_of_isDescendant (tree.isDescendant_of_parent isRegionOf.1))
        rintro isHistory rfl
        exact absurd (isRegionOf.2.symm.trans isHistory) Bool.false_ne_true
      · obtain ⟨lower, isLower, lowerWithin⟩ := exists_lower held isHeld
        exact free lower isLower (tree.isWithin_trans lowerWithin below)
  exact fun a b isA isB =>
    tree.allCompatible_or_isUncovered ofHeld inside a b (known a isA) (known b isB)

omit beside in
/-- A history among the open nodes is a target, and it leads below its owner. -/
theorem target_of_isHistory {residual : NodeSet} {seed : NodeId}
    (seedOpen : seed ∈ chart.openNodes [id] residual (chart.routesOf [id]))
    (isHistory : (chart.node seed).isHistory = true) :
    seed ∈ (chart.transition id).targets ∧ chart.parent seed = some (chart.anchor seed) := by
  have tree := executable.tree
  have isTarget : seed ∈ (chart.transition id).targets := by
    refine mem_targetsOf_singleton.1 ((executable.target_or_isSibling seedOpen).resolve_right ?_)
    rintro ⟨-, parallel, -, -, isChild, -⟩
    exact absurd (((tree.mem_children parallel seed).1 isChild).2.symm.trans isHistory)
      Bool.false_ne_true
  have proper := executable.isNode_target id seed isTarget
  obtain ⟨owner, isOwner, -⟩ := tree.exists_parent seed proper.1 proper.2
  refine ⟨isTarget, ?_⟩
  rw [anchor, isHistory, if_pos rfl, isOwner, Option.getD_some]

/-- Nothing that stays lies below the anchor of a seed. -/
theorem not_isDescendant_anchor {seed leaf : NodeId} (isSeed : seed ∈ chart.seedsOf before [id])
    (isLeaf : leaf ∈ chart.residualOf before [id]) :
    ¬ chart.isDescendant leaf (chart.anchor seed) = true := by
  obtain ⟨seedOpen, bottom⟩ := mem_seeds.1 isSeed
  by_cases isHistory : (chart.node seed).isHistory = true
  · exact beside.free leaf isLeaf seed (target_of_isHistory executable seedOpen isHistory).1
  · rw [anchor, if_neg isHistory]
    exact bottom leaf (.inr isLeaf)

end Beside

section Alone

variable (alone : chart.HistoriesStandAlone (chart.transition id).targets)
include alone

/-- Beside a history that is a target, nothing below its owner is open. -/
theorem not_isDescendant_owner {residual : NodeSet} {seed other : NodeId}
    (seedOpen : seed ∈ chart.openNodes [id] residual (chart.routesOf [id]))
    (isHistory : (chart.node seed).isHistory = true)
    (otherOpen : other ∈ chart.openNodes [id] residual (chart.routesOf [id]))
    (different : other ≠ seed) : ¬ chart.isDescendant other (chart.anchor seed) = true := by
  have tree := executable.tree
  obtain ⟨seedIsTarget, -⟩ := target_of_isHistory executable seedOpen isHistory
  have beside := alone seed seedIsTarget isHistory
  intro below
  rcases executable.target_or_isSibling otherOpen with
    isTarget | ⟨region, parallel, isRegion, -, isChild, ⟨target, isTarget, inRegion⟩, -⟩
  · exact beside other (mem_targetsOf_singleton.1 isTarget) different below
  · -- The region that is entered lies below the owner as well, and with it a target.
    obtain ⟨parent, isParent, above⟩ := tree.isDescendant_iff_parent.1 below
    obtain rfl := Option.some.inj (isParent.symm.trans (tree.parent_of_mem_children isChild))
    obtain ⟨isRegionOf, regular⟩ := (tree.mem_children parent region).1 isRegion
    have regionBelow := tree.isDescendant_trans_isWithin
      (tree.isDescendant_of_parent isRegionOf) above
    by_cases same : target = seed
    · -- The history lies in the region, so its owner does, which holds the region.
      subst same
      have ownerWithin := tree.isWithin_anchor_of_isWithin inRegion fun _ same =>
        Bool.false_ne_true (regular.symm.trans (same ▸ isHistory))
      exact tree.not_isDescendant_self _
        (tree.isDescendant_of_isWithin_of_isDescendant ownerWithin regionBelow)
    · exact beside target (mem_targetsOf_singleton.1 isTarget) same
        (tree.isDescendant_of_isWithin_of_isDescendant inRegion regionBelow)

/-- The anchor of a seed is within that of no other seed. -/
theorem not_isWithin_anchor {seed other : NodeId} (isSeed : seed ∈ chart.seedsOf before [id])
    (isOther : other ∈ chart.seedsOf before [id]) (different : other ≠ seed) :
    ¬ chart.isWithin (chart.anchor other) (chart.anchor seed) = true := by
  have tree := executable.tree
  obtain ⟨seedOpen, seedBottom⟩ := mem_seeds.1 isSeed
  obtain ⟨otherOpen, otherBottom⟩ := mem_seeds.1 isOther
  intro within
  have otherWithin := tree.isWithin_trans
    (tree.isWithin_anchor (executable.isProper_of_mem_openNodes otherOpen)) within
  cases isHistory : (chart.node seed).isHistory with
  | false =>
      rw [anchor, isHistory] at otherWithin
      exact (isWithin_iff.1 otherWithin).elim different (seedBottom other (.inl otherOpen))
  | true =>
      obtain ⟨-, isOwner⟩ := target_of_isHistory executable seedOpen isHistory
      rcases isWithin_iff.1 otherWithin with same | below
      · exact otherBottom seed (.inl seedOpen) (same ▸ tree.isDescendant_of_parent isOwner)
      · exact not_isDescendant_owner executable alone seedOpen isHistory otherOpen different below

end Alone

/-! ## Legal outcomes -/

/-- What an expansion leads to is legal just in case it has leaves, every two of which part in
a parallel. -/
theorem isLegalConfiguration_iff_areOrthogonal {residual : NodeSet} {seeds : List NodeId}
    {reached : Expansion} (atomic : ∀ leaf ∈ residual, (chart.node leaf).isAtomic = true)
    (done : chart.expand history residual seeds = some reached) :
    chart.IsLegalConfiguration reached.leaves ↔
      (∃ leaf, leaf ∈ reached.leaves) ∧ ∀ a ∈ reached.leaves, ∀ b ∈ reached.leaves,
        a ≠ b → chart.areOrthogonal a b = true := by
  have tree := executable.tree
  obtain ⟨atomic, noneMissing⟩ := atomic_of_expand atomic done
  have inside : ∀ leaf ∈ reached.leaves, leaf < chart.nodeCount := fun leaf isLeaf =>
    (tree.isNode_of_isState (isState_of_isAtomic (atomic leaf isLeaf))).2
  constructor
  · intro legal
    exact ⟨legal.exists_mem tree, fun a isA b isB => executable.areOrthogonal_of_mem legal isA isB⟩
  · rintro ⟨nonempty, orthogonal⟩
    have compatible : chart.AllCompatible (fun leaf => leaf ∈ reached.leaves) := by
      intro a b isA isB
      by_cases same : a = b
      · exact same ▸ tree.areCompatible_of_isWithin (isWithin_refl a)
      · exact (tree.areCompatible_iff (inside a isA) (inside b isB)).2
          (.inr (.inr (orthogonal a isA b isB same)))
    exact MayBeActive.isLegalConfiguration ⟨atomic, compatible⟩ tree nonempty noneMissing

/-- The next configuration is legal if histories stand alone, and what is recorded parts in
parallels as well. -/
theorem isLegalConfiguration_of_historiesStandAlone (beside : chart.StaysBeside before id)
    {reached : Expansion} (done : chart.expand history (chart.residualOf before [id])
      (chart.seedsOf before [id]) = some reached) (records : chart.RecordsAreValid history)
    (apart : chart.LeadsApart history)
    (alone : chart.HistoriesStandAlone (chart.transition id).targets)
    (nonempty : ∃ leaf, leaf ∈ reached.leaves) : chart.IsLegalConfiguration reached.leaves := by
  obtain ⟨middle, first, others⟩ := Option.bind_eq_some_iff.1 done
  have mayMiddle : chart.MayBeActive middle.leaves := by
    apply mayBeActive_of_expandNodes executable records apart beside.atomic
      (executable.allCompatible_anchors beside) _ _ _ first
    · exact fun seed isSeed other isOther => executable.not_isWithin_anchor alone isSeed isOther
    · exact fun seed isSeed leaf => executable.not_isDescendant_anchor beside isSeed
    · exact fun seed isSeed => executable.isProper_of_mem_openNodes (mem_seeds.1 isSeed).1
  obtain ⟨may, noneMissing⟩ := mayBeActive_of_fillRegions executable records apart mayMiddle others
  exact may.isLegalConfiguration executable.tree nonempty noneMissing

end IsExecutable

end Chart

end Statechart
