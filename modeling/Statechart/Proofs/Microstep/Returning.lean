import Statechart.Proofs.Microstep.Records
import Statechart.Proofs.Microstep.Resolution

/-!
# Returning through a history

A transition whose only target is a history leads back to what the history recorded.
Nothing below the owner of the history stays, the regions that are opened besides lie
apart from the owner, and regions that are filled in afterwards add nothing below it:
what was recorded comes from a legal configuration, where no region was missing.
-/

namespace Statechart

namespace Chart

/-- A transition from an active state has a history as its only target, and the history
recorded when its owner was active in a legal configuration. -/
structure IsReturn (chart : Chart) (records : NodeMap (List NodeId)) (recorded before : NodeSet)
    (id : TransitionId) (history owner : NodeId) (kind : HistoryKind) : Prop where
  legal : chart.IsLegalConfiguration before
  isSource : (chart.transition id).source ∈ chart.active before
  targets : (chart.transition id).targets = [history]
  isOwner : chart.parent history = some owner
  isHistory : ∃ default, (chart.node history).kind = .history kind default
  wasLegal : chart.IsLegalConfiguration recorded
  wasActive : owner ∈ chart.active recorded
  found : records.find? history = some (World.recordOf chart recorded owner kind)
  valid : chart.RecordsAreValid records

variable {chart : Chart} {records : NodeMap (List NodeId)} {recorded before : NodeSet}
  {id : TransitionId} {history owner : NodeId} {kind : HistoryKind}

/-- A leaf below an active node that a missing region brings is brought by a region of an
active parallel within the node. -/
theorem IsTree.exists_parallel_of_missing (tree : chart.IsTree) {leaves : NodeSet}
    {region leaf : NodeId} (isActive : owner ∈ chart.active leaves)
    (missing : region ∈ chart.missingRegions leaves)
    (within : chart.isWithin leaf (chart.anchor region) = true)
    (below : chart.isDescendant leaf owner = true) :
    ∃ parallel ∈ chart.active leaves, (chart.node parallel).isParallel = true ∧
      region ∈ (chart.node parallel).children ∧ ¬ region ∈ chart.active leaves ∧
      chart.isWithin parallel owner = true := by
  obtain ⟨parallel, parallelActive, isParallel, isChild, inactive⟩ := mem_missingRegions.1 missing
  rw [anchor_of_mem_children tree isChild] at within
  have isParent := tree.parent_of_mem_children isChild
  have apart : region ≠ owner := fun same => inactive (same ▸ isActive)
  refine ⟨parallel, parallelActive, isParallel, isChild, inactive, ?_⟩
  rcases tree.isWithin_or_isWithin within (isWithin_of_isDescendant below) with lower | lower
  · obtain ⟨parent, isOther, parentWithin⟩ := tree.isDescendant_iff_parent.1
      ((isWithin_iff.1 lower).resolve_left apart)
    exact Option.some.inj (isOther.symm.trans isParent) ▸ parentWithin
  · have above := (isWithin_iff.1 lower).resolve_left fun same => apart same.symm
    exact absurd ((tree.isUpward_active leaves).mem_of_isDescendant owner region isActive above
      (tree.ne_root_of_parent isParent)) inactive

namespace IsReturn

section

variable (returns : chart.IsReturn records recorded before id history owner kind)
include returns

theorem mem_targetsOf_iff {node : NodeId} : node ∈ chart.targetsOf [id] ↔ node = history := by
  rw [mem_targetsOf]
  simp [returns.targets]

theorem isHistory_history : (chart.node history).isHistory = true := by
  obtain ⟨default, isKind⟩ := returns.isHistory
  simp [Node.isHistory, isKind]

theorem leadsTo_eq : chart.leadsTo records history =
    World.recordOf chart recorded owner kind := by
  obtain ⟨default, isKind⟩ := returns.isHistory
  rw [leadsTo]
  simp [isKind, returns.found]

theorem isDescendant_of_mem_record {node : NodeId}
    (isRecorded : node ∈ World.recordOf chart recorded owner kind) :
    chart.isDescendant node owner = true :=
  (returns.valid history returns.isHistory_history _ returns.found).2 node isRecorded owner
    returns.isOwner

end

variable (executable : chart.IsExecutable)
  (returns : chart.IsReturn records recorded before id history owner kind)
include executable returns

theorem isProper_history : chart.IsProper history :=
  ⟨executable.tree.ne_root_of_parent returns.isOwner, lt_nodeCount_of_parent returns.isOwner⟩

theorem mem_histories : history ∈ (chart.node owner).histories :=
  (executable.tree.mem_histories owner history).2 ⟨returns.isOwner, returns.isHistory_history⟩

theorem not_isAtomic_owner : ¬ (chart.node owner).isAtomic = true := by
  intro isAtomic
  have isMember := returns.mem_histories executable
  rw [executable.histories_eq_nil owner isAtomic] at isMember
  exact List.not_mem_nil isMember

theorem not_isDescendant_of_mem_residual {leaf : NodeId}
    (stays : leaf ∈ chart.residualOf before [id]) : ¬ chart.isDescendant leaf owner = true := by
  have tree := executable.tree
  obtain ⟨isLeaf, notLeft⟩ := mem_residualOf.1 stays
  intro below
  have isProper := returns.isProper_history executable
  have isActive := mem_active_of_mem tree returns.legal.atomic isLeaf
  have properSource := returns.legal.isProper tree returns.isSource
  obtain ⟨parent, isParent, within⟩ := tree.isDescendant_iff_parent.1
    (tree.isDescendant_routeScope properSource isProper).2
  obtain rfl := Option.some.inj (isParent.symm.trans returns.isOwner)
  exact notLeft (mem_leavesBehind.2 ⟨isActive, id, List.mem_singleton_self id, history,
    returns.targets ▸ List.mem_singleton_self history,
    returns.legal.isLeftBy_of_isDescendant_routeScope tree returns.isSource isProper isActive
      (tree.isDescendant_trans_isWithin below within)⟩)

/-- What is open besides the history lies apart from the owner. -/
theorem apart_of_mem_openNodes {node leaf : NodeId}
    (isOpen : node ∈ chart.openNodes [id] (chart.residualOf before [id]) (chart.routesOf [id]))
    (notHistory : node ≠ history) (within : chart.isWithin leaf (chart.anchor node) = true) :
    ¬ chart.isDescendant leaf owner = true := by
  have tree := executable.tree
  obtain ⟨region, parallel, isRegion, -, isChild, ⟨target, isTarget, above⟩, free⟩ :=
    (executable.target_or_isSibling isOpen).resolve_left
      fun isTarget => notHistory (returns.mem_targetsOf_iff.1 isTarget)
  obtain rfl := returns.mem_targetsOf_iff.1 isTarget
  rw [anchor_of_mem_children tree isChild] at within
  have isParent := tree.parent_of_mem_children isChild
  have ownerAbove := tree.isDescendant_of_parent returns.isOwner
  have notAbove : ¬ chart.isWithin owner node = true := fun lower =>
    free target (.inr isTarget) (tree.isWithin_trans (isWithin_of_isDescendant ownerAbove) lower)
  -- The region on the way to the history holds the owner, since it is no history itself.
  have ownerBelow : chart.isDescendant owner parallel = true := by
    obtain ⟨isOfRegion, regular⟩ := (tree.mem_children parallel region).1 isRegion
    have apart : target ≠ region := by
      rintro rfl
      exact absurd (regular.symm.trans returns.isHistory_history) Bool.false_ne_true
    obtain ⟨parent, isOther, lower⟩ := tree.isDescendant_iff_parent.1
      ((isWithin_iff.1 above).resolve_left apart)
    obtain rfl := Option.some.inj (isOther.symm.trans returns.isOwner)
    exact tree.isDescendant_of_isWithin_of_isDescendant lower
      (tree.isDescendant_of_parent isOfRegion)
  intro below
  rcases tree.isWithin_or_isWithin within (isWithin_of_isDescendant below) with lower | lower
  · rcases isWithin_iff.1 lower with rfl | proper
    · exact notAbove (isWithin_refl node)
    · obtain ⟨parent, isOther, parentWithin⟩ := tree.isDescendant_iff_parent.1 proper
      obtain rfl := Option.some.inj (isOther.symm.trans isParent)
      exact tree.not_isDescendant_self _
        (tree.isDescendant_of_isWithin_of_isDescendant parentWithin ownerBelow)
  · exact notAbove lower

/-! ## Expanding -/

theorem history_mem_seeds : history ∈ chart.seedsOf before [id] := by
  refine mem_seeds.2 ⟨mem_openNodes_of_target (returns.mem_targetsOf_iff.2 rfl),
    fun pin _ below => ?_⟩
  have notHistory := executable.tree.isHistory_of_isDescendant below
  exact absurd (notHistory.symm.trans returns.isHistory_history) Bool.false_ne_true

section Expanding

variable {reached : Expansion}
  (expanded : chart.expandNodes records { leaves := chart.residualOf before [id] }
    (chart.seedsOf before [id]) = some reached)
include expanded

/-- Expanding reaches just those leaves below the owner to which the record leads. -/
theorem mem_reached_iff {leaf : NodeId} :
    (leaf ∈ reached.leaves ∧ chart.isDescendant leaf owner = true) ↔
      ∃ node ∈ World.recordOf chart recorded owner kind, chart.Enters records node leaf := by
  have tree := executable.tree
  rw [mem_expandNodes expanded]
  constructor
  · rintro ⟨stays | ⟨seed, isSeed, enters⟩, below⟩
    · exact absurd below (returns.not_isDescendant_of_mem_residual executable stays)
    · by_cases isHistory : seed = history
      · subst isHistory
        have notAtomic : ¬ (chart.node seed).isAtomic = true := by
          obtain ⟨default, isKind⟩ := returns.isHistory
          simp [Node.isAtomic, Node.isState, isKind]
        obtain ⟨next, leads, further⟩ :=
          (enters_iff.1 enters).resolve_left fun isEnd => notAtomic isEnd.1
        exact ⟨next, returns.leadsTo_eq ▸ leads, further⟩
      · exact absurd below (returns.apart_of_mem_openNodes executable (mem_seeds.1 isSeed).1
          isHistory (executable.isWithin_anchor_of_enters returns.valid enters))
  · rintro ⟨node, isRecorded, enters⟩
    have leads : node ∈ chart.leadsTo records history := returns.leadsTo_eq ▸ isRecorded
    refine ⟨.inr ⟨history, returns.history_mem_seeds executable, .step leads enters⟩, ?_⟩
    have within := tree.isWithin_trans (executable.isWithin_anchor_of_enters returns.valid enters)
      (tree.isWithin_anchor_of_isDescendant (returns.isDescendant_of_mem_record isRecorded))
    refine (isWithin_iff.1 within).resolve_left ?_
    rintro rfl
    exact returns.not_isAtomic_owner executable enters.isAtomic

theorem exists_enters (parallels : chart.ParallelsHaveChildren) {node : NodeId}
    (isRecorded : node ∈ World.recordOf chart recorded owner kind) :
    ∃ leaf, chart.Enters records node leaf := by
  obtain ⟨first, last, ofHistory⟩ :=
    exists_expandNode_of_expandNodes expanded history (returns.history_mem_seeds executable)
  obtain ⟨limit, isSucc⟩ := Nat.exists_eq_succ_of_ne_zero
    (Nat.ne_zero_of_lt (returns.isProper_history executable).2)
  rw [isSucc, expandNode_succ, returns.leadsTo_eq] at ofHistory
  obtain ⟨start, stop, ofNode⟩ := exists_expandNode_of_expandNodes ofHistory node isRecorded
  have isProper := executable.tree.isProper_of_isDescendant
    (returns.isDescendant_of_mem_record isRecorded)
  exact executable.exists_enters returns.valid parallels isProper ofNode

end Expanding

/-! ## Filling regions -/

theorem owner_isActive_of_child {leaves : NodeSet} {child : NodeId}
    (isChild : child ∈ (chart.node owner).children) (isActive : child ∈ chart.active leaves) :
    owner ∈ chart.active leaves :=
  (executable.tree.isUpward_active leaves).mem_of_isDescendant child owner isActive
    (executable.tree.isDescendant_of_parent (executable.tree.parent_of_mem_children isChild))
    (returns.wasLegal.isProper executable.tree returns.wasActive).1

/-- A region that is missing although its parallel was active was not active either. -/
theorem exists_recorded_of_region {parallel region : NodeId}
    (isParallel : (chart.node parallel).isParallel = true)
    (isRegion : region ∈ (chart.node parallel).children)
    (wasActive : parallel ∈ chart.active recorded)
    (within : chart.isWithin parallel owner = true) :
    ∃ leaf ∈ recorded, chart.isWithin leaf region = true ∧
      chart.isDescendant leaf owner = true := by
  have tree := executable.tree
  obtain ⟨-, leaf, isLeaf, inRegion⟩ := tree.mem_active.1
    (returns.wasLegal.parallel parallel wasActive isParallel region isRegion)
  have below := tree.isDescendant_trans_isWithin
    (tree.isDescendant_of_parent (tree.parent_of_mem_children isRegion)) within
  exact ⟨leaf, isLeaf, inRegion, tree.isDescendant_of_isWithin_of_isDescendant inRegion below⟩

/-- Filling regions adds no leaf below the owner if just the recorded ones are there. -/
theorem leaves_of_round {reached next : Expansion}
    (same : ∀ leaf, (leaf ∈ reached.leaves ∧ chart.isDescendant leaf owner = true) ↔
      (leaf ∈ recorded ∧ chart.isDescendant leaf owner = true))
    (stepped : chart.expandNodes records reached (chart.missingRegions reached.leaves) =
      some next) (leaf : NodeId) :
    (leaf ∈ next.leaves ∧ chart.isDescendant leaf owner = true) ↔
      (leaf ∈ recorded ∧ chart.isDescendant leaf owner = true) := by
  have tree := executable.tree
  have notRoot := (returns.wasLegal.isProper tree returns.wasActive).1
  obtain ⟨held, isHeld, heldBelow, -⟩ := World.exists_active_below executable
    returns.wasLegal.atomic returns.wasActive (returns.mem_histories executable)
  have isActive : owner ∈ chart.active reached.leaves := tree.mem_active.2
    ⟨notRoot, held, ((same held).2 ⟨isHeld, heldBelow⟩).1, isWithin_of_isDescendant heldBelow⟩
  rw [mem_expandNodes stepped]
  constructor
  · rintro ⟨isOld | ⟨region, missing, enters⟩, below⟩
    · exact (same leaf).1 ⟨isOld, below⟩
    · -- The leaf would be brought by a region that is missing; but when the history recorded,
      -- all regions of that parallel were active.
      obtain ⟨parallel, parallelActive, isParallel, isRegion, inactive, within⟩ :=
        tree.exists_parallel_of_missing isActive missing
          (executable.isWithin_anchor_of_enters returns.valid enters) below
      have wasActive : parallel ∈ chart.active recorded := by
        rcases isWithin_iff.1 within with rfl | lower
        · exact returns.wasActive
        · obtain ⟨isNotRoot, other, isOther, inParallel⟩ := tree.mem_active.1 parallelActive
          have otherBelow := tree.isDescendant_of_isWithin_of_isDescendant inParallel lower
          exact tree.mem_active.2
            ⟨isNotRoot, other, ((same other).1 ⟨isOther, otherBelow⟩).1, inParallel⟩
      obtain ⟨other, wasLeaf, inRegion, otherBelow⟩ :=
        returns.exists_recorded_of_region executable isParallel isRegion wasActive within
      exact absurd (tree.mem_active.2
        ⟨tree.ne_root_of_parent (tree.parent_of_mem_children isRegion), other,
          ((same other).2 ⟨wasLeaf, otherBelow⟩).1, inRegion⟩) inactive
  · rintro ⟨wasLeaf, below⟩
    exact ⟨.inl ((same leaf).2 ⟨wasLeaf, below⟩).1, below⟩

/-- Filling regions activates no other child of the owner if just the recorded ones are
active. -/
theorem children_of_round {reached next : Expansion}
    (same : ∀ child ∈ (chart.node owner).children,
      (child ∈ chart.active reached.leaves ↔ child ∈ chart.active recorded))
    (stepped : chart.expandNodes records reached (chart.missingRegions reached.leaves) =
      some next) :
    ∀ child ∈ (chart.node owner).children,
      (child ∈ chart.active next.leaves ↔ child ∈ chart.active recorded) := by
  have tree := executable.tree
  obtain ⟨-, -, -, held, isHeld, heldActive⟩ := World.exists_active_below executable
    returns.wasLegal.atomic returns.wasActive (returns.mem_histories executable)
  have isActive := returns.owner_isActive_of_child executable isHeld
    ((same held isHeld).2 heldActive)
  intro child isChild
  have isParent := tree.parent_of_mem_children isChild
  constructor
  · intro nextActive
    obtain ⟨notRoot, leaf, isLeaf, inChild⟩ := tree.mem_active.1 nextActive
    rcases (mem_expandNodes stepped).1 isLeaf with isOld | ⟨region, missing, enters⟩
    · exact (same child isChild).1 (tree.mem_active.2 ⟨notRoot, leaf, isOld, inChild⟩)
    · have inAnchor := executable.isWithin_anchor_of_enters returns.valid enters
      have below := tree.isDescendant_of_isWithin_of_isDescendant inChild
        (tree.isDescendant_of_parent isParent)
      obtain ⟨parallel, parallelActive, isParallel, isRegion, inactive, within⟩ :=
        tree.exists_parallel_of_missing isActive missing inAnchor below
      rcases isWithin_iff.1 within with rfl | lower
      · -- All children of the owner were active, so none of them is missing.
        have wasActive := returns.wasLegal.parallel parallel returns.wasActive isParallel region
          isRegion
        exact absurd ((same region isRegion).2 wasActive) inactive
      · obtain ⟨other, isOther, inOther⟩ := tree.exists_child_above lower
        rw [anchor_of_mem_children tree isRegion] at inAnchor
        have leafInOther := tree.isWithin_trans inAnchor (tree.isWithin_trans
          (isWithin_of_isDescendant
            (tree.isDescendant_of_parent (tree.parent_of_mem_children isRegion))) inOther)
        obtain rfl := tree.eq_of_siblings_above isParent isOther inChild leafInOther
        obtain ⟨-, held, isHeld, inParallel⟩ := tree.mem_active.1 parallelActive
        exact (same child isChild).1 (tree.mem_active.2
          ⟨notRoot, held, isHeld, tree.isWithin_trans inParallel inOther⟩)
  · intro wasActive
    obtain ⟨notRoot, leaf, isLeaf, inChild⟩ :=
      tree.mem_active.1 ((same child isChild).2 wasActive)
    exact tree.mem_active.2 ⟨notRoot, leaf, (mem_expandNodes stepped).2 (.inl isLeaf), inChild⟩

end IsReturn

/-! ## Afterwards -/

/-- After the return through a deep history just those leaves are active below its owner
that were when the history recorded. -/
theorem IsReturn.mem_after_iff (executable : chart.IsExecutable)
    (returns : chart.IsReturn records recorded before id history owner .deep)
    {resolution : Resolution} (done : chart.resolve records before [id] = .ok resolution)
    (leaf : NodeId) :
    (leaf ∈ resolution.after ∧ chart.isDescendant leaf owner = true) ↔
      (leaf ∈ recorded ∧ chart.isDescendant leaf owner = true) := by
  obtain ⟨reached, expanded, -, rfl⟩ := resolve_eq_ok_iff.1 done
  obtain ⟨first, isFirst, others⟩ := Option.bind_eq_some_iff.1 expanded
  let Same (reached : Expansion) : Prop :=
    ∀ leaf, (leaf ∈ reached.leaves ∧ chart.isDescendant leaf owner = true) ↔
      (leaf ∈ recorded ∧ chart.isDescendant leaf owner = true)
  have begins : Same first := by
    intro leaf
    rw [returns.mem_reached_iff executable isFirst]
    constructor
    · rintro ⟨node, isRecorded, enters⟩
      obtain ⟨wasLeaf, below⟩ := World.mem_recordOf_deep.1 isRecorded
      obtain rfl := enters.eq_of_isAtomic (returns.wasLegal.atomic node wasLeaf)
      exact ⟨wasLeaf, below⟩
    · rintro ⟨wasLeaf, below⟩
      exact ⟨leaf, World.mem_recordOf_deep.2 ⟨wasLeaf, below⟩,
        .atomic (returns.wasLegal.atomic leaf wasLeaf)⟩
  have rounds : ∀ reached next, Same reached →
      chart.expandNodes records reached (chart.missingRegions reached.leaves) = some next →
      Same next :=
    fun reached next same stepped => returns.leaves_of_round executable same stepped
  exact (fillRegions_keeps rounds begins others).1 leaf

/-- After the return through a shallow history just those children of its owner are active
that were when the history recorded. -/
theorem IsReturn.mem_active_after_iff (executable : chart.IsExecutable)
    (parallels : chart.ParallelsHaveChildren)
    (returns : chart.IsReturn records recorded before id history owner .shallow)
    {resolution : Resolution} (done : chart.resolve records before [id] = .ok resolution) :
    ∀ child ∈ (chart.node owner).children,
      (child ∈ chart.active resolution.after ↔ child ∈ chart.active recorded) := by
  have tree := executable.tree
  obtain ⟨reached, expanded, -, rfl⟩ := resolve_eq_ok_iff.1 done
  obtain ⟨first, isFirst, others⟩ := Option.bind_eq_some_iff.1 expanded
  let Same (reached : Expansion) : Prop :=
    ∀ child ∈ (chart.node owner).children,
      (child ∈ chart.active reached.leaves ↔ child ∈ chart.active recorded)
  have begins : Same first := by
    intro child isChild
    have isParent := tree.parent_of_mem_children isChild
    have notRoot := tree.ne_root_of_parent isParent
    rw [tree.mem_active, and_iff_right notRoot]
    constructor
    · rintro ⟨leaf, isLeaf, inChild⟩
      have below := tree.isDescendant_of_isWithin_of_isDescendant inChild
        (tree.isDescendant_of_parent isParent)
      obtain ⟨node, isRecorded, enters⟩ :=
        (returns.mem_reached_iff executable isFirst).1 ⟨isLeaf, below⟩
      obtain ⟨isOther, wasActive⟩ := World.mem_recordOf_shallow.1 isRecorded
      have inNode := executable.isWithin_anchor_of_enters returns.valid enters
      rw [anchor_of_mem_children tree isOther] at inNode
      obtain rfl := tree.eq_of_siblings_above isParent (tree.parent_of_mem_children isOther)
        inChild inNode
      exact wasActive
    · intro wasActive
      have isRecorded := World.mem_recordOf_shallow.2 ⟨isChild, wasActive⟩
      obtain ⟨leaf, enters⟩ := returns.exists_enters executable isFirst parallels isRecorded
      have isReached := (returns.mem_reached_iff executable isFirst).2 ⟨child, isRecorded, enters⟩
      have inChild := executable.isWithin_anchor_of_enters returns.valid enters
      rw [anchor_of_mem_children tree isChild] at inChild
      exact ⟨leaf, isReached.1, inChild⟩
  have rounds : ∀ reached next, Same reached →
      chart.expandNodes records reached (chart.missingRegions reached.leaves) = some next →
      Same next :=
    fun reached next same stepped => returns.children_of_round executable same stepped
  exact (fillRegions_keeps rounds begins others).1

end Chart

end Statechart
