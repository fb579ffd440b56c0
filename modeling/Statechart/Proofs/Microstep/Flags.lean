import Statechart.Proofs.Microstep.Progress

/-!
# What the flags tell

A composite state is done just as long as one of its final states is active, and the
machine is final once a final state at the top is.  A parallel whose regions are states
is done just as long as all its regions are, and its completion is signalled in the
microsteps in which it comes to be done.  All this is kept by microsteps.
-/

namespace Statechart

namespace Chart

/-- A state has an active child that is a final state. -/
def HasFinalChild (chart : Chart) (active : NodeSet) (state : NodeId) : Prop :=
  ∃ child ∈ (chart.node state).children, child ∈ active ∧ (chart.node child).isFinal = true

/-- The flags say which composite states, and whether the machine, have come to a final
state. -/
structure TellsCompletion (chart : Chart) (status : Status) : Prop where
  mem_done : ∀ state, (chart.node state).isComposite = true →
    (state ∈ status.done ↔
      state ∈ status.active chart ∧ chart.HasFinalChild (status.active chart) state)
  isFinal_iff : status.isFinal = true ↔ chart.HasFinalChild (status.active chart) rootId

/-- The regions of a parallel are states, none of them marked as final. -/
def HasStatesAsRegions (chart : Chart) (parallel : NodeId) : Prop :=
  ∀ region ∈ (chart.node parallel).children,
    (chart.node region).isState = true ∧ (chart.node region).isFinal = false

/-- A parallel is done just as long as all its regions are. -/
def TellsRegions (chart : Chart) (parallel : NodeId) (status : Status) : Prop :=
  parallel ∈ status.done ↔ ∀ region ∈ (chart.node parallel).children, region ∈ status.done

variable {chart : Chart}

theorem isParallel_of_isState {node : NodeId} (isState : (chart.node node).isState = true) :
    (chart.node node).isParallel = false := by
  cases kind : (chart.node node).kind <;> simp_all [Node.isState, Node.isParallel]

theorem isHistory_of_isFinal {node : NodeId} (isFinal : (chart.node node).isFinal = true) :
    (chart.node node).isHistory = false := by
  cases kind : (chart.node node).kind <;> simp_all [Node.isFinal, Node.isHistory]

theorem isState_of_isFinal {node : NodeId} (isFinal : (chart.node node).isFinal = true) :
    (chart.node node).isState = true := by
  cases kind : (chart.node node).kind <;> simp_all [Node.isFinal, Node.isState]

theorem isFinal_of_isParallel {node : NodeId} (isParallel : (chart.node node).isParallel = true) :
    (chart.node node).isFinal = false := by
  cases kind : (chart.node node).kind <;> simp_all [Node.isParallel, Node.isFinal]

theorem hasFinalChild_iff (tree : chart.IsTree) {active : NodeSet} {state : NodeId} :
    chart.HasFinalChild active state ↔ ∃ child ∈ active, chart.IsFinalChild child state := by
  constructor
  · rintro ⟨child, isChild, isActive, isFinal⟩
    exact ⟨child, isActive, tree.parent_of_mem_children isChild, isFinal⟩
  · rintro ⟨child, isActive, isParent, isFinal⟩
    exact ⟨child, (tree.mem_children state child).2 ⟨isParent, isHistory_of_isFinal isFinal⟩,
      isActive, isFinal⟩

theorem hasFinalChild_root_iff (tree : chart.IsTree) {active : NodeSet} :
    chart.HasFinalChild active rootId ↔ ∃ child ∈ active, chart.IsTopFinal child := by
  rw [hasFinalChild_iff tree]
  refine exists_congr fun child => and_congr_right fun _ => ?_
  constructor
  · rintro ⟨isParent, isFinal⟩
    exact ⟨isFinal, by rw [isParent]; rfl⟩
  · rintro ⟨isFinal, atTop⟩
    have isProper := tree.isNode_of_isState (isState_of_isFinal isFinal)
    obtain ⟨parent, isParent, -⟩ := tree.exists_parent child isProper.1 isProper.2
    rw [isParent, Option.getD_some] at atTop
    exact ⟨atTop ▸ isParent, isFinal⟩

theorem IsTree.isActive_parent (tree : chart.IsTree) {leaves : NodeSet} {child parent : NodeId}
    (isActive : child ∈ chart.active leaves) (isParent : chart.parent child = some parent)
    (notRoot : parent ≠ rootId) : parent ∈ chart.active leaves :=
  (tree.isUpward_active leaves).mem_of_isDescendant child parent isActive
    (tree.isDescendant_of_parent isParent) notRoot

theorem tellsCompletion_empty (tree : chart.IsTree) : chart.TellsCompletion {} := by
  have inactive : ∀ node, ¬ node ∈ ({} : Status).active chart := by
    intro node isActive
    obtain ⟨-, leaf, isLeaf, -⟩ := tree.mem_active.1 isActive
    exact NodeSet.not_mem_empty leaf isLeaf
  constructor
  · intro state _
    constructor
    · exact fun isDone => absurd isDone (NodeSet.not_mem_empty state)
    · exact fun ⟨isActive, _⟩ => absurd isActive (inactive state)
  · constructor
    · exact fun isFinal => absurd isFinal Bool.false_ne_true
    · exact fun ⟨child, _, isActive, _⟩ => absurd isActive (inactive child)

end Chart

namespace World

variable {chart : Chart} {transitions : List TransitionId} {resolution : Resolution}
  {before left after : World}

/-! ## The machine -/

/-- The machine is final afterwards if a final state at the top is active then, where
none was before. -/
theorem Proceeds.isFinal_after (tree : chart.IsTree)
    (proceeds : Proceeds chart transitions resolution before left after)
    (tells : before.status.isFinal = true ↔
      chart.HasFinalChild (before.status.active chart) rootId)
    (notFinal : before.status.isFinal = false) :
    after.status.isFinal = true ↔ chart.HasFinalChild (after.status.active chart) rootId := by
  obtain ⟨cleared, clears, exits⟩ := proceeds.exits
  rw [proceeds.entries.isFinal_iff, exits.isFinal_eq, clears.status_eq, notFinal,
    Chart.hasFinalChild_root_iff tree]
  unfold Status.active at tells ⊢
  rw [proceeds.carries.leaves_eq]
  constructor
  · rintro (isFinal | ⟨child, entered, atTop⟩)
    · cases isFinal
    · exact ⟨child, ((Chart.mem_entered_iff proceeds.resolves).1 entered).1, atTop⟩
  · rintro ⟨child, isActive, atTop⟩
    refine .inr ⟨child, (Chart.mem_entered_iff proceeds.resolves).2
      ⟨isActive, .inl fun wasActive => ?_⟩, atTop⟩
    have wasFinal := tells.2 ((Chart.hasFinalChild_root_iff tree).2 ⟨child, wasActive, atTop⟩)
    exact absurd (notFinal.symm.trans wasFinal) Bool.false_ne_true

/-! ## Composite states -/

/-- After the exits a state is done if it was and no final child of it was exited. -/
theorem Advances.mem_done_left
    (advances : Advances chart transitions resolution before left after) {state : NodeId}
    (notParallel : (chart.node state).isParallel = false) :
    state ∈ left.status.done ↔ state ∈ before.status.done ∧
      ∀ node ∈ resolution.exited, ¬ chart.IsFinalChild node state := by
  obtain ⟨cleared, clears, exits⟩ := advances.exits
  rw [exits.mem_done_iff notParallel, clears.status_eq]

section Composite

variable (tree : chart.IsTree)
  (advances : Advances chart transitions resolution before left after)
  (tells : chart.TellsCompletion before.status)
include tree advances tells

theorem Advances.not_mem_done_left_of_entered {state : NodeId}
    (isComposite : (chart.node state).isComposite = true)
    (entered : state ∈ resolution.entered) : ¬ state ∈ left.status.done := by
  have isState := (Bool.and_eq_true_iff.1 isComposite).1
  rw [advances.mem_done_left (Chart.isParallel_of_isState isState),
    tells.mem_done state isComposite, Chart.hasFinalChild_iff tree]
  rintro ⟨⟨wasActive, child, childActive, isFinalChild⟩, notExited⟩
  have exited := ((advances.leads.mem_entered state).1 entered).2.resolve_left
    fun inactive => inactive wasActive
  exact notExited child (advances.leads.exited_of_isDescendant state exited child childActive
    (tree.isDescendant_of_parent isFinalChild.1)) isFinalChild

/-- A composite state is done afterwards if one of its final states is active then. -/
theorem Advances.mem_done_after (regular : chart.IsRegular before.status)
    {state : NodeId} (isComposite : (chart.node state).isComposite = true) :
    state ∈ after.status.done ↔ state ∈ after.status.active chart ∧
      chart.HasFinalChild (after.status.active chart) state := by
  have leads := advances.leads
  have isState := (Bool.and_eq_true_iff.1 isComposite).1
  have notParallel := Chart.isParallel_of_isState isState
  have notRoot := (tree.isNode_of_isState isState).1
  rw [advances.entries.mem_done_iff notParallel tree notRoot leads.outer_first,
    Chart.hasFinalChild_iff tree]
  unfold Status.active
  rw [advances.carries.leaves_eq]
  constructor
  · rintro (⟨child, entered, isFinalChild⟩ | ⟨isDone, -⟩)
    · have isActive := ((leads.mem_entered child).1 entered).1
      exact ⟨tree.isActive_parent isActive isFinalChild.1 notRoot, child, isActive, isFinalChild⟩
    · rw [advances.mem_done_left notParallel, tells.mem_done state isComposite,
        Chart.hasFinalChild_iff tree] at isDone
      obtain ⟨⟨-, child, childActive, isFinalChild⟩, notExited⟩ := isDone
      have isActive := leads.stays child childActive fun exited =>
        notExited child exited isFinalChild
      exact ⟨tree.isActive_parent isActive isFinalChild.1 notRoot, child, isActive, isFinalChild⟩
  · rintro ⟨-, child, childActive, isFinalChild⟩
    rcases leads.stays_or_entered childActive with ⟨wasActive, notExited⟩ | entered
    · have isDone : state ∈ left.status.done := by
        rw [advances.mem_done_left notParallel, tells.mem_done state isComposite,
          Chart.hasFinalChild_iff tree]
        refine ⟨⟨tree.isActive_parent wasActive isFinalChild.1 notRoot, child, wasActive,
          isFinalChild⟩, fun node exited isOther => ?_⟩
        -- The exited final child would be another active child of the state.
        obtain ⟨-, leaf, isLeaf, -⟩ := tree.mem_active.1 wasActive
        have same := (regular.legal ⟨leaf, isLeaf⟩).eq_of_siblings tree notParallel
          (leads.isActive_of_exited node exited) wasActive isOther.1 isFinalChild.1
        exact notExited (same ▸ exited)
      exact .inr ⟨isDone, fun entered =>
        advances.not_mem_done_left_of_entered tree tells isComposite entered isDone⟩
    · exact .inl ⟨child, entered, isFinalChild⟩

/-- Where no final state has been reached yet, a microstep keeps the flags in step with
the configuration. -/
theorem Advances.tellsCompletion (regular : chart.IsRegular before.status)
    (notFinal : before.status.isFinal = false) : chart.TellsCompletion after.status where
  mem_done _ isComposite := advances.mem_done_after tree tells regular isComposite
  isFinal_iff := advances.isFinal_after tree tells.isFinal_iff notFinal

end Composite

/-! ## Parallels -/

/-- While the nodes of a list remain to be entered, a parallel is done just as long as all
its regions are; the regions of those that remain are not. -/
structure IsInStep (chart : Chart) (parallel : NodeId) (remaining : List NodeId)
    (done : NodeSet) : Prop where
  regions_done : parallel ∈ done → ∀ region ∈ (chart.node parallel).children, region ∈ done
  parallel_done : (∀ region ∈ (chart.node parallel).children, region ∈ done) → parallel ∈ done
  not_done : ∀ region ∈ (chart.node parallel).children, region ∈ remaining → ¬ region ∈ done
  regions_remain : parallel ∈ remaining →
    ∀ region ∈ (chart.node parallel).children, region ∈ remaining

section Parallel

variable (tree : chart.IsTree) {parallel : NodeId}
include tree

/-- What lies above the parent of a final state is the parallel if the parent is a region
of it. -/
theorem isRegion_and_parent_iff (isParallel : (chart.node parallel).isParallel = true)
    {node parent : NodeId} (isFinalChild : chart.IsFinalChild node parent) :
    chart.isRegion parent = true ∧ chart.parent parent = some parallel ↔
      parent ∈ (chart.node parallel).children := by
  rw [tree.mem_children, and_comm]
  refine and_congr_right fun isParent => ?_
  unfold Chart.isRegion
  rw [tree.not_isHistory_parent node parent isFinalChild.1, isParent]
  simp [isParallel]

variable (states : chart.HasStatesAsRegions parallel)
include states

theorem not_isFinalChild_parallel (node : NodeId) : ¬ chart.IsFinalChild node parallel := by
  rintro ⟨isParent, isFinal⟩
  have isChild := (tree.mem_children parallel node).2
    ⟨isParent, Chart.isHistory_of_isFinal isFinal⟩
  exact absurd ((states node isChild).2.symm.trans isFinal) Bool.false_ne_true

theorem mem_done_of_isEntry {node : NodeId} {first second : World}
    (entry : IsEntry chart node first second) :
    (parallel ∈ second.status.done ↔
      (parallel ∈ first.status.done ∧ parallel ≠ node) ∨
        chart.Finishes (first.status.done.erase node) node parallel) ∧
    ∀ region ∈ (chart.node parallel).children, region ∈ second.status.done ↔
      (region ∈ first.status.done ∧ region ≠ node) ∨ chart.IsFinalChild node region := by
  refine ⟨entry.mem_done parallel, fun region isChild => ?_⟩
  have notRoot := tree.ne_root_of_parent (tree.parent_of_mem_children isChild)
  rw [entry.mem_done, Chart.finishes_iff
    (Chart.isParallel_of_isState (states region isChild).1) notRoot]

variable (isParallel : (chart.node parallel).isParallel = true)
include isParallel

theorem reopens_parallel_iff {node : NodeId} :
    chart.Reopens node parallel ↔
      ∃ region ∈ (chart.node parallel).children, chart.IsFinalChild node region := by
  constructor
  · rintro ⟨parent, isFinalChild, rfl | isUpper⟩
    · exact absurd isFinalChild (not_isFinalChild_parallel tree states node)
    · exact ⟨parent, (isRegion_and_parent_iff tree isParallel isFinalChild).1 isUpper, isFinalChild⟩
  · rintro ⟨region, isChild, isFinalChild⟩
    exact ⟨region, isFinalChild,
      .inr ((isRegion_and_parent_iff tree isParallel isFinalChild).2 isChild)⟩

theorem finishes_parallel_iff {done : NodeSet} {node : NodeId} :
    chart.Finishes done node parallel ↔
      ∃ region ∈ (chart.node parallel).children, chart.IsFinalChild node region ∧
        ∀ other ∈ (chart.node parallel).children, other = region ∨ other ∈ done := by
  constructor
  · rintro ⟨parent, isFinalChild, -, rfl | ⟨isRegion, isUpper, all⟩⟩
    · exact absurd isFinalChild (not_isFinalChild_parallel tree states node)
    · exact ⟨parent, (isRegion_and_parent_iff tree isParallel isFinalChild).1
        ⟨isRegion, isUpper⟩, isFinalChild, all⟩
  · rintro ⟨region, isChild, isFinalChild, all⟩
    obtain ⟨isRegion, isUpper⟩ :=
      (isRegion_and_parent_iff tree isParallel isFinalChild).2 isChild
    exact ⟨region, isFinalChild, tree.ne_root_of_parent isUpper, .inr ⟨isRegion, isUpper, all⟩⟩

/-- When a final child of a region is entered, the region is done, and so is the parallel if all
regions are. -/
theorem mem_done_of_finish {node : NodeId} {first second : World}
    (enters : IsEntry chart node first second) {region : NodeId}
    (isChild : region ∈ (chart.node parallel).children)
    (isFinalChild : chart.IsFinalChild node region) :
    (∀ other ∈ (chart.node parallel).children,
      (other ∈ second.status.done ↔ other = region ∨ other ∈ first.status.done)) ∧
    (parallel ∈ second.status.done ↔ parallel ∈ first.status.done ∨
      ∀ other ∈ (chart.node parallel).children, other ∈ second.status.done) := by
  obtain ⟨parallelDone, regionDone⟩ := mem_done_of_isEntry tree states enters
  have apart : parallel ≠ node := by
    rintro rfl
    exact absurd ((Chart.isFinal_of_isParallel isParallel).symm.trans isFinalChild.2)
      Bool.false_ne_true
  have regionApart : ∀ other ∈ (chart.node parallel).children, other ≠ node := by
    rintro other isOther rfl
    exact absurd ((states other isOther).2.symm.trans isFinalChild.2) Bool.false_ne_true
  have regionDone : ∀ other ∈ (chart.node parallel).children,
      (other ∈ second.status.done ↔ other = region ∨ other ∈ first.status.done) := by
    intro other isOther
    rw [regionDone other isOther, and_iff_left (regionApart other isOther), or_comm]
    refine or_congr_left ⟨fun isOf => ?_, fun same => same ▸ isFinalChild⟩
    exact Option.some.inj (isOf.1.symm.trans isFinalChild.1)
  refine ⟨regionDone, ?_⟩
  rw [parallelDone, and_iff_left apart, finishes_parallel_iff tree states isParallel]
  refine or_congr_right ⟨?_, fun all => ⟨region, isChild, isFinalChild, fun other isOther => ?_⟩⟩
  · rintro ⟨other, -, isOf, all⟩ next isNext
    obtain rfl := Option.some.inj (isOf.1.symm.trans isFinalChild.1)
    exact (regionDone next isNext).2
      ((all next isNext).imp_right fun isDone => (NodeSet.mem_erase.1 isDone).1)
  · exact ((regionDone other isOther).1 (all other isOther)).imp_right
      fun isDone => NodeSet.mem_erase.2 ⟨isDone, regionApart other isOther⟩

section Entry

variable {node : NodeId} {rest : List NodeId} {first second : World}
  (notBelow : ∀ later ∈ rest, ¬ chart.isDescendant node later = true)
  (enters : IsEntry chart node first second)
include notBelow enters

/-- The entry of a final child of a region finishes the region, and the parallel if the
other regions are done. -/
theorem IsInStep.finish {region : NodeId} (isChild : region ∈ (chart.node parallel).children)
    (isFinalChild : chart.IsFinalChild node region)
    (inStep : IsInStep chart parallel (node :: rest) first.status.done) :
    IsInStep chart parallel rest second.status.done ∧
      (parallel ∈ first.status.done → parallel ∈ second.status.done) := by
  obtain ⟨regionDone, parallelDone⟩ :=
    mem_done_of_finish tree states isParallel enters isChild isFinalChild
  have nodeBelow := tree.isDescendant_of_parent isFinalChild.1
  refine ⟨⟨fun isDone other isOther => ?_, fun all => parallelDone.2 (.inr all),
    fun other isOther remains => ?_, fun remains => ?_⟩, fun isDone => parallelDone.2 (.inl isDone)⟩
  · rcases parallelDone.1 isDone with wasDone | all
    · exact (regionDone other isOther).2 (.inr (inStep.regions_done wasDone other isOther))
    · exact all other isOther
  · rw [regionDone other isOther]
    rintro (rfl | wasDone)
    · exact notBelow other remains nodeBelow
    · exact inStep.not_done other isOther (List.mem_cons_of_mem _ remains) wasDone
  · -- The parallel is above the node, so it has been entered before.
    have below := tree.isDescendant_of_parent (tree.parent_of_mem_children isChild)
    exact absurd (tree.isDescendant_trans_isWithin nodeBelow
      (Chart.isWithin_of_isDescendant below)) (notBelow parallel remains)

theorem IsInStep.pass (regions : (chart.node parallel).children ≠ [])
    (unfinished : ∀ region ∈ (chart.node parallel).children, ¬ chart.IsFinalChild node region)
    (inStep : IsInStep chart parallel (node :: rest) first.status.done) :
    IsInStep chart parallel rest second.status.done ∧
      (parallel ∈ first.status.done → parallel ∈ second.status.done) := by
  obtain ⟨parallelDone, regionDone⟩ := mem_done_of_isEntry tree states enters
  have regionDone : ∀ region ∈ (chart.node parallel).children,
      (region ∈ second.status.done ↔ region ∈ first.status.done) := by
    intro region isChild
    rw [regionDone region isChild, or_iff_left (unfinished region isChild)]
    refine and_iff_left_of_imp fun isDone same => ?_
    exact inStep.not_done region isChild (same ▸ List.mem_cons_self) isDone
  have parallelDone : parallel ∈ second.status.done ↔
      parallel ∈ first.status.done ∧ parallel ≠ node := by
    rw [parallelDone, finishes_parallel_iff tree states isParallel]
    exact or_iff_left fun ⟨region, isChild, isFinalChild, _⟩ =>
      unfinished region isChild isFinalChild
  have stays : parallel ∈ first.status.done → parallel ∈ second.status.done := by
    refine fun isDone => parallelDone.2 ⟨isDone, ?_⟩
    rintro rfl
    obtain ⟨region, others, isRegion⟩ := List.exists_cons_of_ne_nil regions
    have isChild : region ∈ (chart.node parallel).children := isRegion ▸ List.mem_cons_self
    exact inStep.not_done region isChild (inStep.regions_remain List.mem_cons_self region isChild)
      (inStep.regions_done isDone region isChild)
  refine ⟨⟨fun isDone region isChild => ?_, fun all => ?_, fun region isChild remains => ?_,
    fun remains region isChild => ?_⟩, stays⟩
  · exact (regionDone region isChild).2
      (inStep.regions_done (parallelDone.1 isDone).1 region isChild)
  · exact stays (inStep.parallel_done fun region isChild =>
      (regionDone region isChild).1 (all region isChild))
  · rw [regionDone region isChild]
    exact inStep.not_done region isChild (List.mem_cons_of_mem _ remains)
  · refine (List.mem_cons.1 (inStep.regions_remain (List.mem_cons_of_mem _ remains) region
      isChild)).resolve_left ?_
    rintro rfl
    exact notBelow parallel remains
      (tree.isDescendant_of_parent (tree.parent_of_mem_children isChild))

theorem IsInStep.entry (regions : (chart.node parallel).children ≠ [])
    (inStep : IsInStep chart parallel (node :: rest) first.status.done) :
    IsInStep chart parallel rest second.status.done ∧
      (parallel ∈ first.status.done → parallel ∈ second.status.done) := by
  by_cases finishing : ∃ region ∈ (chart.node parallel).children, chart.IsFinalChild node region
  · obtain ⟨region, isChild, isFinalChild⟩ := finishing
    exact inStep.finish tree states isParallel notBelow enters isChild isFinalChild
  · exact inStep.pass tree states isParallel notBelow enters regions
      fun region isChild isFinalChild => finishing ⟨region, isChild, isFinalChild⟩

end Entry

/-- The entry of a node signals that the parallel is done if it comes to be. -/
theorem mem_completions_of_isEntry (executable : chart.IsExecutable) {node : NodeId}
    {first second : World} (enters : IsEntry chart node first second) :
    .ofCompletion (chart.idOf parallel ++ ".done") ∈ second.completions ↔
      .ofCompletion (chart.idOf parallel ++ ".done") ∈ first.completions ∨
        ¬ parallel ∈ first.status.done ∧ parallel ∈ second.status.done := by
  obtain ⟨parallelDone, -⟩ := mem_done_of_isEntry tree states enters
  have notEntry : Event.ofCompletion (chart.idOf parallel ++ ".done") ≠
      .ofCompletion (chart.idOf node ++ ".entry") := by
    intro same
    have ends := congrArg (fun text => text.toList.getLast?) (congrArg Event.name same)
    simp [Event.ofCompletion] at ends
  have named : ∀ state, chart.IsProper state →
      Event.ofCompletion (chart.idOf parallel ++ ".done") =
        .ofCompletion (chart.idOf state ++ ".done") → state = parallel := by
    intro state isProper same
    have sameName := (String.append_left_inj _).1 (congrArg Event.name same)
    exact (executable.eq_of_idOf_eq (tree.isProper_of_isParallel isParallel) isProper sameName).symm
  rw [enters.mem_completions, or_iff_right (a := _ = _) notEntry]
  refine or_congr_right ⟨?_, ?_⟩
  · rintro ⟨state, same, finishes, isNew⟩
    obtain rfl := named state (finishes.isProper tree) same
    refine ⟨fun wasDone => ?_, parallelDone.2 (.inr finishes)⟩
    have notErased := isNew.resolve_left (not_isFinalChild_parallel tree states node)
    obtain ⟨region, isChild, isFinalChild, -⟩ :=
      (finishes_parallel_iff tree states isParallel).1 finishes
    refine notErased (NodeSet.mem_erase.2 ⟨wasDone, ?_⟩)
    rintro rfl
    exact absurd ((Chart.isFinal_of_isParallel isParallel).symm.trans isFinalChild.2)
      Bool.false_ne_true
  · rintro ⟨wasNot, isDone⟩
    exact ⟨parallel, rfl, (parallelDone.1 isDone).resolve_left fun stays => wasNot stays.1,
      .inr fun erased => wasNot (NodeSet.mem_erase.1 erased).1⟩

/-- Entries keep the parallel in step with its regions, and signal that it is done if it
comes to be. -/
theorem IsInStep.entries (executable : chart.IsExecutable)
    (regions : (chart.node parallel).children ≠ []) {nodes : List NodeId} {before after : World}
    (inStep : IsInStep chart parallel nodes before.status.done)
    (outer_first : nodes.Pairwise (fun a b => ¬ chart.isDescendant a b = true))
    (entries : AreEntries chart nodes before after) :
    IsInStep chart parallel [] after.status.done ∧
      (parallel ∈ before.status.done → parallel ∈ after.status.done) ∧
      (.ofCompletion (chart.idOf parallel ++ ".done") ∈ after.completions ↔
        .ofCompletion (chart.idOf parallel ++ ".done") ∈ before.completions ∨
          ¬ parallel ∈ before.status.done ∧ parallel ∈ after.status.done) := by
  induction entries with
  | nil same =>
      rw [same.done_eq, same.completions_eq]
      exact ⟨inStep, id, (or_iff_left fun ⟨absent, present⟩ => absent present).symm⟩
  | @cons node rest first second third enters others ih =>
      obtain ⟨notBelow, restFirst⟩ := List.pairwise_cons.1 outer_first
      obtain ⟨next, stays⟩ := inStep.entry tree states isParallel notBelow enters regions
      obtain ⟨last, keeps, signals⟩ := ih next restFirst
      refine ⟨last, fun isDone => keeps (stays isDone), ?_⟩
      rw [signals, mem_completions_of_isEntry tree states isParallel executable enters, or_assoc]
      -- Once done the parallel stays so, hence it comes to be done in one entry at most.
      refine or_congr_right ⟨?_, fun ⟨wasNot, isDone⟩ => ?_⟩
      · rintro (⟨wasNot, isDone⟩ | ⟨notYet, isDone⟩)
        · exact ⟨wasNot, keeps isDone⟩
        · exact ⟨fun wasDone => notYet (stays wasDone), isDone⟩
      · by_cases already : parallel ∈ second.status.done
        · exact .inl ⟨wasNot, already⟩
        · exact .inr ⟨already, isDone⟩

/-! ### Microsteps -/

/-- After the exits the parallel is done if it was and no final child of a region was
exited. -/
theorem Advances.parallel_mem_done_left
    (advances : Advances chart transitions resolution before left after) :
    parallel ∈ left.status.done ↔ parallel ∈ before.status.done ∧
      ∀ node ∈ resolution.exited, ∀ region ∈ (chart.node parallel).children,
        ¬ chart.IsFinalChild node region := by
  obtain ⟨cleared, clears, exits⟩ := advances.exits
  rw [exits.mem_done, clears.status_eq]
  simp only [reopens_parallel_iff tree states isParallel, not_exists, not_and]

/-- When the exits are over, the parallel is in step with its regions. -/
theorem Advances.isInStep (executable : chart.IsExecutable)
    (advances : Advances chart transitions resolution before left after)
    (tells : chart.TellsCompletion before.status)
    (regions : chart.TellsRegions parallel before.status) :
    IsInStep chart parallel resolution.entered left.status.done := by
  have leads := advances.leads
  have isProper := tree.isProper_of_isParallel isParallel
  have regionDone : ∀ region ∈ (chart.node parallel).children,
      (region ∈ left.status.done ↔ region ∈ before.status.done ∧
        ∀ node ∈ resolution.exited, ¬ chart.IsFinalChild node region) :=
    fun region isChild => advances.mem_done_left
      (Chart.isParallel_of_isState (states region isChild).1)
  have parallelDone := advances.parallel_mem_done_left tree states isParallel
  refine ⟨fun isDone region isChild => ?_, fun all => ?_, fun region isChild entered => ?_,
    fun entered region isChild => ?_⟩
  · obtain ⟨wasDone, notExited⟩ := parallelDone.1 isDone
    exact (regionDone region isChild).2 ⟨regions.1 wasDone region isChild,
      fun node exited => notExited node exited region isChild⟩
  · exact parallelDone.2 ⟨regions.2 fun region isChild =>
      ((regionDone region isChild).1 (all region isChild)).1, fun node exited region isChild =>
        ((regionDone region isChild).1 (all region isChild)).2 node exited⟩
  · have isComposite : (chart.node region).isComposite = true := by
      have notAtomic := executable.regions parallel isParallel region isChild
      simpa [Node.isComposite, Node.isAtomic, (states region isChild).1] using notAtomic
    exact advances.not_mem_done_left_of_entered tree tells isComposite entered
  · obtain ⟨isActive, isNew⟩ := (leads.mem_entered parallel).1 entered
    have isParent := tree.parent_of_mem_children isChild
    refine (leads.mem_entered region).2
      ⟨leads.legal.parallel parallel isActive isParallel region isChild, ?_⟩
    by_cases wasActive : region ∈ chart.active before.status.leaves
    · have exited := isNew.resolve_left fun inactive =>
        inactive (tree.isActive_parent wasActive isParent isProper.1)
      exact .inr (leads.exited_of_isDescendant parallel exited region wasActive
        (tree.isDescendant_of_parent isParent))
    · exact .inl wasActive

/-- A microstep keeps the parallel in step with its regions.  It signals that the parallel
is done if it is afterwards, unless it was and no final state of a region was exited. -/
theorem Advances.tellsRegions (executable : chart.IsExecutable)
    (nonempty : (chart.node parallel).children ≠ [])
    (advances : Advances chart transitions resolution before left after)
    (tells : chart.TellsCompletion before.status)
    (regions : chart.TellsRegions parallel before.status) :
    chart.TellsRegions parallel after.status ∧
      (.ofCompletion (chart.idOf parallel ++ ".done") ∈ after.completions ↔
        parallel ∈ after.status.done ∧ (parallel ∈ before.status.done →
          ∃ node ∈ resolution.exited, ∃ region ∈ (chart.node parallel).children,
            chart.IsFinalChild node region)) := by
  have inStep := advances.isInStep tree states isParallel executable tells regions
  obtain ⟨last, -, signals⟩ := inStep.entries tree states isParallel executable nonempty
    advances.leads.outer_first advances.entries
  refine ⟨⟨last.regions_done, last.parallel_done⟩, ?_⟩
  have unsignalled :
      ¬ .ofCompletion (chart.idOf parallel ++ ".done") ∈ left.completions := by
    obtain ⟨cleared, clears, exits⟩ := advances.exits
    rw [exits.completions_eq, clears.completions_eq, List.nil_append, List.mem_map]
    rintro ⟨node, -, same⟩
    have ends := congrArg (fun text => text.toList.getLast?) (congrArg Event.name same)
    simp [Event.ofCompletion] at ends
  rw [signals, or_iff_right unsignalled, advances.parallel_mem_done_left tree states isParallel,
    and_comm]
  refine and_congr_right fun _ => ?_
  rw [not_and]
  refine imp_congr_right fun _ => ?_
  simp only [not_forall, not_not, exists_prop]

end Parallel

end World

end Statechart
