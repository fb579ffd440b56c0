import Statechart.Proofs.Machine.Reachable
import Statechart.Proofs.Microstep.Flags

/-!
# What a machine says about completion

Of every machine that can be reached, the composite states that are done are those of
which a final state is active, and the machine is final if a final state at the top is
active.  A parallel of states is done if all its regions are, and the machine signals
this when it comes about.  The completion of a region that is itself a parallel is not
passed on.
-/

namespace Statechart

namespace Machine

variable {definition : Definition} {machine : Machine}

/-- What the flags tell, where a microstep can be followed. -/
structure KnowsCompletion (chart : Chart) (status : Status) : Prop where
  regular : chart.IsRegular status
  tells : chart.TellsCompletion status

theorem knowsCompletion_empty {chart : Chart} (tree : chart.IsTree) :
    KnowsCompletion chart {} :=
  ⟨chart.isRegular_empty, Chart.tellsCompletion_empty tree⟩

section Turns

variable {program : Program} (executable : program.chart.IsExecutable)
  (parallels : program.chart.ParallelsHaveChildren) {turn : Turn}
include executable parallels

theorem KnowsCompletion.afterTurn (knows : KnowsCompletion program.chart turn.before)
    (taken : turn.IsTaken program) : KnowsCompletion program.chart turn.after := by
  obtain ⟨resolution, before, left, after, isBefore, advances, -, isAfter⟩ :=
    taken.exists_advances executable knows.regular parallels
  have notFinal := taken.notFinal
  rw [← isBefore] at knows notFinal
  rw [← isAfter]
  exact ⟨advances.isRegular executable knows.regular,
    advances.tellsCompletion executable.tree knows.tells knows.regular notFinal⟩

variable {parallel : NodeId} (isParallel : (program.chart.node parallel).isParallel = true)
  (states : program.chart.HasStatesAsRegions parallel)
include isParallel states

/-- A turn keeps a parallel in step with its regions, and signals that the parallel is done
when it comes to be. -/
theorem turn_tellsRegions (knows : KnowsCompletion program.chart turn.before)
    (regions : program.chart.TellsRegions parallel turn.before) (taken : turn.IsTaken program) :
    program.chart.TellsRegions parallel turn.after ∧
      (.ofCompletion (program.chart.idOf parallel ++ ".done") ∈ turn.generated ↔
        parallel ∈ turn.after.done ∧ (parallel ∈ turn.before.done →
          ∃ region ∈ (program.chart.node parallel).children,
            ∃ child ∈ (program.chart.node region).children,
              (program.chart.node child).isFinal = true ∧
                child ∈ program.chart.leavesBehind turn.before.leaves turn.transitions)) := by
  have tree := executable.tree
  obtain ⟨resolution, before, left, after, isBefore, advances, generated, isAfter⟩ :=
    taken.exists_advances executable knows.regular parallels
  rw [← isBefore] at knows regions ⊢
  rw [← isAfter, ← generated]
  obtain ⟨told, signals⟩ := advances.tellsRegions tree states isParallel executable
    (parallels parallel isParallel) knows.tells regions
  refine ⟨told, ?_⟩
  have isCompletion : (Event.ofCompletion
      (program.chart.idOf parallel ++ ".done")).isCompletion = true := rfl
  rw [World.completions, List.mem_filter, and_iff_left isCompletion] at signals
  rw [signals]
  refine and_congr_right fun _ => imp_congr_right fun _ => ?_
  constructor
  · rintro ⟨child, exited, region, isRegion, isParent, isFinal⟩
    exact ⟨region, isRegion, child, (tree.mem_children region child).2
      ⟨isParent, Chart.isHistory_of_isFinal isFinal⟩, isFinal,
      (Chart.mem_exited_iff advances.resolves).1 exited⟩
  · rintro ⟨region, isRegion, child, isChild, isFinal, left⟩
    exact ⟨child, (Chart.mem_exited_iff advances.resolves).2 left, region, isRegion,
      tree.parent_of_mem_children isChild, isFinal⟩

end Turns

/-- Of a reachable machine just those composite states are done of which a final child is
active, and the machine is final just if a final state at the top is active. -/
theorem flags_tell_final_children (reachable : IsReachable definition machine)
    (parallels : machine.chart.ParallelsHaveChildren) :
    (∀ state, (machine.chart.node state).isComposite = true →
      (state ∈ machine.status.done ↔ state ∈ machine.status.active machine.chart ∧
        ∃ child ∈ (machine.chart.node state).children,
          child ∈ machine.status.active machine.chart ∧
            (machine.chart.node child).isFinal = true)) ∧
    (machine.status.isFinal = true ↔
      ∃ child ∈ machine.chart.root.children, child ∈ machine.status.active machine.chart ∧
        (machine.chart.node child).isFinal = true) := by
  have executable := Chart.isExecutable_of_chartOf reachable.chartOf_eq
  have knows : KnowsCompletion machine.chart machine.status := by
    refine reachable.keeps reachable.chartOf_eq (knowsCompletion_empty executable.tree)
      fun program turn same taken knows => ?_
    rw [← same] at executable parallels knows ⊢
    exact knows.afterTurn executable parallels taken
  exact ⟨knows.tells.mem_done, knows.tells.isFinal_iff⟩

/-- Two errands that are run side by side, and home after both. -/
def errands : Definition :=
  { states := [
      { id := some "errands", isParallel := true,
        transitions := [{ event := some "errands.done", target := some "home" }], states := [
        { id := some "shop", states := [
          { id := some "shopping", transitions := [
            { event := some "bought", target := some "bought" }] },
          { id := some "bought", isFinal := true }] },
        { id := some "post", states := [
          { id := some "posting", transitions := [
            { event := some "posted", target := some "posted" }] },
          { id := some "posted", isFinal := true }] }] },
      { id := some "home", isFinal := true }] }

def errandsAfter (operations : List Operation) : Machine :=
  (preparedOrEmpty errands {} {} []).performAll operations

theorem isReachable_errandsAfter {operations : List Operation}
    (notRestore : ∀ operation ∈ operations, ∀ snapshot, operation ≠ .restore snapshot) :
    IsReachable errands (errandsAfter operations) := by
  have prepared : IsReachable errands (preparedOrEmpty errands {} {} []) :=
    .prepared (prepare_eq_ok (by decide +kernel)) (by decide)
  exact prepared.performAll notRestore

/-- When all has been bought, the shop is done since its final state is active, and the
machine is not final. -/
theorem shop_is_done :
    IsReachable errands (errandsAfter [.start, .fire { name := "bought" }]) ∧
      (errandsAfter [.start, .fire { name := "bought" }]).chart.ParallelsHaveChildren ∧
      (errandsAfter [.start, .fire { name := "bought" }]).chart.idOf 2 = "shop" ∧
      2 ∈ (errandsAfter [.start, .fire { name := "bought" }]).status.done ∧
      (∃ child ∈ ((errandsAfter [.start, .fire { name := "bought" }]).chart.node 2).children,
        child ∈ (errandsAfter [.start, .fire { name := "bought" }]).status.active
          (errandsAfter [.start, .fire { name := "bought" }]).chart ∧
        ((errandsAfter [.start, .fire { name := "bought" }]).chart.node child).isFinal = true) ∧
      (errandsAfter [.start, .fire { name := "bought" }]).status.isFinal = false := by
  have reachable : IsReachable errands (errandsAfter [.start, .fire { name := "bought" }]) :=
    isReachable_errandsAfter (by simp)
  have parallels :
      (errandsAfter [.start, .fire { name := "bought" }]).chart.ParallelsHaveChildren :=
    Chart.parallelsHaveChildren_of_all (by decide +kernel)
  obtain ⟨tellsDone, tellsFinal⟩ := flags_tell_final_children reachable parallels
  have isDone : 2 ∈ (errandsAfter [.start, .fire { name := "bought" }]).status.done := by
    decide +kernel
  refine ⟨reachable, parallels, by decide +kernel, isDone,
    ((tellsDone 2 (by decide +kernel)).1 isDone).2, ?_⟩
  rw [← Bool.not_eq_true, tellsFinal]
  decide +kernel

/-- Of a reachable machine a parallel of states is done just if all its regions are.  Its
completion is signalled in the microsteps after which it is done, unless it was done
before and no final state of a region has been left. -/
theorem parallel_done_iff_regions_done (reachable : IsReachable definition machine)
    (parallels : machine.chart.ParallelsHaveChildren) {parallel : NodeId}
    (isParallel : (machine.chart.node parallel).isParallel = true)
    (states : machine.chart.HasStatesAsRegions parallel) :
    (parallel ∈ machine.status.done ↔
      ∀ region ∈ (machine.chart.node parallel).children, region ∈ machine.status.done) ∧
    ∀ operation, ∀ turn ∈ machine.turnsOf operation,
      (.ofCompletion (machine.chart.idOf parallel ++ ".done") ∈ turn.generated ↔
        parallel ∈ turn.after.done ∧ (parallel ∈ turn.before.done →
          ∃ region ∈ (machine.chart.node parallel).children,
            ∃ child ∈ (machine.chart.node region).children,
              (machine.chart.node child).isFinal = true ∧
                child ∈ machine.chart.leavesBehind turn.before.leaves turn.transitions)) := by
  have executable := Chart.isExecutable_of_chartOf reachable.chartOf_eq
  let Holds (status : Status) : Prop :=
    KnowsCompletion machine.chart status ∧ machine.chart.TellsRegions parallel status
  have fresh : Holds {} := by
    refine ⟨knowsCompletion_empty executable.tree, ?_⟩
    obtain ⟨region, rest, isRegion⟩ := List.exists_cons_of_ne_nil (parallels parallel isParallel)
    constructor
    · exact fun isDone => absurd isDone (NodeSet.not_mem_empty parallel)
    · exact fun all => absurd (all region (isRegion ▸ List.mem_cons_self))
        (NodeSet.not_mem_empty region)
  have turns : ∀ (program : Program) (turn : Turn), program.chart = machine.chart →
      turn.IsTaken program → Holds turn.before → Holds turn.after := by
    rintro program turn same taken ⟨knows, regions⟩
    rw [← same] at executable parallels isParallel states knows regions
    have knowsAfter := knows.afterTurn executable parallels taken
    have regionsAfter :=
      (turn_tellsRegions executable parallels isParallel states knows regions taken).1
    rw [same] at knowsAfter regionsAfter
    exact ⟨knowsAfter, regionsAfter⟩
  refine ⟨(reachable.keeps reachable.chartOf_eq fresh turns).2, fun operation turn member => ?_⟩
  obtain ⟨taken, knows, regions⟩ :=
    reachable.keeps_before reachable.chartOf_eq fresh turns operation turn member
  exact (turn_tellsRegions executable parallels isParallel states knows regions taken).2

/-- When all has been posted as well, the errands are done and this is signalled. -/
theorem errands_are_signalled :
    (IsReachable errands (errandsAfter [.start, .fire { name := "bought" }]) ∧
      (errandsAfter [.start, .fire { name := "bought" }]).chart.ParallelsHaveChildren ∧
      ((errandsAfter [.start, .fire { name := "bought" }]).chart.node 1).isParallel = true ∧
      (errandsAfter [.start, .fire { name := "bought" }]).chart.HasStatesAsRegions 1) ∧
      ∃ turn ∈ (errandsAfter [.start, .fire { name := "bought" }]).turnsOf
          (.fire { name := "posted" }),
        ¬ 1 ∈ turn.before.done ∧ 1 ∈ turn.after.done ∧
          .ofCompletion "errands.done" ∈ turn.generated := by
  have reachable : IsReachable errands (errandsAfter [.start, .fire { name := "bought" }]) :=
    isReachable_errandsAfter (by simp)
  have parallels :
      (errandsAfter [.start, .fire { name := "bought" }]).chart.ParallelsHaveChildren :=
    Chart.parallelsHaveChildren_of_all (by decide +kernel)
  have isParallel :
      ((errandsAfter [.start, .fire { name := "bought" }]).chart.node 1).isParallel = true := by
    decide +kernel
  have states : (errandsAfter [.start, .fire { name := "bought" }]).chart.HasStatesAsRegions 1 := by
    unfold Chart.HasStatesAsRegions
    decide +kernel
  have comesAbout : ∃ turn ∈ (errandsAfter [.start, .fire { name := "bought" }]).turnsOf
      (.fire { name := "posted" }), ¬ 1 ∈ turn.before.done ∧ 1 ∈ turn.after.done := by
    decide +kernel
  obtain ⟨turn, member, wasNot, isDone⟩ := comesAbout
  have signals := (parallel_done_iff_regions_done reachable parallels isParallel states).2
    (.fire { name := "posted" }) turn member
  have named : (errandsAfter [.start, .fire { name := "bought" }]).chart.idOf 1 = "errands" := by
    decide +kernel
  rw [named] at signals
  exact ⟨⟨reachable, parallels, isParallel, states⟩, turn, member, wasNot, isDone,
    signals.2 ⟨isDone, fun wasDone => absurd wasDone wasNot⟩⟩

/-- A parallel within a parallel, whose only region is over at once. -/
def nested : Definition :=
  { states := [
      { id := some "outer", isParallel := true, states := [
        { id := some "inner", isParallel := true, states := [
          { id := some "part", states := [
            { id := some "end", isFinal := true }] }] }] }] }

/-- A parallel is not done when its regions are parallels that are. -/
theorem parallel_of_parallels_is_not_done :
    ¬ ∀ (definition : Definition) (machine : Machine), IsReachable definition machine →
      ∀ parallel, (machine.chart.node parallel).isParallel = true →
        (parallel ∈ machine.status.done ↔ (machine.chart.node parallel).children ≠ [] ∧
          ∀ region ∈ (machine.chart.node parallel).children, region ∈ machine.status.done) := by
  intro always
  have reachable : IsReachable nested ((preparedOrEmpty nested {} {} []).perform .start).2 :=
    .performed (.prepared (prepare_eq_ok (by decide +kernel)) (by decide)) .start
      fun snapshot => Operation.noConfusion
  have wouldBe := (always nested _ reachable 1 (by decide +kernel)).2 (by decide +kernel)
  exact absurd wouldBe (by decide +kernel)

end Machine

end Statechart
