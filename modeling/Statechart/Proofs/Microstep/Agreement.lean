import Statechart.Proofs.Chart.Evaluation
import Statechart.Proofs.Microstep.Compatibility
import Statechart.Proofs.Microstep.Selection

/-!
# Selected transitions that agree

Selection compares the sources of transitions and not their targets.  What it
selects in a legal configuration of a chart without histories can be resolved
just in case targets of different transitions are nested or orthogonal.  Two
regions that both leave their parallel for different states disagree.
-/

namespace Statechart

namespace Chart

variable {chart : Chart}

/-- Targets of different transitions agree if they are nested or orthogonal. -/
def TargetsAgree (chart : Chart) (transitions : List TransitionId) : Prop :=
  ∀ first ∈ transitions, ∀ second ∈ transitions, first ≠ second →
    ∀ a ∈ (chart.transition first).targets, ∀ b ∈ (chart.transition second).targets,
      chart.isWithin a b = true ∨ chart.isWithin b a = true ∨ chart.areOrthogonal a b = true

instance (chart : Chart) (transitions : List TransitionId) :
    Decidable (chart.TargetsAgree transitions) :=
  inferInstanceAs (Decidable (∀ first ∈ transitions, ∀ second ∈ transitions, first ≠ second →
    ∀ a ∈ (chart.transition first).targets, ∀ b ∈ (chart.transition second).targets,
      chart.isWithin a b = true ∨ chart.isWithin b a = true ∨ chart.areOrthogonal a b = true))

/-- Of transitions with legal targets, all targets are compatible if those of
different transitions agree. -/
theorem IsExecutable.allCompatible_targets_iff (executable : chart.IsExecutable)
    {transitions : List TransitionId}
    (legal : ∀ id ∈ transitions, chart.areLegalTargets (chart.transition id).targets = true) :
    chart.AllCompatible (fun node => node ∈ chart.targetsOf transitions) ↔
      chart.TargetsAgree transitions := by
  have tree := executable.tree
  have inside : ∀ id, ∀ target ∈ (chart.transition id).targets, target < chart.nodeCount :=
    fun id target member => (executable.isNode_target id target member).2
  constructor
  · intro compatible first isFirst second isSecond _ a isA b isB
    exact (tree.areCompatible_iff (inside first a isA) (inside second b isB)).1
      (compatible a b (mem_targetsOf.2 ⟨first, isFirst, isA⟩)
        (mem_targetsOf.2 ⟨second, isSecond, isB⟩))
  · intro agree a b isA isB
    obtain ⟨first, isFirst, ofFirst⟩ := mem_targetsOf.1 isA
    obtain ⟨second, isSecond, ofSecond⟩ := mem_targetsOf.1 isB
    by_cases same : first = second
    · subst same
      by_cases sameTarget : a = b
      · exact sameTarget ▸ tree.areCompatible_of_isWithin (isWithin_refl a)
      · obtain ⟨meeting, parted, isParallel⟩ := tree.exists_partAt_of_areLegalTargets
          (inside first) (legal first isFirst) ofFirst ofSecond sameTarget
        exact tree.areCompatible_of_partAt parted isParallel
    · exact (tree.areCompatible_iff (inside first a ofFirst) (inside second b ofSecond)).2
        (agree first isFirst second isSecond same a ofFirst b ofSecond)

/-- Selected transitions start at active nodes and have legal targets. -/
theorem IsExecutable.source_of_mem_select (executable : chart.IsExecutable) {world : World}
    (legal : chart.IsLegalConfiguration world.status.leaves) {events : List Event}
    {id : TransitionId} (selected : id ∈ (world.select chart events).1) :
    (chart.transition id).source ∈ chart.active world.status.leaves ∧
      chart.areLegalTargets (chart.transition id).targets = true := by
  obtain ⟨node, isActive, outgoing⟩ := exists_active_of_mem_candidates executable.tree
    legal.atomic (World.mem_select selected).1
  have isNode := executable.tree.isNode_of_mem_active legal.atomic isActive
  rw [executable.source_eq node id outgoing]
  exact ⟨isActive, executable.outgoing node isNode.1 isNode.2.2 id outgoing⟩

/-- What is selected in a legal configuration of a chart without histories can be
resolved just in case targets of different transitions agree. -/
theorem selection_resolves_iff {definition : Definition}
    (done : Machine.chartOf definition = .ok chart)
    (noHistories : ∀ id, (chart.node id).isHistory = false)
    (parallels : chart.ParallelsHaveChildren) {world : World}
    (legal : chart.IsLegalConfiguration world.status.leaves) (events : List Event) :
    (∃ resolution, chart.resolve world.status.history world.status.leaves
      (world.select chart events).1 = .ok resolution) ↔
        chart.TargetsAgree (world.select chart events).1 := by
  have executable := isExecutable_of_chartOf done
  have sources := fun id (selected : id ∈ (world.select chart events).1) =>
    executable.source_of_mem_select legal selected
  rw [exists_resolve_iff executable noHistories legal (fun id selected => (sources id selected).1)
    parallels]
  exact executable.allCompatible_targets_iff fun id selected => (sources id selected).2

/-! ## Two regions that leave their parallel -/

/-- A parallel of two regions.  On `part` they leave the parallel for different
states; on `turn` they both stay in it. -/
def crossroads : Definition :=
  { states := [
      { id := some "road", isParallel := true, states := [
        { id := some "left", states := [
          { id := some "west", transitions := [
            { event := some "part", target := some "sea" },
            { event := some "turn", target := some "south" }] },
          { id := some "south" }] },
        { id := some "right", states := [
          { id := some "east", transitions := [
            { event := some "part", target := some "hills" },
            { event := some "turn", target := some "north" }] },
          { id := some "north" }] }] },
      { id := some "sea" },
      { id := some "hills" }] }

/-- A world in which the first states of both regions are active. -/
def atCrossroads : World :=
  { status := { leaves := .ofList [3, 6] } }

theorem crossroads_facts :
    Machine.chartOf crossroads = .ok (Machine.chartOrEmpty crossroads) ∧
      (∀ id, ((Machine.chartOrEmpty crossroads).node id).isHistory = false) ∧
      (Machine.chartOrEmpty crossroads).ParallelsHaveChildren ∧
      (Machine.chartOrEmpty crossroads).IsLegalConfiguration atCrossroads.status.leaves := by
  have done : Machine.chartOf crossroads = .ok (Machine.chartOrEmpty crossroads) :=
    Machine.chartOf_eq_ok (by decide +kernel)
  exact ⟨done, noHistories_of_all (by decide +kernel),
    parallelsHaveChildren_of_all (by decide +kernel),
    isLegalConfiguration_of_violations done (by decide +kernel)⟩

/-- On `turn` both transitions are selected, agree and are resolved. -/
theorem selection_resolves_on_turn :
    ((Machine.chartOf crossroads = .ok (Machine.chartOrEmpty crossroads) ∧
      (∀ id, ((Machine.chartOrEmpty crossroads).node id).isHistory = false) ∧
      (Machine.chartOrEmpty crossroads).ParallelsHaveChildren ∧
      (Machine.chartOrEmpty crossroads).IsLegalConfiguration atCrossroads.status.leaves) ∧
      (atCrossroads.select (Machine.chartOrEmpty crossroads) [{ name := "turn" }]).1.length = 2) ∧
      ∃ resolution, (Machine.chartOrEmpty crossroads).resolve atCrossroads.status.history
        atCrossroads.status.leaves
        (atCrossroads.select (Machine.chartOrEmpty crossroads) [{ name := "turn" }]).1 =
          .ok resolution := by
  obtain ⟨done, noHistories, parallels, legal⟩ := crossroads_facts
  refine ⟨⟨⟨done, noHistories, parallels, legal⟩, by decide +kernel⟩, ?_⟩
  exact (selection_resolves_iff done noHistories parallels legal _).2 (by decide +kernel)

/-- Not all that is selected in a legal configuration can be resolved: on `part`
the two regions disagree. -/
theorem selection_need_not_resolve :
    ¬ ∀ (definition : Definition) (chart : Chart), Machine.chartOf definition = .ok chart →
      (∀ id, (chart.node id).isHistory = false) → chart.ParallelsHaveChildren →
      ∀ world : World, chart.IsLegalConfiguration world.status.leaves → ∀ events : List Event,
        ∃ resolution, chart.resolve world.status.history world.status.leaves
          (world.select chart events).1 = .ok resolution := by
  intro always
  obtain ⟨done, noHistories, parallels, legal⟩ := crossroads_facts
  obtain ⟨resolution, resolved⟩ :=
    always crossroads _ done noHistories parallels atCrossroads legal [{ name := "part" }]
  have fails : ((Machine.chartOrEmpty crossroads).resolve atCrossroads.status.history
      atCrossroads.status.leaves
      (atCrossroads.select (Machine.chartOrEmpty crossroads) [{ name := "part" }]).1).isOk =
        false := by
    decide +kernel
  rw [resolved] at fails
  cases fails

end Chart

end Statechart
