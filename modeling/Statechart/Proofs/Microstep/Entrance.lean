import Statechart.Proofs.Microstep.TargetLists

/-!
# Entering a chart

The first microstep of a machine takes the initial transition of the root while
no state is active.  Validation has seen to it that the targets of every initial
and default transition part in parallels.  That is enough to reach a legal
configuration, unless a parallel has no children or a transition names a history
together with a node that the history may lead to as well, as both lie below the
owner of the history.
-/

namespace Statechart

namespace Chart

variable {chart : Chart}

theorem recordsAreValid_empty : chart.RecordsAreValid ∅ :=
  fun _ _ _ found => absurd found.symm (Option.some_ne_none _)

namespace IsExecutable

variable (executable : chart.IsExecutable)
include executable

/-- An expansion that starts from no leaf leads to a legal configuration just in case it
reaches leaves, every two of which part in a parallel. -/
theorem isLegalConfiguration_iff_of_expand {seeds : List NodeId} {reached : Expansion}
    (done : chart.expand ∅ ∅ seeds = some reached) :
    chart.IsLegalConfiguration reached.leaves ↔
      (∃ leaf, leaf ∈ reached.leaves) ∧ ∀ a ∈ reached.leaves, ∀ b ∈ reached.leaves,
        a ≠ b → chart.areOrthogonal a b = true :=
  executable.isLegalConfiguration_iff_areOrthogonal
    (fun leaf isLeaf => absurd isLeaf (NodeSet.not_mem_empty leaf)) done

/-- A transition whose expansion comes to an end can be taken from the empty configuration
if histories stand alone and every parallel has a child. -/
theorem isLegalConfiguration_of_expand (parallels : chart.ParallelsHaveChildren)
    (alone : chart.EntriesStandAlone) {id : TransitionId}
    (targetsAlone : chart.HistoriesStandAlone (chart.transition id).targets)
    (notEmpty : (chart.transition id).targets ≠ [])
    (legal : chart.areLegalTargets (chart.transition id).targets = true) {reached : Expansion}
    (done : chart.expand ∅ ∅ (chart.seedsOf ∅ [id]) = some reached) :
    chart.IsLegalConfiguration reached.leaves := by
  have apart : chart.LeadsApart ∅ := executable.leadsApart_of_entriesStandAlone alone
    fun _ _ _ found => absurd found.symm (Option.some_ne_none _)
  have fromNothing : chart.expand ∅ (chart.residualOf ∅ [id]) (chart.seedsOf ∅ [id]) =
      some reached := done
  obtain ⟨target, isTarget⟩ := List.exists_mem_of_ne_nil _ notEmpty
  have nonempty := executable.exists_mem_of_expand parallels recordsAreValid_empty fromNothing
    (.inr ⟨target, mem_targetsOf_singleton.2 isTarget⟩)
  exact executable.isLegalConfiguration_of_historiesStandAlone (executable.staysBeside_empty legal)
    fromNothing recordsAreValid_empty apart targetsAlone nonempty

end IsExecutable

/-- If the expansion of the initial targets comes to an end, an accepted chart can be
entered just in case the expansion reaches leaves, every two of which part in a parallel.
The configuration is legal then.  So it is if every parallel has a child and histories
stand alone in initial and default transitions. -/
theorem entrance_resolves_iff {definition : Definition}
    (accepted : Machine.chartOf definition = .ok chart) :
    ∃ initial, chart.root.initial = some initial ∧
      (∀ resolution, chart.resolve ∅ ∅ [initial] = .ok resolution →
        chart.IsLegalConfiguration resolution.after ∧ ∃ leaf, leaf ∈ resolution.after) ∧
      ∀ reached,
        chart.expand ∅ ∅ (chart.seedsOf ∅ [initial]) = some reached →
        ((∃ resolution, chart.resolve ∅ ∅ [initial] = .ok resolution) ↔
          (∃ leaf, leaf ∈ reached.leaves) ∧ ∀ a ∈ reached.leaves, ∀ b ∈ reached.leaves,
            a ≠ b → chart.areOrthogonal a b = true) ∧
        (chart.ParallelsHaveChildren → chart.EntriesStandAlone →
          ∃ resolution, chart.resolve ∅ ∅ [initial] = .ok resolution) := by
  have executable := isExecutable_of_chartOf accepted
  have tree := executable.tree
  obtain ⟨initial, isInitial, notEmpty, legalTargets⟩ := executable.rootInitial
  have resolves : ∀ {reached : Expansion},
      chart.expand ∅ ∅ (chart.seedsOf ∅ [initial]) = some reached →
      ((∃ resolution, chart.resolve ∅ ∅ [initial] = .ok resolution) ↔
        chart.IsLegalConfiguration reached.leaves) := by
    intro reached done
    rw [← tree.violations_eq_nil_iff]
    refine ⟨fun ⟨resolution, resolved⟩ => ?_, fun noViolations =>
      ⟨_, resolve_eq_ok_iff.2 ⟨reached, done, noViolations, rfl⟩⟩⟩
    obtain ⟨other, expanded, noViolations, -⟩ := resolve_eq_ok_iff.1 resolved
    rwa [Option.some.inj (done.symm.trans expanded)]
  refine ⟨initial, isInitial, fun resolution resolved => ?_, fun reached done => ⟨?_, ?_⟩⟩
  · obtain ⟨reached, -, noViolations, rfl⟩ := resolve_eq_ok_iff.1 resolved
    have legal := tree.violations_eq_nil_iff.1 noViolations
    exact ⟨legal, legal.exists_mem tree⟩
  · exact (resolves done).trans (executable.isLegalConfiguration_iff_of_expand done)
  · exact fun parallels alone => (resolves done).2 (executable.isLegalConfiguration_of_expand
      parallels alone (alone rootId initial (.inl isInitial)) notEmpty legalTargets done)

/-! ## Charts that can and charts that cannot be entered -/

/-- A parallel of two regions with a deep history. -/
def ringRoad (initial : String) : Definition :=
  { initial := some initial
    states := [
      { id := some "road", isParallel := true
        histories := [{ id := some "back", kind := .deep, target := some "south" }]
        states := [
          { id := some "left", states := [{ id := some "west" }, { id := some "south" }] },
          { id := some "right", states := [{ id := some "east" }, { id := some "north" }] }] }] }

/-- A parallel without children. -/
def bareHall : Definition :=
  { states := [{ id := some "hall", isParallel := true }] }

/-- The transition that enters the chart of a definition. -/
def entranceOf (definition : Definition) : TransitionId :=
  (Machine.chartOrEmpty definition).root.initial.getD 0

/-- Entered through its history alone, the road has one state of either region active. -/
theorem ringRoad_is_entered :
    (Machine.chartOf (ringRoad "back") = .ok (Machine.chartOrEmpty (ringRoad "back")) ∧
      (∃ reached, (Machine.chartOrEmpty (ringRoad "back")).expand ∅ ∅
        ((Machine.chartOrEmpty (ringRoad "back")).seedsOf ∅ [entranceOf (ringRoad "back")]) =
          some reached) ∧
      (Machine.chartOrEmpty (ringRoad "back")).ParallelsHaveChildren ∧
      (Machine.chartOrEmpty (ringRoad "back")).EntriesStandAlone) ∧
    ∃ resolution, (Machine.chartOrEmpty (ringRoad "back")).resolve ∅ ∅
      [entranceOf (ringRoad "back")] = .ok resolution := by
  have done : Machine.chartOf (ringRoad "back") = .ok (Machine.chartOrEmpty (ringRoad "back")) :=
    Machine.chartOf_eq_ok (by decide +kernel)
  have expands : ∃ reached, (Machine.chartOrEmpty (ringRoad "back")).expand ∅ ∅
      ((Machine.chartOrEmpty (ringRoad "back")).seedsOf ∅ [entranceOf (ringRoad "back")]) =
        some reached :=
    Option.isSome_iff_exists.1 (by decide +kernel)
  have parallels : (Machine.chartOrEmpty (ringRoad "back")).ParallelsHaveChildren :=
    parallelsHaveChildren_of_all (by decide +kernel)
  have alone : (Machine.chartOrEmpty (ringRoad "back")).EntriesStandAlone :=
    entriesStandAlone_of_all (by decide +kernel)
  refine ⟨⟨done, expands, parallels, alone⟩, ?_⟩
  obtain ⟨initial, isInitial, -, resolves⟩ := entrance_resolves_iff done
  have isEntrance : entranceOf (ringRoad "back") = initial := by
    rw [entranceOf, isInitial, Option.getD_some]
  rw [isEntrance] at expands ⊢
  obtain ⟨reached, expanded⟩ := expands
  exact (resolves reached expanded).2 parallels alone

/-- Whether the first microstep can be resolved if the expansion comes to an end. -/
def CanBeEntered (definition : Definition) : Prop :=
  ∀ chart initial, Machine.chartOf definition = .ok chart → chart.root.initial = some initial →
    (∃ reached, chart.expand ∅ ∅ (chart.seedsOf ∅ [initial]) = some reached) →
      ∃ resolution, chart.resolve ∅ ∅ [initial] = .ok resolution

theorem not_canBeEntered {definition : Definition}
    (accepted : (Machine.chartOf definition).isOk = true)
    (isInitial : (Machine.chartOrEmpty definition).root.initial = some (entranceOf definition))
    (expands : ((Machine.chartOrEmpty definition).expand ∅ ∅
      ((Machine.chartOrEmpty definition).seedsOf ∅ [entranceOf definition])).isSome = true)
    (fails : ((Machine.chartOrEmpty definition).resolve ∅ ∅ [entranceOf definition]).isOk =
      false) : ¬ CanBeEntered definition := by
  intro enters
  obtain ⟨resolution, resolved⟩ := enters _ _ (Machine.chartOf_eq_ok accepted) isInitial
    (Option.isSome_iff_exists.1 expands)
  rw [resolved] at fails
  cases fails

/-- Not every accepted chart can be entered.  A parallel without children has no leaf, and
where the history leads to the left region, so does the state that is named with it. -/
theorem accepted_chart_may_be_closed :
    ¬ CanBeEntered (ringRoad "back west") ∧ ¬ CanBeEntered bareHall :=
  ⟨not_canBeEntered (by decide +kernel) (by decide +kernel) (by decide +kernel)
      (by decide +kernel),
    not_canBeEntered (by decide +kernel) (by decide +kernel) (by decide +kernel)
      (by decide +kernel)⟩

end Chart

end Statechart
