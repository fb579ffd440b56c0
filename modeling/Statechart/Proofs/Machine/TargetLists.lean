import Statechart.Proofs.Machine.Recording
import Statechart.Proofs.Microstep.TargetLists

/-!
# Lists of targets in machines

A transition may name several targets, histories among them, if they part in parallels.
But a history may lead to anything below its owner.  So whether the transition can be
taken is up to what the histories lead to, unless none of them stands beside a target
below its owner, neither there nor in the initial and default transitions of the chart.
-/

namespace Statechart

namespace Machine

variable {definition : Definition} {chart : Chart} {history : NodeMap (List NodeId)}

/-- With the records of a machine, an outgoing transition of an active state whose expansion
comes to an end can be taken just in case every two of the leaves that are reached part in a
parallel.  The configuration is legal then.  So it is if histories stand alone among the
targets and in initial and default transitions. -/
theorem targets_resolve_iff (accepted : chartOf definition = .ok chart)
    (parallels : chart.ParallelsHaveChildren) (recorded : IsRecorded definition history)
    {before : NodeSet} (legal : chart.IsLegalConfiguration before) {source : NodeId}
    {id : TransitionId} (isActive : source ∈ chart.active before)
    (outgoing : id ∈ (chart.node source).transitions) {reached : Expansion}
    (done : chart.expand history (chart.residualOf before [id]) (chart.seedsOf before [id]) =
      some reached) :
    (∀ resolution, chart.resolve history before [id] = .ok resolution →
      chart.IsLegalConfiguration resolution.after) ∧
    ((∃ resolution, chart.resolve history before [id] = .ok resolution) ↔
      ∀ a ∈ reached.leaves, ∀ b ∈ reached.leaves, a ≠ b → chart.areOrthogonal a b = true) ∧
    (chart.HistoriesStandAlone (chart.transition id).targets → chart.EntriesStandAlone →
      ∃ resolution, chart.resolve history before [id] = .ok resolution) := by
  have executable := Chart.isExecutable_of_chartOf accepted
  have tree := executable.tree
  obtain ⟨records, part⟩ := recorded.isValid accepted parallels
  have isNode := tree.isNode_of_mem_active legal.atomic isActive
  have legalTargets := executable.outgoing source isNode.1 isNode.2.2 id outgoing
  have beside := executable.staysBeside_of_legal legalTargets legal
    ((executable.source_eq source id outgoing).symm ▸ isActive)
  have nonempty := executable.exists_mem_of_expand parallels records done
    (.inl (legal.exists_mem tree))
  have resolves : (∃ resolution, chart.resolve history before [id] = .ok resolution) ↔
      chart.IsLegalConfiguration reached.leaves := by
    rw [← tree.violations_eq_nil_iff]
    constructor
    · rintro ⟨resolution, resolved⟩
      obtain ⟨other, expanded, noViolations, -⟩ := Chart.resolve_eq_ok_iff.1 resolved
      rwa [Option.some.inj (done.symm.trans expanded)]
    · exact fun noViolations =>
        ⟨_, Chart.resolve_eq_ok_iff.2 ⟨reached, done, noViolations, rfl⟩⟩
  refine ⟨fun resolution resolved => ?_, ?_, fun alone entriesAlone => ?_⟩
  · obtain ⟨other, -, noViolations, rfl⟩ := Chart.resolve_eq_ok_iff.1 resolved
    exact tree.violations_eq_nil_iff.1 noViolations
  · rw [resolves, executable.isLegalConfiguration_iff_areOrthogonal beside.atomic done]
    exact and_iff_right nonempty
  · apply resolves.2
    have apart := executable.leadsApart_of_entriesStandAlone entriesAlone part
    exact executable.isLegalConfiguration_of_historiesStandAlone beside done records apart alone
      nonempty

/-! ## Ways to a bridge -/

/-- A road of two regions, one of them over a bridge that is a parallel itself.  The bridge has a
history and so has the region.  From the farm one drives to some targets on the road. -/
def bridge (targets default : String) : Definition :=
  { states := [
      { id := some "farm", transitions := [
        { event := some "drive", target := some targets }] },
      { id := some "road", isParallel := true,
        transitions := [{ event := some "return", target := some "farm" }], states := [
        { id := some "left",
          histories := [{ id := some "last", kind := .deep, target := some default }], states := [
          { id := some "bridge", isParallel := true,
            histories := [{ id := some "back", kind := .deep, target := some "down" }], states := [
            { id := some "lane", states := [{ id := some "west" }, { id := some "down" }] },
            { id := some "path", states := [{ id := some "dry" }, { id := some "wet" }] }] }] },
        { id := some "right", states := [{ id := some "east" }, { id := some "north" }] }] }] }

def bridgeBuilt (targets default : String) : Machine :=
  preparedOrEmpty (bridge targets default) {} {} []

/-- A machine back on the farm, after a drive over the bridge. -/
def afterDrive : Machine :=
  (bridgeBuilt "last east" "back").performAll
    [.start, .fire { name := "drive" }, .fire { name := "return" }]

/-- With what is recorded on the bridge, one may drive to the last place on the left and to the
east. -/
theorem bridge_is_driven_over :
    ∃ reached, (chartOf (bridge "last east" "back") = .ok afterDrive.chart ∧
      afterDrive.chart.ParallelsHaveChildren ∧
      IsRecorded (bridge "last east" "back") afterDrive.status.history ∧
      afterDrive.chart.IsLegalConfiguration afterDrive.status.leaves ∧
      1 ∈ afterDrive.chart.active afterDrive.status.leaves ∧
      0 ∈ (afterDrive.chart.node 1).transitions ∧
      afterDrive.chart.expand afterDrive.status.history
        (afterDrive.chart.residualOf afterDrive.status.leaves [0])
        (afterDrive.chart.seedsOf afterDrive.status.leaves [0]) = some reached ∧
      afterDrive.chart.HistoriesStandAlone (afterDrive.chart.transition 0).targets ∧
      afterDrive.chart.EntriesStandAlone) ∧
    afterDrive.status.history.find? 4 = some [9, 11] ∧
    (afterDrive.chart.transition 0).targets = [4, 14] ∧
    ∃ resolution, afterDrive.chart.resolve afterDrive.status.history afterDrive.status.leaves [0] =
      .ok resolution := by
  have comesAbout : ComesAbout (bridge "last east" "back") afterDrive := by
    have prepared : ComesAbout (bridge "last east" "back") (bridgeBuilt "last east" "back") :=
      .prepared (prepare_eq_ok (by decide +kernel))
    exact prepared.performAll (by simp)
  have accepted := comesAbout.chartOf_eq
  -- The machine is run once for all that is read off it.
  obtain ⟨withChildren, noViolations, isActive, outgoing, expands, alone, entriesAlone, recorded,
      areTargets⟩ :
      afterDrive.chart.nodes.all
        (fun node => !node.isParallel || !node.children.isEmpty) = true ∧
      afterDrive.chart.violations afterDrive.status.leaves = [] ∧
      1 ∈ afterDrive.chart.active afterDrive.status.leaves ∧
      0 ∈ (afterDrive.chart.node 1).transitions ∧
      (afterDrive.chart.expand afterDrive.status.history
        (afterDrive.chart.residualOf afterDrive.status.leaves [0])
        (afterDrive.chart.seedsOf afterDrive.status.leaves [0])).isSome = true ∧
      afterDrive.chart.HistoriesStandAlone (afterDrive.chart.transition 0).targets ∧
      afterDrive.chart.nodes.all (fun node =>
        (node.initial.toList ++ node.historyDefault.toList).all (fun id =>
          decide (afterDrive.chart.HistoriesStandAlone
            (afterDrive.chart.transition id).targets))) = true ∧
      afterDrive.status.history.find? 4 = some [9, 11] ∧
      (afterDrive.chart.transition 0).targets = [4, 14] := by
    decide +kernel
  have parallels := Chart.parallelsHaveChildren_of_all withChildren
  have legal := Chart.isLegalConfiguration_of_violations accepted noViolations
  have entries := Chart.entriesStandAlone_of_all entriesAlone
  obtain ⟨reached, done⟩ := Option.isSome_iff_exists.1 expands
  have resolves := (targets_resolve_iff accepted parallels (.standing comesAbout) legal isActive
    outgoing done).2.2 alone entries
  exact ⟨reached, ⟨accepted, parallels, .standing comesAbout, legal, isActive, outgoing, done,
    alone, entries⟩, recorded, areTargets, resolves⟩

/-- Whether outgoing transitions of active states with several targets, a history among them, can
be taken if their expansion comes to an end. -/
def MixedTargetsResolve (definition : Definition) : Prop :=
  ∀ (chart : Chart) (before : NodeSet) (history : NodeMap (List NodeId)) (source : NodeId)
    (id : TransitionId), chartOf definition = .ok chart → chart.ParallelsHaveChildren →
    chart.IsLegalConfiguration before → IsRecorded definition history →
    source ∈ chart.active before → id ∈ (chart.node source).transitions →
    2 ≤ (chart.transition id).targets.length →
    (∃ target ∈ (chart.transition id).targets, (chart.node target).isHistory = true) →
    (∃ reached, chart.expand history (chart.residualOf before [id])
      (chart.seedsOf before [id]) = some reached) →
    ∃ resolution, chart.resolve history before [id] = .ok resolution

theorem not_mixedTargetsResolve {targets default : String}
    (accepted : (prepare (bridge targets default) {} {} []).isOk = true)
    (onFarm : let chart := (bridgeBuilt targets default).chart
      chart.nodes.all (fun node => !node.isParallel || !node.children.isEmpty) = true ∧
      chart.violations (.ofList [1]) = [] ∧ 1 ∈ chart.active (.ofList [1]) ∧
      0 ∈ (chart.node 1).transitions ∧ 2 ≤ (chart.transition 0).targets.length ∧
      (∃ target ∈ (chart.transition 0).targets, (chart.node target).isHistory = true) ∧
      (chart.expand ∅ (chart.residualOf (.ofList [1]) [0])
        (chart.seedsOf (.ofList [1]) [0])).isSome = true ∧
      (chart.resolve ∅ (.ofList [1]) [0]).isOk = false) :
    ¬ MixedTargetsResolve (bridge targets default) := by
  obtain ⟨withChildren, noViolations, isActive, outgoing, several, isHistory, expands, fails⟩ :=
    onFarm
  intro resolves
  have prepared := prepare_eq_ok accepted
  have isChart := (ComesAbout.prepared prepared).chartOf_eq
  obtain ⟨resolution, resolved⟩ := resolves _ _ _ _ _ isChart
    (Chart.parallelsHaveChildren_of_all withChildren)
    (Chart.isLegalConfiguration_of_violations isChart noViolations) (isRecorded_empty prepared)
    isActive outgoing several isHistory (Option.isSome_iff_exists.1 expands)
  rw [bridgeBuilt, resolved] at fails
  cases fails

/-- Not every list of targets with a history among them can be entered.  The bridge leads back
down where another target is in the west, and so it does where this is what the history of the
region leads to. -/
theorem mixed_targets_may_be_illegal :
    ¬ MixedTargetsResolve (bridge "back west" "down") ∧
      ¬ MixedTargetsResolve (bridge "last east" "back west") :=
  ⟨not_mixedTargetsResolve (by decide +kernel) (by decide +kernel),
    not_mixedTargetsResolve (by decide +kernel) (by decide +kernel)⟩

end Machine

end Statechart
