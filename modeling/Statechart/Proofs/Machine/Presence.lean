import Mathlib.Data.Finset.Dedup
import Statechart.Proofs.Machine.Legality
import Statechart.Proofs.Microstep.Progress
import Statechart.Proofs.World.Watching

/-!
# Observers know what is active

One who counts entries and exits from the beginning holds just the active states
after every operation, as long as all operations succeed and the machine is
neither reset nor restored.  What the observer is told is timely.
-/

namespace Statechart

namespace Chart

variable {chart : Chart}

/-- Telling of the exits and entries of a resolution is timely, and makes an observer who
holds what was active before hold what is active afterwards. -/
theorem LeadsFrom.areTimely_presencesOf (executable : chart.IsExecutable) {before : NodeSet}
    (atomic : ∀ leaf ∈ before, (chart.node leaf).isAtomic = true) {resolution : Resolution}
    (leads : chart.LeadsFrom before resolution) {held : Finset String}
    (holds : chart.HoldsIdsOf held (fun node => node ∈ chart.active before)) :
    chart.AreTimely held (World.presencesOf chart resolution) ∧
      chart.HoldsIdsOf ((World.presencesOf chart resolution).foldl hold held)
        (fun node => node ∈ chart.active resolution.after) := by
  have tree := executable.tree
  have properBefore : ∀ node, node ∈ chart.active before → chart.IsProper node :=
    fun node isActive =>
      have isNode := tree.isNode_of_mem_active atomic isActive
      ⟨isNode.1, isNode.2.1⟩
  have properAfter : ∀ node ∈ chart.active resolution.after, chart.IsProper node :=
    fun node isActive => leads.legal.isProper tree isActive
  have isActiveAfter : ∀ node ∈ resolution.entered, node ∈ chart.active resolution.after :=
    fun node entered => ((leads.mem_entered node).1 entered).1
  have upward : ∀ node ∈ resolution.entered, ∀ parent, chart.parent node = some parent →
      parent = rootId ∨ (parent ∈ chart.active before ∧ ¬ parent ∈ resolution.exited) ∨
        parent ∈ resolution.entered := by
    intro node entered parent isParent
    by_cases isRoot : parent = rootId
    · exact .inl isRoot
    · exact .inr (leads.stays_or_entered
        ((tree.isUpward_active resolution.after).mem_of_isDescendant node parent
          (isActiveAfter node entered) (tree.isDescendant_of_parent isParent) isRoot))
  obtain ⟨timelyExits, holdsStaying⟩ := holds.exits executable properBefore
    leads.isActive_of_exited leads.exited_of_isDescendant leads.inner_first leads.nodup_exited
  obtain ⟨timelyEntries, holdsAfter⟩ := holdsStaying.entries executable
    (fun node stays => properBefore node stays.1)
    (fun node entered => properAfter node (isActiveAfter node entered))
    (fun node entered stays => ((leads.mem_entered node).1 entered).2.elim
      (fun absent => absent stays.1) stays.2)
    upward leads.outer_first leads.nodup_entered
  rw [World.presencesOf, areTimely_append, List.foldl_append]
  refine ⟨⟨timelyExits, timelyEntries⟩, fun id => (holdsAfter id).trans ?_⟩
  refine exists_congr fun node => and_congr_left fun _ => ⟨?_, leads.stays_or_entered⟩
  rintro (⟨wasActive, notExited⟩ | entered)
  · exact leads.stays node wasActive notExited
  · exact isActiveAfter node entered

end Chart

namespace World

/-- A world in which an observer holds just the active states, and the observer has been
told of them in time. -/
structure IsWatched (chart : Chart) (world : World) : Prop where
  legal : (∃ leaf, leaf ∈ world.status.leaves) → chart.IsLegalConfiguration world.status.leaves
  records : chart.RecordsAreValid world.status.history
  holds : chart.HoldsIdsOf (world.presences.foldl hold ∅)
    (fun node => node ∈ chart.active world.status.leaves)
  timely : chart.AreTimely ∅ world.presences

namespace IsWatched

theorem quiet {chart : Chart} {world after : World} (watched : IsWatched chart world)
    (quiet : Quiet world after) : IsWatched chart after where
  legal := by
    rw [quiet.status_eq]
    exact watched.legal
  records := by
    rw [quiet.status_eq]
    exact watched.records
  holds := by
    rw [quiet.status_eq, quiet.presences_eq]
    exact watched.holds
  timely := by
    rw [quiet.presences_eq]
    exact watched.timely

variable {program : Program} (executable : program.chart.IsExecutable)
  (parallels : program.chart.ParallelsHaveChildren) {world after : World}
  {initial : Option TransitionId}
include executable parallels

/-- A microstep keeps the observer up to date.  The initial transition is taken where
nothing is active. -/
theorem microstep (watched : IsWatched program.chart world)
    (fresh : initial.isSome = true → ¬ ∃ leaf, leaf ∈ world.status.leaves) {events : List Event}
    {transitions : List TransitionId}
    (done : world.microstep program initial events = .ok (transitions, after)) :
    IsWatched program.chart after := by
  have regular : program.chart.IsRegular world.status := ⟨watched.legal, watched.records⟩
  obtain ⟨resolution, left, advances⟩ :=
    exists_advances_of_microstep executable parallels regular fresh done
  have next := advances.isRegular executable regular
  obtain ⟨timely, holds⟩ :=
    advances.leads.areTimely_presencesOf executable regular.atomic watched.holds
  refine ⟨next.legal, next.records, ?_, ?_⟩
  · rw [advances.carries.leaves_eq, advances.carries.presences_eq, List.foldl_append]
    exact holds
  · rw [advances.carries.presences_eq]
    exact Chart.areTimely_append.2 ⟨watched.timely, timely⟩

theorem macrostep (watched : IsWatched program.chart world)
    (fresh : initial.isSome = true → ¬ ∃ leaf, leaf ∈ world.status.leaves) {limit : Nat}
    {report : Macrostep} (ran : world.macrostep program limit initial = .ok (report, after)) :
    IsWatched program.chart after := by
  refine of_macrostep (fun before next same watched => watched.quiet same)
    (fun before next events transitions watched => ?_)
    (fun before next events transitions same => ?_) (fun _ => watched) ran
  · exact microstep executable parallels watched (fun isSome => by cases isSome)
  · refine microstep executable parallels (watched.quiet same) (fun isSome => ?_)
    rw [same.status_eq]
    exact fresh isSome

end IsWatched

end World

namespace Machine

/-- Operations that neither reset nor restore the machine. -/
def Operation.isOrdinary : Operation → Bool
  | .reset | .restore _ => false
  | _ => true

/-- A machine on which an observer knows what is active. -/
structure IsWatched (chart : Chart) (machine : Machine) : Prop where
  chart_eq : machine.chart = chart
  status_eq : machine.isStarted = false → machine.status = {}
  world : World.IsWatched chart machine.world

theorem isWatched_of_isPrepared {chart : Chart} (tree : chart.IsTree)
    {settings : InterpreterSettings} {machine : Machine}
    (prepared : machine.IsPrepared chart settings) : IsWatched chart machine := by
  have told : machine.world.presences = [] := by
    rw [World.presences, prepared.observations_eq]
    rfl
  have status : machine.world.status = {} := prepared.status_eq
  refine ⟨prepared.chart_eq, fun _ => status, ⟨?_, ?_, ?_, ?_⟩⟩
  · rw [status]
    rintro ⟨leaf, isLeaf⟩
    exact absurd isLeaf (NodeSet.not_mem_empty leaf)
  · rw [status]
    exact fun id _ recorded found => by cases found
  · rw [told, status]
    intro id
    constructor
    · exact fun member => absurd member (Finset.notMem_empty id)
    · rintro ⟨node, isActive, -⟩
      obtain ⟨-, leaf, isLeaf, -⟩ := tree.mem_active.1 isActive
      exact absurd isLeaf (NodeSet.not_mem_empty leaf)
  · rw [told]
    trivial

namespace IsWatched

variable {chart : Chart} {machine after : Machine}

theorem withWorld (watched : IsWatched chart machine) {world : World}
    (quiet : World.Quiet machine.world world) : IsWatched chart { machine with world } where
  chart_eq := watched.chart_eq
  status_eq notStarted := quiet.status_eq.trans (watched.status_eq notStarted)
  world := watched.world.quiet quiet

variable (executable : chart.IsExecutable) (parallels : chart.ParallelsHaveChildren)
include executable parallels

theorem start (watched : IsWatched chart machine) {report : Macrostep}
    (done : machine.start = (.ok report, after)) : IsWatched chart after := by
  rcases machine.start_cases with ⟨-, result⟩ | ⟨notStarted, ⟨_, world, ran, result⟩ |
    ⟨fault, world, -, result⟩⟩
  all_goals rw [result] at done
  · obtain ⟨-, rfl⟩ := Prod.mk.inj done
    exact watched
  · obtain ⟨-, rfl⟩ := Prod.mk.inj done
    obtain rfl := watched.chart_eq
    have nowhere : ¬ ∃ leaf, leaf ∈ machine.world.status.leaves := by
      rintro ⟨leaf, isLeaf⟩
      rw [show machine.world.status = {} from watched.status_eq notStarted] at isLeaf
      exact NodeSet.not_mem_empty leaf isLeaf
    exact ⟨rfl, fun flag => absurd flag.symm Bool.false_ne_true,
      watched.world.macrostep executable parallels (fun _ => nowhere) ran⟩
  · cases (Prod.mk.inj done).1

theorem step (watched : IsWatched chart machine) {report : Macrostep}
    (done : machine.step = (.ok report, after)) : IsWatched chart after := by
  rcases machine.step_cases with ⟨outcome, result⟩ | ⟨started, ⟨_, world, ran, result⟩ |
    ⟨fault, world, -, result⟩⟩
  all_goals rw [result] at done
  · obtain ⟨-, rfl⟩ := Prod.mk.inj done
    exact watched
  · obtain ⟨-, rfl⟩ := Prod.mk.inj done
    obtain rfl := watched.chart_eq
    exact ⟨rfl, fun flag => absurd (flag.symm.trans started) Bool.false_ne_true,
      watched.world.macrostep executable parallels (fun isSome => by cases isSome) ran⟩
  · cases (Prod.mk.inj done).1

/-- Every ordinary operation that succeeds keeps the observer up to date. -/
theorem perform (watched : IsWatched chart machine) {operation : Operation}
    (ordinary : operation.isOrdinary = true)
    (done : machine.perform operation = (.ok (), after)) : IsWatched chart after := by
  cases operation with
  | start =>
      obtain ⟨report, result⟩ := exists_ok_of_map done
      exact watched.start executable parallels result
  | step =>
      obtain ⟨report, result⟩ := exists_ok_of_map done
      exact watched.step executable parallels result
  | fire event =>
      obtain ⟨report, result⟩ := exists_ok_of_map done
      have pushed := watched.withWorld (World.Solitary.post machine.world event).toQuiet
      exact pushed.step executable parallels result
  | push event =>
      obtain ⟨-, rfl⟩ := Prod.mk.inj done
      exact watched.withWorld (World.Solitary.post machine.world event).toQuiet
  | cancelService id =>
      obtain ⟨-, rfl⟩ := Prod.mk.inj done
      obtain ⟨world, quiet, cancelled⟩ := quiet_cancelService machine id
      rw [cancelled]
      exact watched.withWorld quiet
  | reset => cases ordinary
  | restore snapshot => cases ordinary

theorem performUntilFault (watched : IsWatched chart machine) {operations : List Operation}
    (ordinary : ∀ operation ∈ operations, operation.isOrdinary = true)
    (done : machine.performUntilFault operations = .ok after) : IsWatched chart after := by
  induction operations generalizing machine with
  | nil =>
      cases done
      exact watched
  | cons operation rest ih =>
      unfold Machine.performUntilFault at done
      split at done
      · next next performed =>
          exact ih (watched.perform executable parallels (ordinary operation List.mem_cons_self)
            performed) (fun other later => ordinary other (List.mem_cons_of_mem _ later)) done
      · cases done

end IsWatched

/-- After operations that all succeed, none a reset or a restore, an observer who was told
of all entries and exits holds just the active states, and each was told in time. -/
theorem observer_holds_activeStates {definition : Definition} {model : DataModel}
    {settings : InterpreterSettings} {services : List (String × Service)}
    {machine after : Machine}
    (prepared : prepare definition model settings services = .ok machine)
    (parallels : machine.chart.ParallelsHaveChildren) {operations : List Operation}
    (ordinary : ∀ operation ∈ operations, operation.isOrdinary = true)
    (done : machine.performUntilFault operations = .ok after) :
    after.world.observations.toList.foldl hold ∅ = after.activeStates.toFinset ∧
      after.chart.AreTimely ∅ after.world.observations.toList := by
  obtain ⟨chart, isChart, isPrepared⟩ := exists_isPrepared prepared
  have executable := Chart.isExecutable_of_chartOf isChart
  rw [isPrepared.chart_eq] at parallels
  have watched := (isWatched_of_isPrepared executable.tree isPrepared).performUntilFault
    executable parallels ordinary done
  obtain rfl := watched.chart_eq
  constructor
  · ext id
    rw [← foldl_hold_filter, List.mem_toFinset]
    refine (watched.world.holds id).trans (Iff.trans ?_ List.mem_map.symm)
    refine exists_congr fun node => and_congr_left fun _ => ?_
    exact ((Chart.mem_sortOrdered _).trans NodeSet.mem_toList).symm
  · exact Chart.areTimely_filter.1 watched.world.timely

/-- One who watches a machine at the crossroads turn knows where it stands then. -/
theorem observer_sees_turn :
    prepare Chart.crossroads {} {} [] = .ok crossroadsMachine ∧
      crossroadsMachine.chart.ParallelsHaveChildren ∧
      ∃ after, crossroadsMachine.performUntilFault [.start, .fire { name := "turn" }] =
          .ok after ∧
        after.activeStates = ["road", "left", "south", "right", "north"] ∧
        after.world.observations.toList.foldl hold ∅ = after.activeStates.toFinset ∧
        after.chart.AreTimely ∅ after.world.observations.toList := by
  have prepared : prepare Chart.crossroads {} {} [] = .ok crossroadsMachine :=
    prepare_eq_ok (by decide +kernel)
  have parallels : crossroadsMachine.chart.ParallelsHaveChildren :=
    Chart.parallelsHaveChildren_of_all (by decide +kernel)
  have active : (crossroadsMachine.performUntilFault
      [.start, .fire { name := "turn" }]).toOption.map activeStates =
        some ["road", "left", "south", "right", "north"] := by
    decide +kernel
  refine ⟨prepared, parallels, ?_⟩
  cases outcome : crossroadsMachine.performUntilFault [.start, .fire { name := "turn" }] with
  | error fault =>
      rw [outcome] at active
      cases active
  | ok after =>
      rw [outcome] at active
      exact ⟨after, rfl, Option.some.inj active,
        observer_holds_activeStates prepared parallels (by simp [Operation.isOrdinary]) outcome⟩

end Machine

end Statechart
