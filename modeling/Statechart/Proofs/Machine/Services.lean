import Statechart.Proofs.Chart.Evaluation
import Statechart.Proofs.Machine.Reachable
import Statechart.Proofs.Microstep.Services

/-!
# The services of a machine

Whatever a machine has been asked, and however its services fail, only active states are
served: the service of each is either running or suppressed.  After a macrostep that takes
a microstep every active state is served that invokes a service.
-/

namespace Statechart

namespace World

/-- A world that a microstep can be followed from, in which only active states are served. -/
structure IsServing (program : Program) (world : World) : Prop where
  regular : program.chart.IsRegular world.status
  within : world.services.AreWithin (world.active program)

/-- Steps that keep where the machine stands and which services run do not matter. -/
theorem IsServing.of_eq {program : Program} {before after : World}
    (serving : before.IsServing program) (status : after.status = before.status)
    (running : after.services.running = before.services.running)
    (suppressed : after.services.suppressed = before.services.suppressed) :
    after.IsServing program := by
  have active : after.active program = before.active program :=
    congrArg (fun status : Status => status.active program.chart) status
  refine ⟨status ▸ serving.regular, ?_⟩
  rw [active]
  exact Services.areWithin_of_eq serving.within running suppressed

theorem IsServing.solitary {program : Program} {before after : World}
    (serving : before.IsServing program) (step : Solitary before after) :
    after.IsServing program :=
  serving.of_eq step.status_eq step.attended.running_eq step.attended.suppressed_eq

/-- Once all services are cancelled, whatever regular status is put in place is served. -/
theorem isServing_cancelAll {program : Program} {world : World} {status : Status}
    (apart : world.services.AreApart) (regular : program.chart.IsRegular status) :
    { world.cancelAll program.chart with status }.IsServing program := by
  have retains := retains_cancelInactive world program.chart ∅
  refine ⟨regular, retains.areApart apart, fun node served => ?_⟩
  exact absurd (retains.isServed_iff.1 served).2 (NodeSet.not_mem_empty node)

/-- To forward events starts and cancels no service. -/
theorem attended_opening (world : World) (program : Program) (initial : Option TransitionId) :
    (world.opening program initial).2.services.running = world.services.running ∧
      (world.opening program initial).2.services.suppressed = world.services.suppressed := by
  have forwards : ∀ (world : World) (batch : List Event),
      Attended { world with generated := #[] } (world.forwardBatch program batch).2 :=
    fun world batch => .forwardAll _ program.chart batch
  unfold opening
  split
  · exact ⟨(forwards world []).running_eq, (forwards world []).suppressed_eq⟩
  · exact ⟨(forwards { world with inbox := [] } world.inbox).running_eq,
      (forwards { world with inbox := [] } world.inbox).suppressed_eq⟩

/-- A running service that is cancelled on request is suppressed instead. -/
theorem IsServing.suppress {program : Program} {world : World} (serving : world.IsServing program)
    {node : NodeId} (isRunning : world.services.running.contains node = true) :
    ((cancelService program.chart world node).suppress node).IsServing program := by
  have retains := retains_cancelService program.chart world node
  have status := (Hushed.cancelService program.chart world node).status_eq
  have within := serving.within
  have active : ((cancelService program.chart world node).suppress node).active program =
      world.active program :=
    congrArg (fun status : Status => status.active program.chart) status
  refine ⟨status ▸ serving.regular, ⟨fun other running suppressed => ?_, fun other served => ?_⟩⟩
  · obtain ⟨wasRunning, apart⟩ := (retains.contains_running other).1 running
    rcases NodeSet.mem_insert.1 suppressed with same | earlier
    · exact apart same
    · exact within.apart other wasRunning ((retains.mem_suppressed other).1 earlier).1
  · rw [active]
    rcases served with running | suppressed
    · exact within.isActive other (.inl ((retains.contains_running other).1 running).1)
    · rcases NodeSet.mem_insert.1 suppressed with rfl | earlier
      · exact within.isActive other (.inl isRunning)
      · exact within.isActive other (.inr ((retains.mem_suppressed other).1 earlier).1)

theorem areApart_microsteps (program : Program) {world : World} (apart : world.services.AreApart)
    (remaining : Nat) (initial : Option TransitionId) (events : List Event) (done : Macrostep) :
    (worldAfter (microsteps program remaining world initial events done)).services.AreApart :=
  worldAfter_microsteps (fun world => world.services.AreApart)
    (fun _ _ told apart => told.services_eq ▸ apart)
    (fun _ _ _ apart => areApart_microstep apart) remaining apart initial events done

/-- A machine that is put back where it stood keeps the services of the states there. -/
theorem isServing_rollBack {program : Program} {world : World} {saved : Status}
    (apart : world.services.AreApart) (regular : program.chart.IsRegular saved) :
    (world.rollBack program saved).IsServing program := by
  have retains := retains_cancelInactive { world with status := saved } program.chart
    (saved.active program.chart)
  have status : (world.rollBack program saved).status = saved :=
    (Hushed.cancelInactive { world with status := saved } program.chart _).status_eq
  constructor
  · rw [status]
    exact regular
  · rw [World.active, status]
    exact retains.areWithin apart

section Macrosteps

variable {program : Program} (executable : program.chart.IsExecutable)
  (parallels : program.chart.ParallelsHaveChildren) {world : World}
  {initial : Option TransitionId}
include executable parallels

theorem areServed_of_microsteps {after : World} {remaining : Nat} {events : List Event}
    {done report : Macrostep} (serving : world.IsServing program)
    (fresh : initial.isSome = true → ¬ ∃ leaf, leaf ∈ world.status.leaves)
    (ran : microsteps program remaining world initial events done = .ok (report, after)) :
    after.IsServing program ∧ (done.microsteps < report.microsteps →
      after.services.Cover program.chart (after.active program)) := by
  have step : ∀ (before next : World) (initial : Option TransitionId) events transitions,
      before.IsServing program →
      (initial.isSome = true → ¬ ∃ leaf, leaf ∈ before.status.leaves) →
      before.microstep program initial events = .ok (transitions, next) →
      next.IsServing program ∧ next.services.Cover program.chart (next.active program) := by
    intro before next initial events transitions serving fresh stepped
    obtain ⟨resolution, left, advances⟩ :=
      exists_advances_of_microstep executable parallels serving.regular fresh stepped
    obtain ⟨within, covers⟩ :=
      areServed_of_microstep executable parallels serving.regular fresh serving.within stepped
    exact ⟨⟨advances.isRegular executable serving.regular, within⟩, covers⟩
  have solitary : ∀ before next : World, Solitary before next →
      before.IsServing program ∧ before.services.Cover program.chart (before.active program) →
      next.IsServing program ∧ next.services.Cover program.chart (next.active program) := by
    intro before next told ⟨serving, covers⟩
    have active : next.active program = before.active program :=
      congrArg (fun status : Status => status.active program.chart) told.status_eq
    rw [told.services_eq, active]
    exact ⟨serving.solitary told, covers⟩
  have course := Attempt.course_of_microsteps_eq ran
  by_cases idle : world.status.isFinal = true ∨ remaining = 0
  · -- Without a microstep nothing has been counted, and the world is as it was.
    obtain ⟨-, count, -⟩ := course.reports
    rw [course.eq_nil_of_idle idle, List.length_nil, Nat.add_zero] at count
    refine ⟨?_, fun counted => absurd count (Nat.ne_of_gt counted)⟩
    exact course.keeps (fun _ _ told serving => serving.solitary told)
      (fun before next events transitions serving stepped =>
        (step before next none events transitions serving (fun isSome => by cases isSome)
          stepped).1)
      (fun transitions next stepped =>
        (step world next initial events transitions serving fresh stepped).1)
      (fun _ => serving)
  · obtain ⟨isServing, covers⟩ := course.keeps solitary
      (fun before next events transitions holds stepped =>
        step before next none events transitions holds.1 (fun isSome => by cases isSome) stepped)
      (fun transitions next stepped =>
        step world next initial events transitions serving fresh stepped)
      (fun isIdle => absurd isIdle idle)
    exact ⟨isServing, fun _ => covers⟩

/-- A macrostep ends with only active states served, also if it is given up. -/
theorem areServed_of_macrostep (limit : Nat) (serving : world.IsServing program)
    (fresh : initial.isSome = true → ¬ ∃ leaf, leaf ∈ world.status.leaves) :
    (worldAfter (world.macrostep program limit initial)).IsServing program ∧
      ∀ report after, world.macrostep program limit initial = .ok (report, after) →
        1 ≤ report.microsteps → after.services.Cover program.chart (after.active program) := by
  obtain ⟨running, suppressed⟩ := attended_opening world program initial
  have opens := quiet_opening world program initial
  have begins := serving.of_eq opens.status_eq running suppressed
  have nowhere : initial.isSome = true →
      ¬ ∃ leaf, leaf ∈ (world.opening program initial).2.status.leaves := by
    rw [opens.status_eq]
    exact fresh
  rw [macrostep_eq]
  split
  · next result finished =>
      obtain ⟨isServing, covers⟩ :=
        areServed_of_microsteps executable parallels begins nowhere finished
      refine ⟨isServing, fun report after isResult counted => ?_⟩
      cases isResult
      exact covers counted
  · next failure failed =>
      have apart := areApart_microsteps program begins.within.apart limit initial
        (world.opening program initial).1 {}
      rw [failed] at apart
      exact ⟨isServing_rollBack apart serving.regular, fun _ _ isResult => by cases isResult⟩

end Macrosteps

end World

namespace Machine

/-- Only active states of a machine are served. -/
abbrev IsServing (machine : Machine) : Prop :=
  machine.world.IsServing machine.program

/-- An operation keeps to active states, and serves all of them that invoke a service if it
yields a report of a microstep. -/
structure Serves (outcome : Except Fault Macrostep × Machine) : Prop where
  serving : outcome.2.IsServing
  covers : ∀ report, outcome.1 = .ok report → 1 ≤ report.microsteps →
    outcome.2.world.services.Cover outcome.2.chart (outcome.2.status.active outcome.2.chart)

section Operations

variable {machine : Machine} (executable : machine.chart.IsExecutable)
  (parallels : machine.chart.ParallelsHaveChildren) (serving : machine.IsServing)
include executable parallels serving

theorem IsServing.macrostep {initial : Option TransitionId}
    (fresh : initial.isSome = true → ¬ ∃ leaf, leaf ∈ machine.status.leaves) :
    Serves (machine.macrostep initial) := by
  obtain ⟨isServing, covers⟩ := World.areServed_of_macrostep executable parallels
    machine.settings.maxMicrosteps serving fresh
  unfold Machine.macrostep
  split
  · next done world ran =>
      rw [ran] at isServing
      refine ⟨isServing, fun report isReport => ?_⟩
      cases isReport
      exact covers done world ran
  · next failure failed =>
      rw [failed] at isServing
      exact ⟨isServing, fun report isReport => by cases isReport⟩

omit executable parallels in
/-- Nothing is counted where nothing is done. -/
theorem IsServing.idle : Serves (.ok {}, machine) := by
  refine ⟨serving, fun report isReport counted => ?_⟩
  cases isReport
  cases counted

theorem IsServing.start (settled : machine.IsSettled) : Serves machine.start := by
  unfold Machine.start
  split
  · exact serving.idle
  · next notStarted =>
      have nowhere : machine.status = {} := settled (by simpa using notStarted)
      have unoccupied : ¬ ∃ leaf, leaf ∈ machine.status.leaves := by
        rw [nowhere]
        rintro ⟨leaf, isLeaf⟩
        exact NodeSet.not_mem_empty leaf isLeaf
      have served : Serves (machine.macrostep machine.chart.root.initial) :=
        serving.macrostep executable parallels fun _ => unoccupied
      split
      · next done after result =>
          rw [result] at served
          exact ⟨served.serving, served.covers⟩
      · next fault after result =>
          rw [result] at served
          exact served

theorem IsServing.step : Serves machine.step := by
  unfold Machine.step
  split
  · exact ⟨serving, fun report isReport => by cases isReport⟩
  · split
    · exact serving.idle
    · exact serving.macrostep executable parallels fun isSome => by cases isSome

omit executable parallels in
theorem IsServing.push (event : Event) : (machine.push event).IsServing :=
  World.IsServing.of_eq serving rfl rfl rfl

omit executable parallels in
theorem IsServing.cancelService (id : String) : (machine.cancelService id).2.IsServing := by
  unfold Machine.cancelService
  split
  · exact serving
  · next node _ =>
      split
      · next isRunning =>
          let cleared : World := { machine.world with generated := #[] }
          have begins : cleared.IsServing machine.program := serving.of_eq rfl rfl rfl
          have suppressed := begins.suppress isRunning
          exact suppressed.solitary (.foldl .post _ _)
      · exact serving

theorem IsServing.reset : Serves machine.reset := by
  have emptied : machine.emptied.IsServing :=
    (World.isServing_cancelAll serving.within.apart machine.chart.isRegular_empty).of_eq rfl rfl rfl
  exact emptied.start executable parallels machine.isSettled_emptied

end Operations

theorem IsServing.restore {machine : Machine} {snapshot : Snapshot} (serving : machine.IsServing)
    (regular : machine.chart.IsRegular (machine.restore snapshot).2.status) :
    (machine.restore snapshot).2.IsServing := by
  unfold Machine.restore at regular ⊢
  dsimp only at regular ⊢
  split
  · exact serving
  · next status found =>
      rw [found] at regular
      dsimp only at regular
      split
      · next noViolations =>
          rw [noViolations] at regular
          exact World.isServing_cancelAll serving.within.apart regular
      · exact serving.solitary (.reportViolations _ _ _)

/-- Every operation keeps to the active states, whether or not it fails. -/
theorem IsServing.perform {machine : Machine} (executable : machine.chart.IsExecutable)
    (parallels : machine.chart.ParallelsHaveChildren) (serving : machine.IsServing)
    (settled : machine.IsSettled) {operation : Operation}
    (notRestore : ∀ snapshot, operation ≠ .restore snapshot) :
    (machine.perform operation).2.IsServing := by
  cases operation with
  | start => exact (serving.start executable parallels settled).serving
  | step => exact (serving.step executable parallels).serving
  | fire event =>
      have stepped : Serves (machine.fire event) :=
        IsServing.step executable parallels (serving.push event)
      exact stepped.serving
  | push event => exact serving.push event
  | cancelService id => exact serving.cancelService id
  | reset => exact (serving.reset executable parallels).serving
  | restore snapshot => exact absurd rfl (notRestore snapshot)

variable {definition : Definition} {machine : Machine}

theorem ComesAbout.isServing (comesAbout : ComesAbout definition machine)
    (parallels : machine.chart.ParallelsHaveChildren) : machine.IsServing := by
  obtain ⟨chart, isChart⟩ := comesAbout.exists_chart
  have executable := Chart.isExecutable_of_chartOf isChart
  rw [(comesAbout.stands isChart).chart_eq] at parallels
  induction comesAbout with
  | @prepared _ _ _ machine prepared =>
      rw [IsServing, world_of_prepare prepared]
      refine ⟨machine.chart.isRegular_empty, fun node isRunning => ?_, fun node served => ?_⟩
      · cases isRunning
      · rcases served with isRunning | isSuppressed
        · cases isRunning
        · exact absurd isSuppressed (NodeSet.not_mem_empty node)
  | performed comesAbout operation notRestore ih =>
      have stands := comesAbout.stands isChart
      exact ih.perform (stands.chart_eq ▸ executable) (stands.chart_eq ▸ parallels) stands.settled
        notRestore
  | @restored machine other comesAbout isOther time ih _ =>
      have after := comesAbout.restored isOther time
      have regular := after.isRegular ((after.stands isChart).chart_eq ▸ parallels)
      rw [(after.stands isChart).chart_eq, ← (comesAbout.stands isChart).chart_eq] at regular
      exact ih.restore regular

/-- Of a machine that comes about only active states have a service that is running or
suppressed, and no service is both.  When a machine is started, takes a step or is told of an
event, and a microstep at least is reported, every active state that invokes a service has one
that is running or suppressed. -/
theorem services_belong_to_active_states (comesAbout : ComesAbout definition machine)
    (parallels : machine.chart.ParallelsHaveChildren) :
    (∀ node, machine.world.services.running.contains node = true →
      node ∈ machine.status.active machine.chart ∧
        ¬ node ∈ machine.world.services.suppressed) ∧
    (∀ node ∈ machine.world.services.suppressed,
      node ∈ machine.status.active machine.chart) ∧
    ∀ report after, (machine.start = (.ok report, after) ∨ machine.step = (.ok report, after) ∨
        ∃ event, machine.fire event = (.ok report, after)) →
      1 ≤ report.microsteps → ∀ node ∈ after.status.active after.chart,
        (after.chart.node node).invocation.isSome = true →
          (after.world.services.running.contains node = true ↔
            ¬ node ∈ after.world.services.suppressed) := by
  have executable := Chart.isExecutable_of_chartOf comesAbout.chartOf_eq
  have settled := (comesAbout.stands comesAbout.chartOf_eq).settled
  have serving := comesAbout.isServing parallels
  refine ⟨fun node isRunning => ⟨?_, serving.within.apart node isRunning⟩,
    fun node isSuppressed => serving.within.isActive node (.inr isSuppressed), ?_⟩
  · exact serving.within.isActive node (.inl isRunning)
  intro report after done counted node isActive invokes
  have served : Serves (.ok report, after) := by
    rcases done with started | stepped | ⟨event, fired⟩
    · rw [← started]
      exact serving.start executable parallels settled
    · rw [← stepped]
      exact serving.step executable parallels
    · rw [← fired]
      exact IsServing.step executable parallels (serving.push event)
  refine ⟨served.serving.within.apart node, fun notSuppressed => ?_⟩
  exact (served.covers report rfl counted node isActive invokes).resolve_right notSuppressed

/-- A state that does nothing but invoke a service. -/
def invoking (id service : String) : StateDefinition :=
  { id := some id, invocation := some { service, source := some "" } }

/-- A press with its motor beside a lamp whose bulb nobody provides. -/
def workshop : Definition :=
  { states := [
      { id := some "workshop", isParallel := true, states := [
        { id := some "press", states := [invoking "pressing" "motor"] },
        { id := some "lamp", states := [invoking "shining" "bulb"] }] }] }

/-- A motor that does what it is asked. -/
def motor : Service :=
  { respond := fun _ _ => {} }

def workshopMachine : Machine :=
  preparedOrEmpty workshop {} {} [("motor", motor)]

/-- When the workshop has been opened its motor is running, and its bulb, which did not start,
is suppressed. -/
theorem motor_runs_in_workshop :
    ComesAbout workshop workshopMachine ∧ workshopMachine.chart.ParallelsHaveChildren ∧
      ∃ report after, workshopMachine.start = (.ok report, after) ∧ 1 ≤ report.microsteps ∧
        after.chart.idsOf [3, 5] = ["pressing", "shining"] ∧
        (∀ node ∈ [3, 5], node ∈ after.status.active after.chart ∧
          (after.chart.node node).invocation.isSome = true) ∧
        after.world.services.running.contains 3 = true ∧
        ¬ 3 ∈ after.world.services.suppressed ∧
        after.world.services.running.contains 5 = false ∧
        5 ∈ after.world.services.suppressed := by
  have prepared : ComesAbout workshop workshopMachine :=
    .prepared (prepare_eq_ok (by decide +kernel))
  have parallels : workshopMachine.chart.ParallelsHaveChildren :=
    Chart.parallelsHaveChildren_of_all (by decide +kernel)
  have counted : 1 ≤ (workshopMachine.start.1.toOption.getD {}).microsteps := by decide +kernel
  have named : workshopMachine.start.2.chart.idsOf [3, 5] = ["pressing", "shining"] := by
    decide +kernel
  have invoking : ∀ node ∈ [3, 5],
      node ∈ workshopMachine.start.2.status.active workshopMachine.start.2.chart ∧
        (workshopMachine.start.2.chart.node node).invocation.isSome = true := by
    decide +kernel
  have motor : workshopMachine.start.2.world.services.running.contains 3 = true := by
    decide +kernel
  have bulb : workshopMachine.start.2.world.services.running.contains 5 = false := by
    decide +kernel
  obtain ⟨-, -, served⟩ := services_belong_to_active_states prepared parallels
  cases outcome : workshopMachine.start with
  | mk result after =>
      rw [outcome] at counted named invoking motor bulb
      cases result with
      | error fault => cases counted
      | ok report =>
          have serves := served report after (.inl outcome) counted
          have press := invoking 3 (by simp)
          have lamp := invoking 5 (by simp)
          refine ⟨prepared, parallels, report, after, rfl, counted, named, invoking, motor,
            (serves 3 press.1 press.2).1 motor, bulb, ?_⟩
          by_contra notSuppressed
          rw [(serves 5 lamp.1 lamp.2).2 notSuppressed] at bulb
          cases bulb

end Machine

end Statechart
