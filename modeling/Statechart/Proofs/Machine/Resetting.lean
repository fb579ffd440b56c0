import Statechart.Proofs.Machine.Attempts
import Statechart.Proofs.Machine.Resuming
import Statechart.Proofs.World.Services

/-!
# Resets that fail

A reset forgets where the machine stands before it enters the initial configuration again, and
the data model that survives may keep it from doing so.  Then the machine is not started any
more: nothing is active, nothing is recorded and no service runs.  Only a snapshot that was
taken before the reset brings back what the machine was doing.
-/

namespace Statechart

namespace World

variable {program : Program}

/-- Whatever gives up a microstep, a machine can be used after it. -/
theorem isUsable_giveUp (world : World) (chart : Chart) (fault : ResolutionFault) :
    (world.giveUp chart fault).fault.isUsable = true := by
  cases fault <;> rfl

theorem isUsable_of_microstep {world : World} {initial : Option TransitionId}
    {events : List Event} {failure : Failure}
    (failed : world.microstep program initial events = .error failure) :
    failure.fault.isUsable = true := by
  unfold microstep at failed
  dsimp only at failed
  split at failed
  · cases failed
    exact isUsable_giveUp _ _ _
  · cases failed

/-- A macrostep that is given up has begun a microstep, and leaves no service besides those of
states that are active where the machine stood. -/
theorem givenUp_of_macrostep {world : World} {limit : Nat} {initial : Option TransitionId}
    {failure : Failure} (failed : world.macrostep program limit initial = .error failure) :
    1 ≤ limit ∧ failure.fault.isUsable = true ∧
      ∀ node, failure.world.services.running.contains node = true →
        node ∈ world.active program := by
  rw [macrostep_eq] at failed
  split at failed
  · cases failed
  · next inner given =>
      cases failed
      obtain ⟨atLeastOne, attempt, -, outcome⟩ :=
        (Attempt.course_of_microsteps_eq given).exists_of_error
      have isUsable : inner.fault.isUsable = true := isUsable_of_microstep outcome
      refine ⟨atLeastOne, isUsable, fun node isRunning => ?_⟩
      have retains := retains_cancelInactive { inner.world with status := world.status }
        program.chart (world.active program)
      exact ((retains.contains_running node).1 isRunning).2

end World

namespace Machine

variable {machine after : Machine} {fault : Fault}

/-- A machine that fails to start has tried at least one microstep, and has no service
besides those of states that were active already. -/
theorem givenUp_of_start (failed : machine.start = (.error fault, after)) :
    1 ≤ machine.settings.maxMicrosteps ∧ machine.isStarted = false ∧ fault.isUsable = true ∧
      ∀ node, after.world.services.running.contains node = true →
        node ∈ machine.status.active machine.chart := by
  unfold start at failed
  split at failed
  · cases failed
  · next notStarted =>
      unfold macrostep at failed
      cases ran : machine.world.macrostep machine.program machine.settings.maxMicrosteps
          machine.chart.root.initial with
      | ok result =>
          rw [ran] at failed
          cases failed
      | error failure =>
          rw [ran] at failed
          cases failed
          obtain ⟨atLeastOne, isUsable, active⟩ := World.givenUp_of_macrostep ran
          exact ⟨atLeastOne, by simpa using notStarted, isUsable, fun node => active node⟩

theorem reset_eq (machine : Machine) : machine.reset = machine.emptied.start :=
  rfl

/-- No step is taken unless the machine is started. -/
theorem fire_of_not_started (notStarted : machine.isStarted = false) (event : Event) :
    machine.fire event = (.error .notStarted, machine.push event) := by
  have still : (machine.push event).isStarted = false := notStarted
  rw [fire, step, still]
  rfl

/-- A reset that fails ends the run of a machine, although the fault leaves the machine usable:
it is not started any more, stands nowhere, has no service left and refuses every event.  A
snapshot taken before the reset puts it back where it stood. -/
theorem failed_reset_stops {definition : Definition} (isRun : machine.IsRunOf definition)
    (started : machine.isStarted = true) (failed : machine.reset = (.error fault, after)) :
    fault.isUsable = true ∧ after.isStarted = false ∧ after.status = {} ∧
      (∀ id, after.hasService id = false) ∧
      (∀ event, after.fire event = (.error .notStarted, after.push event)) ∧
      ∀ time, ∃ back, after.restore (machine.snapshot time) = (.ok (), back) ∧
        back.isStarted = true ∧ back.status = machine.status := by
  rw [reset_eq] at failed
  obtain ⟨atLeastOne, notStarted, isUsable, active⟩ := givenUp_of_start failed
  obtain ⟨isStarted, status⟩ := standsAs_of_start failed
  have nowhere : after.isStarted = false := isStarted.trans notStarted
  have noService : ∀ node, after.world.services.running.contains node = false := by
    intro node
    rw [Bool.eq_false_iff]
    exact fun isRunning => NodeSet.not_mem_empty node (active node isRunning)
  have isRunAfter : after.IsRunOf definition := by
    have performed := isRun.performed .reset
    rw [perform, reset_eq, failed] at performed
    exact performed
  refine ⟨isUsable, nowhere, status, fun id => ?_, fire_of_not_started nowhere, fun time => ?_⟩
  · unfold hasService
    split
    · exact noService _
    · rfl
  · obtain ⟨-, restored⟩ := isRun.restore_snapshot isRunAfter atLeastOne started time
    exact ⟨_, restored, rfl, rfl⟩

/-- A road that cannot be taken late: whoever leaves it is late from then on, and on a late road
the two sides lead to different places at once. -/
def commute : Definition :=
  { states := [
      { id := some "road", isParallel := true,
        transitions := [
          { event := some "leave", target := some "home",
            actions := [.assign "ctx.late" "true"] }],
        states := [
          { id := some "left", states := [
            { id := some "west", transitions := [
              { condition := some "ctx.late", target := some "sea" }] }] },
          { id := some "right", states := [
            { id := some "east", transitions := [
              { condition := some "ctx.late", target := some "hills" }] }] }] },
      { id := some "home" },
      { id := some "sea" },
      { id := some "hills" }] }

/-- A machine that has come home. -/
def commuter : Machine :=
  (preparedOrEmpty commute {} {} []).performAll [.start, .fire { name := "leave" }]

theorem isRunOf_commuter : commuter.IsRunOf commute := by
  have prepared : prepare commute {} {} [] = .ok (preparedOrEmpty commute {} {} []) :=
    prepare_eq_ok (by decide +kernel)
  exact (IsRunOf.prepared (DataModel.isSound_fresh .null) prepared).performAll _

/-- A commuter is at home, and cannot be reset. -/
theorem commuter_stands :
    commuter.isStarted = true ∧ commuter.configuration = ["home"] ∧
      commuter.reset.1.isOk = false ∧ commuter.reset.2.isStarted = false := by
  decide +kernel

theorem exists_reset_commuter :
    ∃ fault after, commuter.reset = (.error fault, after) ∧ after.isStarted = false := by
  obtain ⟨-, -, fails, lost⟩ := commuter_stands
  cases outcome : commuter.reset with
  | mk result after =>
      rw [outcome] at fails lost
      cases result with
      | ok report => cases fails
      | error fault => exact ⟨fault, after, rfl, lost⟩

/-- A commuter who is reset is nowhere any more, and at home again by a snapshot. -/
theorem commuter_is_brought_back :
    (commuter.IsRunOf commute ∧ commuter.isStarted = true) ∧
      ∃ fault after, commuter.reset = (.error fault, after) ∧ fault.isUsable = true ∧
        after.isStarted = false ∧ after.status = {} ∧
        ∃ back, after.restore (commuter.snapshot 0) = (.ok (), back) ∧ back.isStarted = true ∧
          back.status = commuter.status ∧ commuter.configuration = ["home"] := by
  obtain ⟨started, atHome, -⟩ := commuter_stands
  obtain ⟨fault, after, failed, -⟩ := exists_reset_commuter
  obtain ⟨isUsable, notStarted, status, -, -, brings⟩ :=
    failed_reset_stops isRunOf_commuter started failed
  obtain ⟨back, restored, isStarted, isStatus⟩ := brings 0
  exact ⟨⟨isRunOf_commuter, started⟩, fault, after, failed, isUsable, notStarted, status, back,
    restored, isStarted, isStatus, atHome⟩

/-- Not every reset that fails and leaves the machine usable leaves it where it stood. -/
theorem failed_reset_loses_configuration :
    ¬ ∀ (definition : Definition) (machine after : Machine) (fault : Fault),
      machine.IsRunOf definition → machine.isStarted = true →
      machine.reset = (.error fault, after) → fault.isUsable = true →
        after.isStarted = true ∧ after.status = machine.status := by
  intro keeps
  obtain ⟨started, -⟩ := commuter_stands
  obtain ⟨fault, after, failed, lost⟩ := exists_reset_commuter
  obtain ⟨-, -, isUsable, -⟩ := givenUp_of_start ((reset_eq commuter).symm.trans failed)
  obtain ⟨still, -⟩ := keeps commute commuter after fault isRunOf_commuter started failed isUsable
  exact Bool.false_ne_true (lost.symm.trans still)

end Machine

end Statechart
