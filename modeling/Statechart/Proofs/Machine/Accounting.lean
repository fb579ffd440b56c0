import Statechart.Proofs.Machine.Inbox

/-!
# The inbox along a run

Of all events that are put into the inbox in a run, the first ones have been taken from there and
the others wait.  They are taken in the order in which they have come, each once.
-/

namespace Statechart

namespace Machine

/-- The events that an operation puts into the inbox. -/
def putBy (machine : Machine) (operation : Operation) : List Event :=
  machine.putUntil operation (machine.perform operation).2.world

/-- All events that operations put into the inbox, in the order in which they come there. -/
def putAlong (machine : Machine) : List Operation → List Event
  | [] => []
  | operation :: rest => machine.putBy operation ++ (machine.perform operation).2.putAlong rest

/-- All events that operations take from the inbox: those handed to the macrosteps that they
begin and those discarded, one batch after the other. -/
def takenAlong (machine : Machine) : List Operation → List Event
  | [] => []
  | operation :: rest =>
    machine.handedBy operation ++ machine.discardedBy operation ++
      (machine.perform operation).2.takenAlong rest

/-- What is put into the inbox is taken from there in the order in which it has come, and the
rest waits. -/
theorem inbox_performAll {machine : Machine} (finds : machine.program.FindsServices)
    (invoked : machine.world.services.AreInvoked machine.program) (operations : List Operation) :
    machine.world.inbox ++ machine.putAlong operations =
      machine.takenAlong operations ++ (machine.performAll operations).world.inbox := by
  induction operations generalizing machine with
  | nil => exact List.append_nil _
  | cons operation rest ih =>
      obtain ⟨-, reaches⟩ := reaches_perform finds invoked operation
      have program_eq := (succeeds_perform machine operation).program_eq
      have findsNext : (machine.perform operation).2.program.FindsServices := program_eq ▸ finds
      have waits := ih findsNext (program_eq ▸ reaches.areInvoked)
      calc machine.world.inbox ++ machine.putAlong (operation :: rest)
          = machine.world.inbox ++ machine.putBy operation ++
              (machine.perform operation).2.putAlong rest := (List.append_assoc _ _ _).symm
        _ = machine.handedBy operation ++ machine.discardedBy operation ++
              ((machine.perform operation).2.world.inbox ++
                (machine.perform operation).2.putAlong rest) := by
            rw [putBy, reaches.inbox_eq, List.append_assoc]
        _ = machine.takenAlong (operation :: rest) ++
              (machine.performAll (operation :: rest)).world.inbox := by
            rw [waits, takenAlong, ← List.append_assoc]
            rfl

/-- The first microstep of the macrostep that an operation begins processes what is handed to
the macrostep, and every other one what the one before it has generated. -/
theorem attempts_process_handed (machine : Machine) (operation : Operation) :
    ∃ refusals, (∀ event ∈ refusals, event = .ofMachine "error.communication") ∧
      (refusals ≠ [] →
        World.MayRefuse machine.chart machine.world.services (machine.handedBy operation)) ∧
      (machine.attemptsOf operation).map Attempt.events <+:
        (machine.handedBy operation ++ refusals) ::
          (machine.attemptsOf operation).map (Attempt.generated machine.program) := by
  cases isBegun : machine.macrostepBegun operation with
  | none =>
      rw [attemptsOf_of_idle isBegun]
      exact ⟨[], fun _ member => (by cases member), fun notNone => absurd rfl notNone,
        List.nil_prefix⟩
  | some macrostep =>
      obtain ⟨begun, initial⟩ := macrostep
      obtain ⟨refusals, opens, tell, may⟩ := events_opened isBegun
      have processed := (course_of_begun isBegun).1.attempts_process_generated
      rw [opens, (begins_of_begun isBegun).program_eq] at processed
      exact ⟨refusals, tell, may, processed⟩

/-- To start a machine, for the first time or anew, hands over nothing, and neither do steps of a
machine in a top-level final state. -/
theorem handedBy_eq_nil {machine : Machine} (initial : machine.chart.root.initial.isSome = true)
    {operation : Operation}
    (isIdle : operation = .start ∨ operation = .reset ∨ machine.status.isFinal = true) :
    machine.handedBy operation = [] := by
  have started : ∀ other : Machine, other.chart = machine.chart →
      ∀ begun chosen, other.startBegun = some (begun, chosen) →
        begun.world.drained chosen = [] := by
    intro other same begun chosen begins
    obtain ⟨-, -, rfl⟩ := eq_of_startBegun begins
    rw [World.drained, same, if_pos initial]
  unfold handedBy
  split
  · next begun chosen begins =>
      cases operation with
      | start => exact started machine rfl begun chosen begins
      | reset => exact started machine.emptied rfl begun chosen begins
      | step =>
          have isFinal : machine.status.isFinal = true := by simpa using isIdle
          obtain ⟨-, notFinal, -⟩ := eq_of_stepBegun begins
          cases isFinal.symm.trans notFinal
      | fire event =>
          have isFinal : machine.status.isFinal = true := by simpa using isIdle
          obtain ⟨-, notFinal, -⟩ := eq_of_stepBegun begins
          cases isFinal.symm.trans notFinal
      | push | cancelService | restore => cases begins
  · rfl

/-- What is handed over at all is all that waits when the macrostep begins. -/
theorem handedBy_eq_of_ne_nil {machine : Machine}
    (initial : machine.chart.root.initial.isSome = true) {operation : Operation}
    (notNone : machine.handedBy operation ≠ []) :
    machine.handedBy operation = machine.world.inbox ++ operation.pushed := by
  have stepped : ∀ other : Machine, machine.macrostepBegun operation = other.stepBegun →
      machine.handedBy operation = other.world.inbox := by
    intro other same
    unfold handedBy at notNone ⊢
    rw [same] at notNone ⊢
    cases isBegun : other.stepBegun with
    | none =>
        rw [isBegun] at notNone
        exact absurd rfl notNone
    | some macrostep =>
        obtain ⟨-, -, isOther, isNone⟩ := eq_of_stepBegun isBegun
        rw [isBegun] at notNone
        dsimp only
        rw [isOther, isNone]
        rfl
  cases operation with
  | start => exact absurd (handedBy_eq_nil initial (.inl rfl)) notNone
  | reset => exact absurd (handedBy_eq_nil initial (.inr (.inl rfl))) notNone
  | step => exact (stepped machine rfl).trans (List.append_nil _).symm
  | fire event => exact stepped (machine.push event) rfl
  | push | cancelService | restore => exact absurd rfl notNone

/-- Of the events that are put into the inbox in a run, whatever the machine is asked and whether
or not that fails, the first ones have been taken and the others wait, at the end of each
operation and when each of its microsteps begins.  Taken are, in this order, the events handed to
the macrosteps that operations begin and those discarded when the machine is reset.  What is
handed to a macrostep, its first microstep processes, and the others only what microsteps have
generated; what comes of these microsteps is the outcome of the operation.  It is all that had been
put there when the macrostep began, and it is nothing when a machine is started, for the first time
or anew, or stands in a top-level final state. -/
theorem inbox_is_accounted_for {chart : Chart} {model : DataModel} {machine : Machine}
    (accredited : chart.IsAccredited) (isCreated : create chart model = .ok machine)
    (settings : InterpreterSettings) (services : List (String × Service))
    (operations : List Operation) :
    let begun := machine.equip settings services
    begun.putAlong operations =
      begun.takenAlong operations ++ (begun.performAll operations).world.inbox ∧
    ∀ before operation later, operations = before ++ operation :: later →
      let met := begun.performAll before
      (∀ attempt ∈ met.attemptsOf operation,
        begun.putAlong before ++ met.putUntil operation attempt.world =
          begun.takenAlong before ++ met.handedBy operation ++ met.discardedBy operation ++
            attempt.world.inbox) ∧
      (∃ refusals, (∀ event ∈ refusals, event = .ofMachine "error.communication") ∧
        (refusals ≠ [] →
          World.MayRefuse met.chart met.world.services (met.handedBy operation)) ∧
        (met.attemptsOf operation).map Attempt.events <+:
          (met.handedBy operation ++ refusals) ::
            (met.attemptsOf operation).map (Attempt.generated met.program)) ∧
      met.TakesCourse operation ∧
      (met.handedBy operation ≠ [] → begun.takenAlong before ++ met.handedBy operation =
        begun.putAlong before ++ operation.pushed) ∧
      (operation = .start ∨ operation = .reset ∨ met.status.isFinal = true →
        met.handedBy operation = []) := by
  intro begun
  obtain ⟨isChart, isFresh⟩ := world_of_create isCreated settings services
  have addressed : begun.chart.IsAddressed := isChart ▸ accredited.isAddressed
  obtain ⟨finds, invoked⟩ := findsServices_of_fresh addressed isFresh
  have accounts : ∀ operations, _ := fun operations => inbox_performAll finds invoked operations
  have noneWait : begun.world.inbox = [] := by rw [isFresh]
  rw [noneWait] at accounts
  refine ⟨accounts operations, fun before operation later _ => ?_⟩
  have waits := accounts before
  have stillInvoked := (areInvoked_performAll finds invoked before).1
  intro met
  have program_eq : met.program = begun.program := (begun.succeeds_performAll before).program_eq
  have isRoot : met.chart.root.initial.isSome = true := by
    rw [show met.chart = begun.chart from congrArg Program.chart program_eq]
    exact addressed.rootInitial
  rw [List.nil_append] at waits
  refine ⟨fun attempt member => ?_, met.attempts_process_handed operation,
    met.takesCourse operation, fun notNone => ?_, handedBy_eq_nil isRoot⟩
  · have reaches := (reaches_perform (program_eq ▸ finds) (program_eq ▸ stillInvoked)
      operation).1 attempt member
    rw [waits, List.append_assoc, reaches.inbox_eq, ← List.append_assoc, ← List.append_assoc]
  · rw [handedBy_eq_of_ne_nil isRoot notNone, waits, ← List.append_assoc]

/-- A motor that sends an event in answer to every call. -/
def hummingMotor : Service :=
  { respond := fun _ call =>
      { sends := [{ name := match call.request with
          | .start _ _ => "humming"
          | .forward _ => "heard"
          | .cancel => "silent" }] } }

/-- What is asked of a workshop whose motor hums: somebody has rung before it opens, and somebody
calls after everything has started again. -/
def noisyRequests : List Operation :=
  [.push { name := "ring" }, .start, .step, .cancelService "pressing", .reset,
    .fire { name := "call" }]

theorem isAccredited_workshop :
    workshopMachine.chart.IsAccredited ∧ create workshopMachine.chart {} = .ok bareWorkshop := by
  have comesAbout : ComesAbout workshop workshopMachine :=
    .prepared (prepare_eq_ok (by decide +kernel))
  refine ⟨.inl ⟨workshop, comesAbout.chartOf_eq⟩, ?_⟩
  rw [create, if_pos (by decide +kernel)]
  rfl

/-- The workshop when it has been opened, after somebody has rung. -/
def openedWorkshop : Machine :=
  (bareWorkshop.equip {} [("motor", hummingMotor)]).performAll [.push { name := "ring" }, .start]

/-- The ring is processed with the humming in one microstep, from which the step comes.  What the
motor sends before the reset is lost, and in the end it has heard of what it sent last and of the
call. -/
theorem workshop_accounts_for_its_inbox :
    workshopMachine.chart.IsAccredited ∧ create workshopMachine.chart {} = .ok bareWorkshop ∧
      let begun := bareWorkshop.equip {} [("motor", hummingMotor)]
      (begun.takenAlong noisyRequests).map Event.name =
        ["ring", "humming", "heard", "heard", "silent", "humming", "call"] ∧
      (begun.performAll noisyRequests).world.inbox.map Event.name = ["heard", "heard"] ∧
      (begun.putAlong noisyRequests).map Event.name =
        ["ring", "humming", "heard", "heard", "silent", "humming", "call", "heard", "heard"] ∧
      (openedWorkshop.handedBy .step).map Event.name = ["ring", "humming"] ∧
      ∃ attempt result, openedWorkshop.attemptsOf .step = [attempt] ∧
        attempt.events = openedWorkshop.handedBy .step ∧
        Attempt.Course openedWorkshop.program openedWorkshop.settings.maxMicrosteps
          (openedWorkshop.opened none) {} [attempt] result ∧
        openedWorkshop.perform .step =
          (openedWorkshop.conclude result).map (Except.map fun _ => ()) id := by
  obtain ⟨accredited, isCreated⟩ := isAccredited_workshop
  have taken : ((bareWorkshop.equip {} [("motor", hummingMotor)]).takenAlong
      noisyRequests).map Event.name =
      ["ring", "humming", "heard", "heard", "silent", "humming", "call"] := by
    decide +kernel
  have waiting : ((bareWorkshop.equip {} [("motor", hummingMotor)]).performAll
      noisyRequests).world.inbox.map Event.name = ["heard", "heard"] := by
    decide +kernel
  have handed : (openedWorkshop.handedBy .step).map Event.name = ["ring", "humming"] := by
    decide +kernel
  have sizes : (openedWorkshop.attemptsOf .step).map (List.length ∘ Attempt.events) = [2] := by
    decide +kernel
  have begins : openedWorkshop.macrostepBegun .step = some (openedWorkshop, none) :=
    if_pos (by decide +kernel)
  obtain ⟨accounted, processed⟩ := inbox_is_accounted_for accredited isCreated {}
    [("motor", hummingMotor)] noisyRequests
  obtain ⟨-, ⟨refusals, -, -, batches⟩, takesCourse, -⟩ :=
    processed [.push { name := "ring" }, .start] .step _ rfl
  obtain ⟨result, course, performed⟩ := takesCourse openedWorkshop none begins
  change (openedWorkshop.attemptsOf .step).map Attempt.events <+:
    (openedWorkshop.handedBy .step ++ refusals) ::
      (openedWorkshop.attemptsOf .step).map (Attempt.generated openedWorkshop.program) at batches
  obtain ⟨attempt, alone, size⟩ := List.map_eq_singleton_iff.1 sizes
  rw [alone, List.map_singleton] at batches
  obtain ⟨batch, -⟩ := List.cons_prefix_cons.1 batches
  -- The batch is not larger than what is handed over, so nothing has been refused.
  have noneRefused : refusals = [] := by
    have both : (openedWorkshop.handedBy .step).length = 2 := by
      rw [← List.length_map Event.name, handed]
      rfl
    have more : (openedWorkshop.handedBy .step).length + refusals.length = 2 := by
      rw [← List.length_append, ← batch]
      exact size
    exact List.eq_nil_of_length_eq_zero (by omega)
  rw [noneRefused, List.append_nil] at batch
  refine ⟨accredited, isCreated, taken, waiting, ?_, handed, attempt, result, alone, batch,
    alone ▸ course, performed⟩
  rw [accounted, List.map_append, taken, waiting]
  rfl

end Machine

end Statechart
