import Statechart.Proofs.Machine.Run

/-!
# The microsteps that an operation begins

An operation that begins a macrostep begins microsteps, and what comes of their course is the
outcome of the operation.  So what each microstep does, and what goes on around them, leads the
machine to where the operation leaves it.
-/

namespace Statechart

namespace Machine

/-! ## Macrosteps of operations -/

/-- A machine that has forgotten where it stands, as a reset leaves it before it starts
it again. -/
def emptied (machine : Machine) : Machine :=
  { machine with
    world := { machine.world.cancelAll machine.chart with status := {}, inbox := [] }
    isStarted := false }

/-- The machine that begins a macrostep when it is asked to take a step, unless it is not started
or in a top-level final state. -/
def stepBegun (machine : Machine) : Option (Machine × Option TransitionId) :=
  if machine.isStarted && !machine.status.isFinal then some (machine, none) else none

def startBegun (machine : Machine) : Option (Machine × Option TransitionId) :=
  if machine.isStarted then none else some (machine, machine.chart.root.initial)

/-- The macrostep that an operation begins, if any: the machine by then, and the initial
transition that the macrostep takes. -/
def macrostepBegun (machine : Machine) : Operation → Option (Machine × Option TransitionId)
  | .start => machine.startBegun
  | .step => machine.stepBegun
  | .fire event => (machine.push event).stepBegun
  | .reset => machine.emptied.startBegun
  | .push _ | .cancelService _ | .restore _ => none

/-- The events that are handed to the macrostep that an operation begins. -/
def handedBy (machine : Machine) (operation : Operation) : List Event :=
  match machine.macrostepBegun operation with
  | some (begun, initial) => begun.world.drained initial
  | none => []

/-- The first microstep that a macrostep may begin. -/
def opened (machine : Machine) (initial : Option TransitionId) : Attempt where
  world := (machine.world.opening machine.program initial).2
  initial
  events := (machine.world.opening machine.program initial).1

def attemptsOfMacrostep (machine : Machine) (initial : Option TransitionId) : List Attempt :=
  (machine.opened initial).series machine.program machine.settings.maxMicrosteps {}

/-- The microsteps that an operation begins. -/
def attemptsOf (machine : Machine) (operation : Operation) : List Attempt :=
  match machine.macrostepBegun operation with
  | some (begun, initial) => begun.attemptsOfMacrostep initial
  | none => []

/-- The macrostep that a host asks for when it starts a machine, for the first time or anew, lets
it take a step or tells it of an event. -/
def macrostepOf (machine : Machine) : Operation → Option (Except Fault Macrostep × Machine)
  | .start => some machine.start
  | .step => some machine.step
  | .fire event => some (machine.fire event)
  | .reset => some machine.reset
  | .push _ | .cancelService _ | .restore _ => none

/-- What comes of a macrostep that a machine has begun, by what comes of its microsteps: if one
has been given up, the machine stands where it stood. -/
def conclude (machine : Machine) :
    Except Failure (Macrostep × World) → Except Fault Macrostep × Machine
  | .ok (report, world) => (.ok report, { machine with world, isStarted := true })
  | .error failure =>
    (.error failure.fault,
      { machine with world := failure.world.rollBack machine.program machine.status })

/-- The microsteps of a macrostep that an operation begins take their course, and the operation
yields what comes of them. -/
def TakesCourse (machine : Machine) (operation : Operation) : Prop :=
  ∀ begun initial, machine.macrostepBegun operation = some (begun, initial) →
    ∃ result, Attempt.Course machine.program machine.settings.maxMicrosteps (begun.opened initial)
        {} (machine.attemptsOf operation) result ∧
      machine.perform operation = (begun.conclude result).map (Except.map fun _ => ()) id

/-- Where a machine stands when it does what it is asked: nowhere if it is reset. -/
def statusFor (machine : Machine) : Operation → Status
  | .reset => {}
  | .start | .step | .fire _ | .push _ | .cancelService _ | .restore _ => machine.status

/-- Unless it is started, a machine stands nowhere. -/
def IsSettled (machine : Machine) : Prop :=
  machine.isStarted = false → machine.status = {}

/-- The machine that begins the macrostep of an operation is the one that is asked, but for the
event that is pushed and what a reset forgets. -/
structure Begins (machine : Machine) (operation : Operation) (begun : Machine)
    (initial : Option TransitionId) : Prop where
  program_eq : begun.program = machine.program
  settings_eq : begun.settings = machine.settings
  status_eq : begun.status = machine.statusFor operation
  initial_eq :
    (initial = none ∧ machine.isStarted = true ∧ begun.status = machine.status) ∨
      initial = machine.chart.root.initial
  nowhere : machine.IsSettled → initial.isSome = true → begun.status = {}
  services_or_inbox :
    begun.world.services = machine.world.services ∨ begun.world.inbox = []

section Begun

variable {machine begun : Machine} {operation : Operation} {initial : Option TransitionId}

theorem eq_of_stepBegun (isBegun : machine.stepBegun = some (begun, initial)) :
    machine.isStarted = true ∧ machine.status.isFinal = false ∧ begun = machine ∧
      initial = none := by
  unfold stepBegun at isBegun
  split at isBegun
  · next both =>
      cases isBegun
      obtain ⟨started, notFinal⟩ := Bool.and_eq_true_iff.1 both
      exact ⟨started, by simpa using notFinal, rfl, rfl⟩
  · cases isBegun

theorem eq_of_startBegun (isBegun : machine.startBegun = some (begun, initial)) :
    machine.isStarted = false ∧ begun = machine ∧ initial = machine.chart.root.initial := by
  unfold startBegun at isBegun
  split at isBegun
  · cases isBegun
  · next notStarted =>
      cases isBegun
      exact ⟨Bool.eq_false_iff.2 notStarted, rfl, rfl⟩

/-- The microsteps of a macrostep. -/
def microsteps (machine : Machine) (initial : Option TransitionId) :
    Except Failure (Macrostep × World) :=
  World.microsteps machine.program machine.settings.maxMicrosteps
    (machine.opened initial).world initial (machine.opened initial).events {}

theorem macrostep_eq (machine : Machine) (initial : Option TransitionId) :
    machine.macrostep initial =
      match machine.microsteps initial with
      | .ok (report, world) => (.ok report, { machine with world })
      | .error failure => machine.conclude (.error failure) := by
  have ran : World.microsteps machine.program machine.settings.maxMicrosteps
      (machine.world.opening machine.program initial).2 initial
      (machine.world.opening machine.program initial).1 {} = machine.microsteps initial := rfl
  rw [macrostep, World.macrostep_eq, ran]
  cases machine.microsteps initial <;> rfl

theorem start_of_begun (isBegun : machine.startBegun = some (begun, initial)) :
    machine.start = begun.conclude (begun.microsteps initial) := by
  obtain ⟨notStarted, rfl, rfl⟩ := eq_of_startBegun isBegun
  rw [start, notStarted, if_neg Bool.false_ne_true, macrostep_eq]
  cases begun.microsteps begun.chart.root.initial <;> rfl

theorem step_of_begun (isBegun : machine.stepBegun = some (begun, initial)) :
    machine.step = begun.conclude (begun.microsteps initial) := by
  obtain ⟨started, notFinal, rfl, rfl⟩ := eq_of_stepBegun isBegun
  rw [step, started, notFinal, Bool.not_true, if_neg Bool.false_ne_true,
    if_neg Bool.false_ne_true, macrostep_eq]
  cases begun.microsteps none with
  | ok result => rw [conclude, ← started]
  | error failure => rfl

theorem attemptsOf_of_begun (isBegun : machine.macrostepBegun operation = some (begun, initial)) :
    machine.attemptsOf operation = begun.attemptsOfMacrostep initial := by
  rw [attemptsOf, isBegun]

/-- The microsteps that an operation begins are those of the macrostep that it begins, and what
comes of them is what comes of the operation. -/
theorem course_of_begun (isBegun : machine.macrostepBegun operation = some (begun, initial)) :
    Attempt.Course begun.program begun.settings.maxMicrosteps (begun.opened initial) {}
        (machine.attemptsOf operation) (begun.microsteps initial) ∧
      machine.macrostepOf operation = some (begun.conclude (begun.microsteps initial)) := by
  refine ⟨?_, ?_⟩
  · rw [attemptsOf_of_begun isBegun]
    exact Attempt.course_microsteps begun.program _ (begun.opened initial) {}
  · cases operation with
    | start => exact congrArg some (start_of_begun isBegun)
    | step => exact congrArg some (step_of_begun isBegun)
    | fire event =>
        have steps : machine.fire event = _ := step_of_begun isBegun
        exact congrArg some steps
    | reset =>
        have starts : machine.reset = _ := start_of_begun isBegun
        exact congrArg some starts
    | push | cancelService | restore => cases isBegun

theorem begins_of_begun (isBegun : machine.macrostepBegun operation = some (begun, initial)) :
    machine.Begins operation begun initial := by
  have started : ∀ other : Machine, other.startBegun = some (begun, initial) →
      begun = other ∧ initial = other.chart.root.initial ∧
        (other.IsSettled → begun.status = {}) := by
    intro other isBegun
    obtain ⟨notStarted, rfl, isInitial⟩ := eq_of_startBegun isBegun
    exact ⟨rfl, isInitial, fun settled => settled notStarted⟩
  have stepped : ∀ other : Machine, other.stepBegun = some (begun, initial) →
      begun = other ∧ initial = none ∧ other.isStarted = true := by
    intro other isBegun
    obtain ⟨started, -, rfl, isNone⟩ := eq_of_stepBegun isBegun
    exact ⟨rfl, isNone, started⟩
  cases operation with
  | start =>
      obtain ⟨rfl, isInitial, nowhere⟩ := started machine isBegun
      exact ⟨rfl, rfl, rfl, .inr isInitial, fun settled _ => nowhere settled, .inl rfl⟩
  | step =>
      obtain ⟨rfl, rfl, isStarted⟩ := stepped machine isBegun
      exact ⟨rfl, rfl, rfl, .inl ⟨rfl, isStarted, rfl⟩, fun _ isSome => (by cases isSome), .inl rfl⟩
  | fire event =>
      obtain ⟨rfl, rfl, isStarted⟩ := stepped (machine.push event) isBegun
      exact ⟨rfl, rfl, rfl, .inl ⟨rfl, isStarted, rfl⟩, fun _ isSome => (by cases isSome), .inl rfl⟩
  | reset =>
      obtain ⟨rfl, isInitial, -⟩ := started machine.emptied isBegun
      exact ⟨rfl, rfl, rfl, .inr isInitial, fun _ _ => rfl, .inr rfl⟩
  | push | cancelService | restore => cases isBegun

theorem attemptsOf_of_idle (isIdle : machine.macrostepBegun operation = none) :
    machine.attemptsOf operation = [] := by
  rw [attemptsOf, isIdle]

theorem start_of_idle (isIdle : machine.startBegun = none) : machine.start = (.ok {}, machine) := by
  unfold startBegun at isIdle
  split at isIdle
  · next started => rw [start, if_pos started]
  · cases isIdle

theorem step_of_idle (isIdle : machine.stepBegun = none) :
    machine.step = (.error .notStarted, machine) ∨ machine.step = (.ok {}, machine) := by
  unfold stepBegun at isIdle
  unfold step
  cases started : machine.isStarted with
  | false => exact .inl rfl
  | true =>
      cases final : machine.status.isFinal with
      | true => exact .inr rfl
      | false =>
          rw [started, final] at isIdle
          cases isIdle

/-- Where no macrostep begins the machine stays where it stands, unless a snapshot is restored. -/
theorem status_perform_of_idle (isIdle : machine.macrostepBegun operation = none)
    (notRestore : ∀ snapshot, operation ≠ .restore snapshot) :
    (machine.perform operation).2.status = machine.statusFor operation := by
  have stepped : ∀ other : Machine, other.stepBegun = none → other.step.2 = other := by
    intro other isIdle
    rcases step_of_idle isIdle with result | result <;> rw [result]
  cases operation with
  | start =>
      have result := start_of_idle isIdle
      rw [perform, result]
      rfl
  | step => exact congrArg status (stepped machine isIdle)
  | fire event =>
      have pushed : (machine.push event).step.2.status = (machine.push event).status :=
        congrArg status (stepped _ isIdle)
      exact pushed
  | push event => rfl
  | cancelService id =>
      obtain ⟨world, quiet, cancelled⟩ := quiet_cancelService machine id
      rw [perform, cancelled]
      exact quiet.status_eq
  | reset => cases isIdle
  | restore snapshot => exact absurd rfl (notRestore snapshot)

theorem report_of_idle {report : Macrostep} {after : Machine}
    (isIdle : machine.macrostepBegun operation = none)
    (done : machine.macrostepOf operation = some (.ok report, after)) : report = {} := by
  have stepped : ∀ other : Machine, other.stepBegun = none → other.step = (.ok report, after) →
      report = {} := by
    intro other isIdle done
    rcases step_of_idle isIdle with result | result <;> cases result.symm.trans done
    rfl
  cases operation with
  | start =>
      cases (start_of_idle isIdle).symm.trans (Option.some.inj done)
      rfl
  | step => exact stepped machine isIdle (Option.some.inj done)
  | fire event => exact stepped (machine.push event) isIdle (Option.some.inj done)
  | reset => cases isIdle
  | push | cancelService | restore => cases done

theorem perform_of_macrostepOf {outcome : Except Fault Macrostep × Machine}
    (isOutcome : machine.macrostepOf operation = some outcome) :
    machine.perform operation = outcome.map (Except.map fun _ => ()) id := by
  cases operation with
  | start | step | fire | reset =>
      cases isOutcome
      rfl
  | push | cancelService | restore => cases isOutcome

/-- The outcome of an operation is what its microsteps come to. -/
theorem takesCourse (machine : Machine) (operation : Operation) :
    machine.TakesCourse operation := by
  intro begun initial isBegun
  have begins := begins_of_begun isBegun
  obtain ⟨course, outcome⟩ := course_of_begun isBegun
  rw [begins.program_eq, begins.settings_eq] at course
  exact ⟨begun.microsteps initial, course, perform_of_macrostepOf outcome⟩

end Begun

/-! ## What operations keep -/

section Keeping

variable {machine : Machine}

theorem IsPrepared.isSettled {chart : Chart} {settings : InterpreterSettings}
    (prepared : machine.IsPrepared chart settings) : machine.IsSettled :=
  fun _ => prepared.status_eq

theorem isSettled_emptied : machine.emptied.IsSettled :=
  fun _ => rfl

/-- A machine runs the same program with the same settings as another one, and stands
nowhere unless it is started. -/
structure Succeeds (before after : Machine) : Prop where
  program_eq : after.program = before.program
  settings_eq : after.settings = before.settings
  settled : before.IsSettled → after.IsSettled

theorem Succeeds.refl (machine : Machine) : Succeeds machine machine :=
  ⟨rfl, rfl, id⟩

theorem Succeeds.trans {first second third : Machine} (left : Succeeds first second)
    (right : Succeeds second third) : Succeeds first third :=
  ⟨right.program_eq.trans left.program_eq, right.settings_eq.trans left.settings_eq,
    fun settled => right.settled (left.settled settled)⟩

theorem Succeeds.withWorld {world : World} (status : world.status = machine.status) :
    Succeeds machine { machine with world } :=
  ⟨rfl, rfl, fun settled notStarted => status.trans (settled notStarted)⟩

theorem succeeds_start (machine : Machine) : Succeeds machine machine.start.2 := by
  rcases machine.start_cases with ⟨-, result⟩ | ⟨-, ⟨_, world, -, result⟩ |
    ⟨_, world, status, result⟩⟩
  all_goals rw [result]
  · exact .refl machine
  · exact ⟨rfl, rfl, fun _ notStarted => by cases notStarted⟩
  · exact .withWorld status

theorem succeeds_step (machine : Machine) : Succeeds machine machine.step.2 := by
  rcases machine.step_cases with ⟨_, result⟩ | ⟨started, ⟨_, world, -, result⟩ |
    ⟨_, world, status, result⟩⟩
  all_goals rw [result]
  · exact .refl machine
  · exact ⟨rfl, rfl, fun _ notStarted => by cases started.symm.trans notStarted⟩
  · exact .withWorld status

theorem succeeds_restore (machine : Machine) (snapshot : Snapshot) :
    Succeeds machine (machine.restore snapshot).2 := by
  rcases machine.restore_cases snapshot with ⟨_, -, -, result⟩ | ⟨_, world, quiet, result⟩
  · rw [result]
    exact ⟨rfl, rfl, fun _ notStarted => by cases notStarted⟩
  · rw [result]
    exact .withWorld quiet.status_eq

/-- Every operation leaves the program and the settings of a machine alone. -/
theorem succeeds_perform (machine : Machine) (operation : Operation) :
    Succeeds machine (machine.perform operation).2 := by
  cases operation with
  | start => exact succeeds_start machine
  | step => exact succeeds_step machine
  | fire event =>
      have pushed : Succeeds machine (machine.push event) := .withWorld rfl
      exact pushed.trans (succeeds_step _)
  | push event => exact .withWorld rfl
  | cancelService id =>
      obtain ⟨world, quiet, cancelled⟩ := quiet_cancelService machine id
      rw [perform, cancelled]
      exact .withWorld quiet.status_eq
  | reset =>
      have emptied : Succeeds machine machine.emptied := ⟨rfl, rfl, fun _ => isSettled_emptied⟩
      exact emptied.trans (succeeds_start _)
  | restore snapshot => exact succeeds_restore machine snapshot

theorem succeeds_performAll (machine : Machine) (operations : List Operation) :
    Succeeds machine (machine.performAll operations) := by
  induction operations generalizing machine with
  | nil => exact .refl machine
  | cons operation rest ih => exact (succeeds_perform machine operation).trans (ih _)

end Keeping

/-! ## Where microsteps lead -/

/-- How a machine is led from one world to another when it takes microsteps, and by all that
goes on around them. -/
structure Leads (machine : Machine) (attempts : List Attempt) (Related : World → World → Prop) :
    Prop where
  solitary : ∀ before after, World.Solitary before after → Related before after
  trans : ∀ first second third, Related first second → Related second third →
    Related first third
  opening : ∀ initial, Related machine.world (machine.world.opening machine.program initial).2
  attempt : ∀ attempt ∈ attempts,
    Related attempt.world (World.worldAfter (attempt.outcome machine.program))
  rollBack : ∀ world, Related world (World.rollBack world machine.program machine.status)

namespace Leads

variable {machine : Machine} {Related : World → World → Prop}

theorem conclude {limit : Nat} {initial : Option TransitionId} {attempts : List Attempt}
    {result : Except Failure (Macrostep × World)} (leads : machine.Leads attempts Related)
    (course : Attempt.Course machine.program limit (machine.opened initial) {} attempts result) :
    Related machine.world (machine.conclude result).2.world := by
  have runs := leads.trans _ _ _ (leads.opening initial)
    (course.related Related (fun world => leads.solitary _ _ (.refl world))
      (fun world _ silent => leads.solitary _ _ (.observe world silent)) leads.trans
      leads.attempt).2
  cases result with
  | ok result => exact runs
  | error failure => exact leads.trans _ _ _ runs (leads.rollBack failure.world)

theorem start (leads : machine.Leads (machine.attemptsOf .start) Related) :
    Related machine.world machine.start.2.world := by
  cases isBegun : machine.startBegun with
  | none =>
      rw [start_of_idle isBegun]
      exact leads.solitary _ _ (.refl _)
  | some macrostep =>
      obtain ⟨-, same, -⟩ := eq_of_startBegun isBegun
      have begins : machine.macrostepBegun .start = some macrostep := isBegun
      rw [start_of_begun isBegun, same]
      exact leads.conclude (same ▸ (course_of_begun begins).1)

theorem step (leads : machine.Leads (machine.attemptsOf .step) Related) :
    Related machine.world machine.step.2.world := by
  cases isBegun : machine.stepBegun with
  | none =>
      rcases step_of_idle isBegun with result | result
      all_goals
        rw [result]
        exact leads.solitary _ _ (.refl _)
  | some macrostep =>
      obtain ⟨-, -, same, -⟩ := eq_of_stepBegun isBegun
      have begins : machine.macrostepBegun .step = some macrostep := isBegun
      rw [step_of_begun isBegun, same]
      exact leads.conclude (same ▸ (course_of_begun begins).1)

end Leads

end Machine

end Statechart
