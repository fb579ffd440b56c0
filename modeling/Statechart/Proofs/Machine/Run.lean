import Statechart.Machine.Restoring
import Statechart.Proofs.Chart.Executable
import Statechart.Proofs.Machine.Course

/-!
# Runs of machines

A run performs operations on a prepared machine one after the other.  Some may
fail; the machine goes on from where they leave it.  The chart, the services and
the settings stay the same throughout.
-/

namespace Statechart

namespace Machine

/-- A machine for a definition, with settings and services. -/
def prepare (definition : Definition) (model : DataModel) (settings : InterpreterSettings)
    (services : List (String × Service)) : Except Fault Machine := do
  let machine ← load definition model
  return services.foldl (fun machine entry => machine.withService entry.1 entry.2)
    (machine.withSettings settings)

/-- The machine prepared for a definition, or an empty one if the definition is
rejected. -/
def preparedOrEmpty (definition : Definition) (model : DataModel)
    (settings : InterpreterSettings) (services : List (String × Service)) : Machine :=
  match prepare definition model settings services with
  | .ok machine => machine
  | .error _ => { program := ⟨.empty none, []⟩, world := {} }

theorem prepare_eq_ok {definition : Definition} {model : DataModel}
    {settings : InterpreterSettings} {services : List (String × Service)}
    (accepted : (prepare definition model settings services).isOk = true) :
    prepare definition model settings services =
      .ok (preparedOrEmpty definition model settings services) := by
  rw [preparedOrEmpty]
  cases result : prepare definition model settings services with
  | error fault => simp [result, Except.isOk, Except.toBool] at accepted
  | ok machine => rfl

/-- What a host may ask of a machine.  Hosts and senders push events alike. -/
inductive Operation where
  | start
  | step
  | fire (event : Event)
  | push (event : Event)
  | cancelService (id : String)
  | reset
  | restore (snapshot : Snapshot)

/-- Performs an operation.  Yields whether it failed, and the machine afterwards. -/
def perform (machine : Machine) : Operation → Except Fault Unit × Machine
  | .start => machine.start.map (Except.map fun _ => ()) id
  | .step => machine.step.map (Except.map fun _ => ()) id
  | .fire event => (machine.fire event).map (Except.map fun _ => ()) id
  | .push event => (.ok (), machine.push event)
  | .cancelService id => (.ok (), (machine.cancelService id).2)
  | .reset => machine.reset.map (Except.map fun _ => ()) id
  | .restore snapshot => machine.restore snapshot

theorem exists_ok_of_map {Result : Type} {outcome : Except Fault Result × Machine}
    {after : Machine} (done : outcome.map (Except.map fun _ => ()) id = (.ok (), after)) :
    ∃ result, outcome = (.ok result, after) := by
  obtain ⟨failure | result, reached⟩ := outcome
  · cases (Prod.mk.inj done).1
  · obtain ⟨-, rfl⟩ := Prod.mk.inj done
    exact ⟨result, rfl⟩

theorem eq_error_of_map {Result : Type} {outcome : Except Fault Result × Machine} {fault : Fault}
    {after : Machine}
    (failed : outcome.map (Except.map fun _ => ()) id = (.error fault, after)) :
    outcome = (.error fault, after) := by
  obtain ⟨failure | result, reached⟩ := outcome
  · obtain ⟨same, rfl⟩ := Prod.mk.inj failed
    obtain rfl := Except.error.inj same
    rfl
  · cases (Prod.mk.inj failed).1

/-- Performs operations one after the other, whether or not they fail. -/
def performAll (machine : Machine) (operations : List Operation) : Machine :=
  operations.foldl (fun machine operation => (machine.perform operation).2) machine

/-- Performs operations one after the other, up to the first that fails. -/
def performUntilFault (machine : Machine) : List Operation → Except Fault Machine
  | [] => .ok machine
  | operation :: rest =>
    match machine.perform operation with
    | (.ok (), machine) => machine.performUntilFault rest
    | (.error fault, _) => .error fault

/-! ## Preparation -/

/-- A machine that has not been asked anything yet. -/
structure IsPrepared (machine : Machine) (chart : Chart) (settings : InterpreterSettings) :
    Prop where
  chart_eq : machine.chart = chart
  settings_eq : machine.settings = settings
  notStarted : machine.isStarted = false
  status_eq : machine.status = {}
  observations_eq : machine.world.observations = #[]

theorem IsPrepared.withServices {machine : Machine} {chart : Chart}
    {settings : InterpreterSettings} (prepared : machine.IsPrepared chart settings)
    (services : List (String × Service)) :
    (services.foldl (fun machine entry => machine.withService entry.1 entry.2)
      machine).IsPrepared chart settings := by
  induction services generalizing machine with
  | nil => exact prepared
  | cons entry rest ih =>
      have next : (machine.withService entry.1 entry.2).IsPrepared chart settings :=
        ⟨prepared.chart_eq, prepared.settings_eq, prepared.notStarted, prepared.status_eq,
          prepared.observations_eq⟩
      exact ih next

/-- A prepared machine runs the chart of its definition and stands nowhere. -/
theorem exists_isPrepared {definition : Definition} {model : DataModel}
    {settings : InterpreterSettings} {services : List (String × Service)} {machine : Machine}
    (done : prepare definition model settings services = .ok machine) :
    ∃ chart, chartOf definition = .ok chart ∧ machine.IsPrepared chart settings := by
  obtain ⟨loaded, isLoaded, prepared⟩ := exists_of_bind_eq_ok done
  obtain ⟨chart, isChart, created⟩ := exists_of_bind_eq_ok isLoaded
  refine ⟨chart, isChart, ?_⟩
  unfold create at created
  split at created
  · cases created
    cases prepared
    exact .withServices ⟨rfl, rfl, rfl, rfl, rfl⟩ services
  · cases created

theorem world_of_prepare {definition : Definition} {model : DataModel}
    {settings : InterpreterSettings} {services : List (String × Service)} {machine : Machine}
    (prepared : prepare definition model settings services = .ok machine) :
    machine.world = { model } := by
  obtain ⟨loaded, isLoaded, prepared⟩ := exists_of_bind_eq_ok prepared
  obtain ⟨chart, -, created⟩ := exists_of_bind_eq_ok isLoaded
  unfold create at created
  split at created
  · cases created
    cases prepared
    exact List.foldlRecOn (motive := fun machine : Machine => machine.world = { model }) services
      _ rfl fun _ same _ _ => same
  · cases created

end Machine

namespace World

/-! ## Macrosteps -/

/-- The events and the world with which the microsteps of a macrostep begin. -/
def opening (world : World) (program : Program) (initial : Option TransitionId) :
    List Event × World :=
  if initial.isSome then world.forwardBatch program []
  else { world with inbox := [] }.forwardBatch program world.inbox

/-- The events that a macrostep takes from the inbox. -/
def drained (world : World) (initial : Option TransitionId) : List Event :=
  if initial.isSome then [] else world.inbox

theorem quiet_opening (world : World) (program : Program) (initial : Option TransitionId) :
    Quiet world (world.opening program initial).2 := by
  have forwards : ∀ (world : World) (batch : List Event),
      Quiet world (world.forwardBatch program batch).2 := by
    intro world batch
    have cleared : Quiet world { world with generated := #[] } := ⟨rfl, rfl⟩
    exact cleared.trans (Attended.forwardAll _ program.chart batch).toQuiet
  unfold opening
  split
  · exact forwards world []
  · have emptied : Quiet world { world with inbox := [] } := ⟨rfl, rfl⟩
    exact emptied.trans (forwards _ world.inbox)

theorem macrostep_eq (world : World) (program : Program) (limit : Nat)
    (initial : Option TransitionId) :
    world.macrostep program limit initial =
      match microsteps program limit (world.opening program initial).2 initial
        (world.opening program initial).1 {} with
      | .ok result => .ok result
      | .error failure =>
        .error { failure with world := failure.world.rollBack program world.status } := by
  unfold macrostep opening
  cases initial <;> rfl

/-- A macrostep keeps what its microsteps keep. -/
theorem of_macrostep {Invariant : World → Prop} {program : Program}
    (quiet : ∀ before after, Quiet before after → Invariant before → Invariant after)
    (step : ∀ before after events transitions, Invariant before →
      before.microstep program none events = .ok (transitions, after) → Invariant after)
    {limit : Nat} {world after : World} {initial : Option TransitionId} {report : Macrostep}
    (first : ∀ before next events transitions, Quiet world before →
      before.microstep program initial events = .ok (transitions, next) → Invariant next)
    (idle : world.status.isFinal = true ∨ limit = 0 → Invariant world)
    (ran : world.macrostep program limit initial = .ok (report, after)) : Invariant after := by
  have opens := quiet_opening world program initial
  rw [macrostep_eq] at ran
  split at ran
  · next result finished =>
      cases ran
      refine (Attempt.course_of_microsteps_eq finished).keeps
        (fun before after told => quiet before after told.toQuiet) step
        (fun transitions next => first _ next _ transitions opens)
        (fun ended => quiet _ _ opens (idle ?_))
      rwa [opens.status_eq] at ended
  · cases ran

/-- A macrostep that is given up leaves the machine where it stood. -/
theorem status_of_macrostep_error {world : World} {program : Program} {limit : Nat}
    {initial : Option TransitionId} {failure : Failure}
    (failed : world.macrostep program limit initial = .error failure) :
    failure.world.status = world.status := by
  rw [macrostep_eq] at failed
  split at failed
  · cases failed
  · cases failed
    exact (Hushed.cancelInactive _ program.chart _).status_eq

end World

namespace Machine

/-- Cancelling a service neither moves the machine nor tells of entries and exits. -/
theorem quiet_cancelService (machine : Machine) (id : String) :
    ∃ world, World.Quiet machine.world world ∧
      (machine.cancelService id).2 = { machine with world } := by
  unfold cancelService
  split
  · exact ⟨machine.world, .refl _, rfl⟩
  · next node _ =>
      split
      · let cleared : World := { machine.world with generated := #[] }
        have clears : World.Quiet machine.world cleared := ⟨rfl, rfl⟩
        have cancelled := clears.trans
          (World.Hushed.cancelService machine.chart cleared node).toQuiet
        have suppressed : World.Quiet (World.cancelService machine.chart cleared node)
          ((World.cancelService machine.chart cleared node).suppress node) := ⟨rfl, rfl⟩
        exact ⟨_, (cancelled.trans suppressed).trans
          (World.Solitary.foldl World.Solitary.post _ _).toQuiet, rfl⟩
      · exact ⟨machine.world, .refl _, rfl⟩

/-! ## What starts and steps do -/

/-- A macrostep succeeds, or is given up and leaves the machine where it stands. -/
theorem macrostep_cases (machine : Machine) (initial : Option TransitionId) :
    (∃ report world,
        machine.world.macrostep machine.program machine.settings.maxMicrosteps initial =
          .ok (report, world) ∧
        machine.macrostep initial = (.ok report, { machine with world })) ∨
      ∃ fault world, world.status = machine.status ∧
        machine.macrostep initial = (.error fault, { machine with world }) := by
  unfold macrostep
  cases result : machine.world.macrostep machine.program machine.settings.maxMicrosteps initial with
  | ok done => exact .inl ⟨done.1, done.2, rfl, rfl⟩
  | error failure =>
      exact .inr ⟨failure.fault, failure.world, World.status_of_macrostep_error result, rfl⟩

/-- Starting does nothing if the machine is started, and otherwise takes the initial
transition in a macrostep. -/
theorem start_cases (machine : Machine) :
    (machine.isStarted = true ∧ machine.start = (.ok {}, machine)) ∨
      machine.isStarted = false ∧
        ((∃ report world,
            machine.world.macrostep machine.program machine.settings.maxMicrosteps
              machine.chart.root.initial = .ok (report, world) ∧
            machine.start = (.ok report, { machine with world, isStarted := true })) ∨
          ∃ fault world, world.status = machine.status ∧
            machine.start = (.error fault, { machine with world })) := by
  unfold start
  cases started : machine.isStarted with
  | true => exact .inl ⟨rfl, rfl⟩
  | false =>
      refine .inr ⟨rfl, ?_⟩
      rw [if_neg Bool.false_ne_true]
      rcases macrostep_cases machine machine.chart.root.initial with
        ⟨report, world, ran, result⟩ | ⟨fault, world, status, result⟩
      · rw [result]
        exact .inl ⟨report, world, ran, rfl⟩
      · rw [result, ← started]
        exact .inr ⟨fault, world, status, rfl⟩

/-- A step of a started machine that is not final takes the events that wait in a
macrostep; any other step does nothing. -/
theorem step_cases (machine : Machine) :
    (∃ outcome, machine.step = (outcome, machine)) ∨
      machine.isStarted = true ∧
        ((∃ report world,
            machine.world.macrostep machine.program machine.settings.maxMicrosteps none =
              .ok (report, world) ∧
            machine.step = (.ok report, { machine with world })) ∨
          ∃ fault world, world.status = machine.status ∧
            machine.step = (.error fault, { machine with world })) := by
  unfold step
  cases started : machine.isStarted with
  | false => exact .inl ⟨_, rfl⟩
  | true =>
      rw [Bool.not_true, if_neg Bool.false_ne_true]
      split
      · exact .inl ⟨_, rfl⟩
      · refine .inr ⟨rfl, ?_⟩
        rw [← started]
        exact macrostep_cases machine none

/-- Restoring puts the machine where a snapshot says, if the chart finds a legal status in
it, and otherwise fails and leaves the machine where it stands. -/
theorem restore_cases (machine : Machine) (snapshot : Snapshot) :
    (∃ status, machine.chart.statusOf snapshot = .ok status ∧
        machine.chart.violations status.leaves = [] ∧
        machine.restore snapshot = (.ok (), { machine with
          world := { machine.world.cancelAll machine.chart with status }
          isStarted := true })) ∨
      ∃ fault world, World.Quiet machine.world world ∧
        machine.restore snapshot = (.error fault, { machine with world }) := by
  unfold restore
  dsimp only
  split
  · exact .inr ⟨_, machine.world, .refl _, rfl⟩
  · next status found =>
      split
      · next noViolations => exact .inl ⟨status, found, noViolations, rfl⟩
      · exact .inr ⟨_, _, (World.Solitary.reportViolations _ _ _).toQuiet, rfl⟩

/-- A snapshot is accepted if the chart finds a status in it that is legal. -/
theorem restore_eq_ok_iff {machine after : Machine} {snapshot : Snapshot} :
    machine.restore snapshot = (.ok (), after) ↔
      ∃ status, machine.chart.statusOf snapshot = .ok status ∧
        machine.chart.violations status.leaves = [] ∧
        after = { machine with
          world := { machine.world.cancelAll machine.chart with status }
          isStarted := true } := by
  constructor
  · intro restored
    rcases machine.restore_cases snapshot with ⟨status, found, noViolations, result⟩ |
      ⟨_, world, -, result⟩
    · exact ⟨status, found, noViolations, (Prod.mk.inj (restored.symm.trans result)).2⟩
    · cases (Prod.mk.inj (restored.symm.trans result)).1
  · rintro ⟨status, found, noViolations, rfl⟩
    unfold restore
    dsimp only
    rw [found]
    dsimp only
    rw [noViolations]

end Machine

end Statechart
