import Statechart.Chart.OfDefinition
import Statechart.Chart.Validation
import Statechart.Machine.Macrostep
import Statechart.Settings
import Statechart.Snapshot

/-!
# Machines

A machine runs a validated chart.  It is started once; then each step takes
the events that wait in the inbox through one macrostep.  Operations yield the
machine afterwards, also when they fail.
-/

namespace Statechart

/-- A running instance of a validated chart. -/
structure Machine where
  program : Program
  settings : InterpreterSettings := {}
  isStarted : Bool := false
  world : World
deriving Inhabited

namespace Machine

def chart (machine : Machine) : Chart :=
  machine.program.chart

def status (machine : Machine) : Status :=
  machine.world.status

/-! ## Creation -/

def create (chart : Chart) (model : DataModel) : Except Fault Machine :=
  if chart.isValidated then
    .ok { program := ⟨chart, []⟩, world := { model } }
  else
    .error (.invalid .notValidated)

def chartOf (definition : Definition) : Except Fault Chart :=
  match Chart.ofDefinition definition with
  | .error defect => .error (.invalid defect)
  | .ok chart =>
    match chart.validate with
    | .error rejection => .error (.invalid rejection.defect)
    | .ok chart => .ok chart

def load (definition : Definition) (model : DataModel) : Except Fault Machine := do
  create (← chartOf definition) model

def withSettings (machine : Machine) (settings : InterpreterSettings) : Machine :=
  { machine with settings }

def withService (machine : Machine) (type : String) (service : Service) : Machine :=
  { machine with program :=
    { machine.program with registry := machine.program.registry.register type service } }

/-! ## Running -/

def macrostep (machine : Machine) (initial : Option TransitionId) :
    Except Fault Macrostep × Machine :=
  match machine.world.macrostep machine.program machine.settings.maxMicrosteps initial with
  | .ok (done, world) => (.ok done, { machine with world })
  | .error failure => (.error failure.fault, { machine with world := failure.world })

/-- Enters the initial configuration.  A machine that is started already does
nothing, and events that wait are kept for the first step. -/
def start (machine : Machine) : Except Fault Macrostep × Machine :=
  if machine.isStarted then
    (.ok {}, machine)
  else
    match machine.macrostep machine.chart.root.initial with
    | (.ok done, machine) => (.ok done, { machine with isStarted := true })
    | (.error fault, machine) => (.error fault, machine)

def push (machine : Machine) (event : Event) : Machine :=
  { machine with world := machine.world.post event }

/-- Takes the events that wait through one macrostep.  A machine in a top-level
final state does nothing. -/
def step (machine : Machine) : Except Fault Macrostep × Machine :=
  if !machine.isStarted then
    (.error .notStarted, machine)
  else if machine.status.isFinal then
    (.ok {}, machine)
  else
    machine.macrostep none

/-- Puts an event into the inbox and takes a step. -/
def fire (machine : Machine) (event : Event) : Except Fault Macrostep × Machine :=
  (machine.push event).step

/-- Cancels all services, forgets the configuration, the history and the events
that wait, and starts again. -/
def reset (machine : Machine) : Except Fault Macrostep × Machine :=
  let world := machine.world.cancelAll machine.chart
  start { machine with
    world := { world with status := {}, inbox := [] }
    isStarted := false }

/-! ## Services -/

def hasService (machine : Machine) (id : String) : Bool :=
  match machine.chart.lookup id with
  | some node => machine.world.services.running.contains node
  | none => false

/-- Cancels the running service of a state, which gets no new one until it is
exited.  A failure to cancel becomes an event for the next macrostep.  Yields
whether a service was running. -/
def cancelService (machine : Machine) (id : String) : Bool × Machine :=
  match machine.chart.lookup id with
  | none => (false, machine)
  | some node =>
    if machine.world.services.running.contains node then
      let world := World.cancelService machine.chart { machine.world with generated := #[] } node
      let world := world.suppress node
      (true, { machine with world := world.generated.toList.foldl World.post world })
    else
      (false, machine)

/-! ## Queries -/

def configuration (machine : Machine) : List String :=
  machine.chart.idsOf (machine.chart.inDocumentOrder machine.status.leaves.toList)

def activeStates (machine : Machine) : List String :=
  machine.chart.idsOf
    (machine.chart.inDocumentOrder (machine.status.active machine.chart).toList)

def isActive (machine : Machine) (id : String) : Bool :=
  match machine.chart.lookup id with
  | some node => (machine.status.active machine.chart).contains node
  | none => false

/-- Whether the completion of a state has been signalled. -/
def isDone (machine : Machine) (id : String) : Bool :=
  match machine.chart.lookup id with
  | some node => machine.status.done.contains node
  | none => false

def history? (machine : Machine) (id : String) : Option (List String) := do
  let node ← machine.chart.lookup id
  let recorded ← machine.status.history.find? node
  return machine.chart.idsOf recorded

def pendingEvents (machine : Machine) : Nat :=
  machine.world.inbox.length

def inspect (machine : Machine) : String :=
  "Machine \x7b document: " ++ Text.quoted (machine.chart.idOf rootId) ++
    ", configuration: " ++ Text.quotedList machine.configuration ++
    s!", started: {machine.isStarted}, is_final: {machine.status.isFinal}" ++
    s!", invokers: {machine.world.services.running.size} \x7d"

/-- A machine whose observations so far are forgotten. -/
def forgetObservations (machine : Machine) : Machine :=
  { machine with world := { machine.world with observations := #[] } }

end Machine

end Statechart
