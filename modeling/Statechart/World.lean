import Statechart.Configuration
import Statechart.DataModel
import Statechart.Report
import Statechart.Scope
import Statechart.Service

/-!
# The world of a running machine

The world is all that changes while a machine runs: the data model, the
configuration with its history, the running services, the events that wait,
and what observers have been told.
-/

namespace Statechart

/-- Where a machine stands. -/
structure Status where
  /-- The active atomic states. -/
  leaves : NodeSet := ∅
  /-- What the histories have recorded. -/
  history : NodeMap (List NodeId) := ∅
  /-- The states whose completion has been signalled. -/
  done : NodeSet := ∅
  /-- Whether a top-level final state has been entered. -/
  isFinal : Bool := false
deriving Inhabited

def Status.active (status : Status) (chart : Chart) : NodeSet :=
  chart.active status.leaves

/-- A running instance of a service. -/
structure RunningService where
  number : Nat
  service : Service

/-- The services of a machine. -/
structure Services where
  /-- The running instances by the states that invoke them. -/
  running : NodeMap RunningService := ∅
  /-- The states that get no new service until they are exited: theirs failed to
  start or was cancelled on request. -/
  suppressed : NodeSet := ∅
  /-- How many instances have been created. -/
  created : Nat := 0
  /-- All calls made so far, the first one first. -/
  calls : Array Service.Call := #[]
deriving Inhabited

/-- What observers are told. -/
inductive Observation where
  | entered (state : String)
  | exited (state : String)
  /-- A transition was taken; told once for each target. -/
  | taken (source target : String) (event : Option String)
  | reported (report : Report)
  | logged (state : String) (label : Option String) (text : String)
  /-- A microstep ended: its number in the macrostep, how many transitions it
  took and how many events it generated. -/
  | microstep (number transitions generated : Nat)
  | called (call : Service.Call)
deriving Repr

/-- All that changes while a machine runs. -/
structure World where
  model : DataModel := {}
  status : Status := {}
  services : Services := {}
  /-- The events that wait for the next macrostep. -/
  inbox : List Event := []
  /-- The events generated in the current microstep. -/
  generated : Array Event := #[]
  observations : Array Observation := #[]
deriving Inhabited

namespace World

def observe (world : World) (observation : Observation) : World :=
  { world with observations := world.observations.push observation }

def report (world : World) (code : ReportCode) (detail source : String) : World :=
  world.observe (.reported ⟨code, detail, source⟩)

def emit (world : World) (event : Event) : World :=
  { world with generated := world.generated.push event }

def post (world : World) (event : Event) : World :=
  { world with inbox := world.inbox ++ [event] }

def evalCondition (world : World) (scope : Scope) (text : String) :
    Except ExpressionFault Bool × World :=
  let (result, model) := world.model.evalCondition scope.surroundings text
  (result, { world with model })

def evalExpression (world : World) (scope : Scope) (text : String) :
    Except ExpressionFault Json.Value × World :=
  let (result, model) := world.model.evalExpression scope.surroundings text
  (result, { world with model })

def execute (world : World) (scope : Scope) (action : Action) :
    Except ExpressionFault Unit × World :=
  let (result, model) := world.model.execute scope.surroundings action
  (result, { world with model })

/-- An expression of a block has failed: this is reported, and an event tells
of it. -/
def blockFailed (world : World) (scope : Scope) (fault : ExpressionFault) : World :=
  (world.report .expressionError fault.message scope.stateId).emit (.ofMachine "error.execution")

mutual

/-- Runs one action.  Yields whether it ran to its end. -/
def runAction (scope : Scope) (world : World) : Action → World × Bool
  | .raise event => (world.emit (.ofMachine (Text.trim event)), true)
  | .choose condition thenBlock elseBlock =>
    match world.evalCondition scope condition with
    | (.error fault, world) => (world.blockFailed scope fault, false)
    | (.ok true, world) => runBlock scope world thenBlock
    | (.ok false, world) => runBlock scope world elseBlock
  | .log label expression =>
    match world.evalExpression scope expression with
    | (.error fault, world) => (world.blockFailed scope fault, false)
    | (.ok value, world) => (world.observe (.logged scope.stateId label value.plainText), true)
  | action =>
    match world.execute scope action with
    | (.error fault, world) => (world.blockFailed scope fault, false)
    | (.ok (), world) => (world, true)

/-- Runs a block of actions up to the first one that fails.  Yields whether all
ran to their end. -/
def runBlock (scope : Scope) (world : World) : List Action → World × Bool
  | [] => (world, true)
  | action :: rest =>
    match runAction scope world action with
    | (world, true) => runBlock scope world rest
    | (world, false) => (world, false)

end

/-- Runs a block of actions, whatever comes of it. -/
def run (world : World) (scope : Scope) (block : List Action) : World :=
  (runBlock scope world block).1

end World

end Statechart
