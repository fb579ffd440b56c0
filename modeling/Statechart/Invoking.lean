import Statechart.World

/-!
# Starting, informing and cancelling services

After a microstep the services of the states that have become active are
started; external events are forwarded to the running ones; and the service of
a state is cancelled when the state is exited.  A service that fails is
reported, and an event tells the machine of it.
-/

namespace Statechart

namespace World

/-- Makes a call.  Observers are told of it, and what the service sends goes
into the inbox, whether or not the service then fails. -/
def call (world : World) (service : Service) (made : Service.Call) :
    Option ServiceFault × World :=
  let reply := service.respond world.services.calls.toList made
  let world := world.observe (.called made)
  let world := { world with
    services := { world.services with calls := world.services.calls.push made }
    inbox := world.inbox ++ reply.sends }
  (reply.fault, world)

/-! ## Starting -/

def evalSource (world : World) (scope : Scope) (invocation : Invocation) :
    Except ServiceFault String × World :=
  match invocation.source, invocation.sourceExpression with
  | some source, _ => (.ok source, world)
  | none, some expression =>
    match world.evalExpression scope expression with
    | (.error fault, world) => (.error (.start fault.message), world)
    | (.ok value, world) => (.ok value.plainText, world)
  | none, none => (.error (.start "no invoke source"), world)

/-- The values of parameters, in the order of their names, besides those found
so far. -/
def evalParameters (world : World) (scope : Scope) (found : List (String × Json.Value)) :
    List Parameter → Except ServiceFault (List (String × Json.Value)) × World
  | [] => (.ok found, world)
  | parameter :: rest =>
    let expression := parameter.expression.getD ("ctx." ++ parameter.name)
    match world.evalExpression scope expression with
    | (.error fault, world) => (.error (.start fault.message), world)
    | (.ok value, world) =>
      evalParameters world scope (Entries.insert parameter.name value found) rest

/-- Creates and starts the service of an invocation. -/
def startService (registry : Registry) (scope : Scope) (invocation : Invocation)
    (world : World) : Except ServiceFault RunningService × World :=
  match world.evalSource scope invocation with
  | (.error fault, world) => (.error fault, world)
  | (.ok source, world) =>
    match evalParameters world scope [] invocation.parameters with
    | (.error fault, world) => (.error fault, world)
    | (.ok parameters, world) =>
      match registry.create invocation.service with
      | .error fault => (.error fault, world)
      | .ok service =>
        let number := world.services.created
        let world := { world with services := { world.services with created := number + 1 } }
        match world.call service ⟨number, scope.stateId, .start source parameters⟩ with
        | (some fault, world) => (.error fault, world)
        | (none, world) => (.ok ⟨number, service⟩, world)

def keepService (world : World) (node : NodeId) (service : RunningService) : World :=
  { world with services :=
    { world.services with running := world.services.running.insert node service } }

/-- Gives a state no new service until it is exited. -/
def suppress (world : World) (node : NodeId) : World :=
  { world with services :=
    { world.services with suppressed := world.services.suppressed.insert node } }

/-- Starts the service of a state, or reports why that failed. -/
def startAt (chart : Chart) (registry : Registry) (events : List Event) (active : NodeSet)
    (world : World) (node : NodeId) : World :=
  match (chart.node node).invocation with
  | none => world
  | some invocation =>
    let scope : Scope := ⟨chart, node, events, active⟩
    match startService registry scope invocation world with
    | (.ok service, world) => world.keepService node service
    | (.error fault, world) =>
      ((world.report .invokeFailed fault.message scope.stateId).emit
        (.ofMachine (servicePrefix scope.stateId ++ "failed"))).suppress node

/-- Whether a node invokes a service that is neither running nor suppressed. -/
def awaitsStart (chart : Chart) (services : Services) (node : NodeId) : Bool :=
  (chart.node node).invocation.isSome && !services.running.contains node &&
    !services.suppressed.contains node

/-- Starts the services that active states are waiting for, in document order. -/
def startPending (world : World) (chart : Chart) (registry : Registry) (events : List Event)
    (active : NodeSet) : World :=
  let pending := chart.inDocumentOrder
    (active.toList.filter (awaitsStart chart world.services))
  pending.foldl (startAt chart registry events active) world

/-! ## Cancelling -/

/-- Cancels the service of a node, if one is running, and lets the node have a
new one. -/
def cancelService (chart : Chart) (world : World) (node : NodeId) : World :=
  let services := { world.services with suppressed := world.services.suppressed.erase node }
  match services.running.find? node with
  | none => { world with services }
  | some running =>
    let services := { services with running := services.running.erase node }
    let state := chart.idOf node
    match World.call { world with services } running.service ⟨running.number, state, .cancel⟩ with
    | (none, world) => world
    | (some fault, world) =>
      (world.report .invokeCancelFailed fault.message state).emit
        (.ofMachine (servicePrefix state ++ "cancel.failed"))

/-- Cancels the services of all nodes that are not active, and forgets what is
suppressed there.  The events that this generates are dropped. -/
def cancelInactive (world : World) (chart : Chart) (active : NodeSet) : World :=
  let generated := world.generated
  let stale := world.services.running.keys.filter (fun node => !active.contains node)
  let world := stale.foldl (cancelService chart) world
  { world with
    generated
    services := { world.services with
      suppressed := world.services.suppressed.filter active.contains } }

def cancelAll (world : World) (chart : Chart) : World :=
  world.cancelInactive chart ∅

/-! ## Informing -/

def forwardEvent (state : String) (running : RunningService) (world : World) (event : Event) :
    World :=
  match world.call running.service ⟨running.number, state, .forward event⟩ with
  | (none, world) => world
  | (some fault, world) =>
    (world.report .communicationError fault.message state).emit
      (.ofMachine "error.communication")

/-- Forwards events to the service of a node, except those that the service
sends itself. -/
def forwardTo (chart : Chart) (events : List Event) (world : World)
    (entry : NodeId × RunningService) : World :=
  let state := chart.idOf entry.1
  let foreign := events.filter (fun event => !Text.startsWith (servicePrefix state) event.name)
  foreign.foldl (forwardEvent state entry.2) world

def forwardAll (world : World) (chart : Chart) (events : List Event) : World :=
  world.services.running.toList.foldl (forwardTo chart events) world

/-- The nodes whose service awaits one of the events and that have something to
finalize, in document order. -/
def finalizing (world : World) (chart : Chart) (events : List Event) : List NodeId :=
  let calls := world.services.calls.toList
  let awaiting := world.services.running.toList.filter (fun (node, running) =>
    events.any (running.service.awaits calls (chart.idOf node)) &&
      match (chart.node node).invocation with
      | some invocation => !invocation.finalize.isEmpty
      | none => false)
  chart.inDocumentOrder (awaiting.map Prod.fst)

def finalizeAt (chart : Chart) (events : List Event) (active : NodeSet) (world : World)
    (node : NodeId) : World :=
  match (chart.node node).invocation with
  | some invocation => world.run ⟨chart, node, events, active⟩ invocation.finalize
  | none => world

/-- Runs all finalize blocks that the events call for. -/
def finalizeAll (world : World) (chart : Chart) (events : List Event) (active : NodeSet) : World :=
  (world.finalizing chart events).foldl (finalizeAt chart events active) world

end World

end Statechart
