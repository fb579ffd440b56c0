import Statechart.Invoking
import Statechart.Microstep.Resolution

/-!
# Carrying out a microstep

States are exited, the actions of the transitions run, and states are entered;
each of these runs its actions, tells the observers and generates events.  In
the end the histories of the exited states record what was active in them, and
the machine stands in the next configuration.
-/

namespace Statechart

namespace World

def modifyStatus (world : World) (change : Status → Status) : World :=
  { world with status := change world.status }

/-! ## Completion -/

/-- A final state is left: its parent, and the parallel that has the parent as a
region, are no longer done. -/
def leaveFinal (chart : Chart) (node : NodeId) (status : Status) : Status :=
  match chart.parent node with
  | none => status
  | some parent =>
    let done := status.done.erase parent
    if chart.isRegion parent then
      match chart.parent parent with
      | some parallel => { status with done := done.erase parallel }
      | none => { status with done }
    else
      { status with done }

/-- Signals that a parallel is done if all its regions are and it was not yet. -/
def completeParallel (chart : Chart) (world : World) (parallel : NodeId) : World :=
  let done := world.status.done
  if (chart.node parallel).children.all done.contains && !done.contains parallel then
    (world.modifyStatus (fun status => { status with done := done.insert parallel })).emit
      (.ofCompletion (chart.idOf parallel ++ ".done"))
  else
    world

/-- A final state is entered: its parent is done, or the machine is. -/
def enterFinal (chart : Chart) (world : World) (node : NodeId) : World :=
  match chart.parent node with
  | none => world.modifyStatus (fun status => { status with isFinal := true })
  | some parent =>
    if parent = rootId then
      world.modifyStatus (fun status => { status with isFinal := true })
    else
      let world := (world.emit (.ofCompletion (chart.idOf parent ++ ".done"))).modifyStatus
        (fun status => { status with done := status.done.insert parent })
      if chart.isRegion parent then
        match chart.parent parent with
        | some parallel => completeParallel chart world parallel
        | none => world
      else
        world

/-! ## History -/

def recordOf (chart : Chart) (before : NodeSet) (state : NodeId) (kind : HistoryKind) :
    List NodeId :=
  match kind with
  | .deep =>
    chart.inDocumentOrder (before.toList.filter (fun leaf => chart.isDescendant leaf state))
  | .shallow =>
    let active := chart.active before
    chart.inDocumentOrder ((chart.node state).children.filter active.contains)

def recordHistory (chart : Chart) (before : NodeSet) (state : NodeId)
    (records : NodeMap (List NodeId)) (history : NodeId) : NodeMap (List NodeId) :=
  match (chart.node history).kind with
  | .history kind _ => records.insert history (recordOf chart before state kind)
  | _ => records

/-- Lets the histories of an exited state record. -/
def recordHistories (chart : Chart) (before : NodeSet) (records : NodeMap (List NodeId))
    (state : NodeId) : NodeMap (List NodeId) :=
  (chart.node state).histories.foldl (recordHistory chart before state) records

/-! ## Exits, transitions and entries -/

def exitState (chart : Chart) (events : List Event) (active : NodeSet) (world : World)
    (node : NodeId) : World :=
  let state := chart.node node
  let world := cancelService chart world node
  let world := world.run ⟨chart, node, events, active⟩ state.onExit
  let world := (world.observe (.exited state.id)).emit (.ofCompletion (state.id ++ ".exit"))
  if state.isFinal then world.modifyStatus (leaveFinal chart node) else world

def takeTransition (chart : Chart) (events : List Event) (active : NodeSet) (world : World)
    (id : TransitionId) : World :=
  let transition := chart.transition id
  let world := world.run ⟨chart, transition.source, events, active⟩ transition.actions
  transition.observedTargets.foldl (fun world target =>
    world.observe (.taken (chart.idOf transition.source) (chart.idOf target) transition.event))
    world

def enterState (chart : Chart) (events : List Event) (active : NodeSet)
    (resolution : Resolution) (world : World) (node : NodeId) : World :=
  let state := chart.node node
  let scope : Scope := ⟨chart, node, events, active⟩
  let world := world.modifyStatus (fun status => { status with done := status.done.erase node })
  let world := world.run scope state.onEntry
  let world := (world.observe (.entered state.id)).emit (.ofCompletion (state.id ++ ".entry"))
  let initial :=
    if resolution.defaultEntries.contains node then state.initial.toList else []
  let defaults := (resolution.historyDefaults.find? node).getD []
  let world := (initial ++ defaults).foldl
    (fun world id => world.run scope (chart.transition id).actions) world
  if state.isFinal then enterFinal chart world node else world

def carryOut (world : World) (chart : Chart) (events : List Event)
    (transitions : List TransitionId) (resolution : Resolution) : World :=
  let before := world.status.leaves
  let activeBefore := chart.active before
  let activeAfter := chart.active resolution.after
  let world := resolution.exited.foldl (exitState chart events activeBefore) world
  let world := transitions.foldl (takeTransition chart events activeBefore) world
  let world := resolution.entered.foldl (enterState chart events activeAfter resolution) world
  world.modifyStatus (fun status =>
    { status with
      leaves := resolution.after
      history := resolution.exited.foldl (recordHistories chart before) status.history })

end World

end Statechart
