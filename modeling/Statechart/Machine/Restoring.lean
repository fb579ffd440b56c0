import Statechart.Machine.Basic

/-!
# Taking and restoring snapshots

A snapshot names states by their ids, so it can be restored on any machine
that runs a chart of the same definition.
-/

namespace Statechart

namespace Chart

def findStates (chart : Chart) (ids : List String) : Except SnapshotProblem (List NodeId) :=
  ids.mapM (fun id =>
    match chart.lookup id with
    | some node =>
      if (chart.node node).isState || (chart.node node).isParallel then .ok node
      else .error (.unknownState id)
    | none => .error (.unknownState id))

def findHistory (chart : Chart) (id : String) : Except SnapshotProblem NodeId :=
  match chart.lookup id with
  | some node => if (chart.node node).isHistory then .ok node else .error (.unknownHistory id)
  | none => .error (.unknownHistory id)

def findRecord (chart : Chart) (records : NodeMap (List NodeId))
    (record : String × List String) : Except SnapshotProblem (NodeMap (List NodeId)) := do
  let history ← chart.findHistory record.1
  return records.insert history (← chart.findStates record.2)

/-- The status that a snapshot of the chart describes. -/
def statusOf (chart : Chart) (snapshot : Snapshot) : Except SnapshotProblem Status := do
  if snapshot.checksum != chart.checksum then
    throw (.checksum snapshot.checksum chart.checksum)
  let leaves ← chart.findStates snapshot.configuration
  let history ← snapshot.history.foldlM chart.findRecord ∅
  let done ← chart.findStates snapshot.done
  return {
    leaves := .ofList leaves
    history
    done := .ofList done
    isFinal := snapshot.isFinal }

end Chart

namespace Machine

def snapshot (machine : Machine) (time : Int64) : Snapshot :=
  let chart := machine.chart
  let status := machine.status
  { document := chart.idOf rootId
    checksum := chart.checksum
    configuration := machine.configuration
    history := status.history.toList.foldl (fun records (history, recorded) =>
      Entries.insert (chart.idOf history) (chart.idsOf recorded) records) []
    done := chart.idsOf (chart.inDocumentOrder status.done.toList)
    isFinal := status.isFinal
    createdAt := time }

/-- Lets the machine stand where a snapshot says.  Running services are
cancelled; those of the restored states start after the first microstep of the
next macrostep.  Events that wait are kept. -/
def restore (machine : Machine) (snapshot : Snapshot) : Except Fault Unit × Machine :=
  let chart := machine.chart
  match chart.statusOf snapshot with
  | .error problem => (.error (.invalidSnapshot problem), machine)
  | .ok status =>
    match chart.violations status.leaves with
    | [] =>
      (.ok (), { machine with
        world := { machine.world.cancelAll chart with status }
        isStarted := true })
    | violations =>
      (.error (.illegalConfiguration (violations.map Prod.snd)),
        { machine with world := machine.world.reportViolations chart violations })

end Machine

end Statechart
