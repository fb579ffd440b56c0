import Statechart.Event
import Statechart.Json.Reader

/-!
# Snapshots

A snapshot holds where a machine stands, by the ids of its states, and the
checksum of the definition it runs.  The data model is not part of it.
-/

namespace Statechart

/-- Where a machine stands, in a form that can be kept. -/
structure Snapshot where
  /-- The id of the chart's root. -/
  document : String
  checksum : String
  /-- The active atomic states. -/
  configuration : List String
  /-- What the histories have recorded, in the order of their ids. -/
  history : List (String × List String) := []
  done : List String := []
  isFinal : Bool := false
  /-- When the snapshot was taken, in milliseconds. -/
  createdAt : Int64
deriving DecidableEq, Repr

namespace Json.Value

def texts? (value : Json.Value) : Option (List String) := do
  (← value.items?).mapM string?

def int64? (value : Json.Value) : Option Int64 := do
  let n ← value.int?
  if -Int.pow 2 63 ≤ n ∧ n < Int.pow 2 63 then some n.toInt64 else none

end Json.Value

namespace Snapshot

/-- The field of the history records, left out when there are none. -/
def historyField (history : List (String × List String)) : List (String × Json.Value) :=
  if history.isEmpty then []
  else [("history", .object (history.map (fun (id, states) => (id, .ofTexts states))))]

/-- The field of the done states, left out when there are none. -/
def doneField (done : List String) : List (String × Json.Value) :=
  if done.isEmpty then [] else [("done", .ofTexts done)]

def toJson (snapshot : Snapshot) : Json.Value :=
  .object ([("document", .string snapshot.document), ("checksum", .string snapshot.checksum),
      ("configuration", .ofTexts snapshot.configuration)] ++
    historyField snapshot.history ++ doneField snapshot.done ++
    [("is_final", .bool snapshot.isFinal),
      ("created_at", .number (.ofInt snapshot.createdAt.toInt))])

def historyOfJson? (value : Json.Value) : Option (List (String × List String)) := do
  (← value.fields?).mapM (fun (id, states) => return (id, ← states.texts?))

def fieldNames : List String :=
  ["document", "checksum", "configuration", "history", "done", "is_final", "created_at"]

def ofJson? (value : Json.Value) : Option Snapshot := do
  let record ← value.record? fieldNames
  return {
    document := ← record.requiredText? "document"
    checksum := ← record.requiredText? "checksum"
    configuration := ← (← record.field? "configuration").texts?
    history := ← record.fieldOr? "history" [] historyOfJson?
    done := ← record.fieldOr? "done" [] Json.Value.texts?
    isFinal := ← record.fieldOr? "is_final" false Json.Value.bool?
    createdAt := ← (← record.field? "created_at").int64? }

/-- What a snapshot is read from. -/
inductive Role where
  | snapshot
  | content
deriving DecidableEq, Repr

def outline : Json.Outline Role where
  field? role name :=
    match role with
    | .snapshot => if fieldNames.contains name then some .content else none
    | .content => some .content
  item _ _ := .content

/-- Reads the snapshot of a JSON text; other fields may hold anything. -/
def ofText? (text : String) : Option Snapshot := do
  let tree ← Json.Tree.ofText? text
  ofJson? (← tree.valueFor? outline .snapshot Json.depthLimit)

end Snapshot

end Statechart
