import Statechart.Chart.Defect
import Statechart.Configuration

/-!
# Faults of machine operations

A fault is what the caller of an operation on a chart, a machine or a snapshot
gets instead of a result.  Each has a code and a wording, and tells whether
the machine can still be used.
-/

namespace Statechart

/-- Why a snapshot cannot be restored. -/
inductive SnapshotProblem where
  | checksum (found expected : String)
  | unknownState (id : String)
  | unknownHistory (id : String)
deriving DecidableEq, Repr

def SnapshotProblem.message : SnapshotProblem → String
  | .checksum found expected =>
    s!"checksum {found} does not match document checksum {expected}"
  | .unknownState id => s!"unknown state '{id}'"
  | .unknownHistory id => s!"unknown history '{id}'"

/-- Why an operation did not succeed. -/
inductive Fault where
  | invalid (defect : Defect)
  | illegalConfiguration (violations : List Chart.Violation)
  /-- The targets of a transition lead from a history back to itself. -/
  | endlessExpansion
  | notStarted
  | invalidSnapshot (problem : SnapshotProblem)
  /-- A JSON value does not have the right shape. -/
  | malformed
deriving DecidableEq, Repr

namespace Fault

def code : Fault → String
  | invalid defect => defect.code
  | illegalConfiguration _ => "ILLEGAL_CONFIGURATION"
  | endlessExpansion => "ENDLESS_EXPANSION"
  | notStarted => "NOT_STARTED"
  | invalidSnapshot _ => "INVALID_SNAPSHOT"
  | malformed => "BAD_REQUEST"

def message : Fault → String
  | invalid defect => "invalid document: " ++ defect.message
  | illegalConfiguration violations =>
    "illegal configuration: " ++ "; ".intercalate (violations.map Chart.Violation.message)
  | endlessExpansion => "expansion of targets does not end"
  | notStarted => "machine has not been started"
  | invalidSnapshot problem => "invalid snapshot: " ++ problem.message
  | malformed => "JSON error: unexpected shape"

/-- Whether the machine can be used after the fault.  Only defects of the chart
leave no machine behind. -/
def isUsable : Fault → Bool
  | invalid _ => false
  | _ => true

end Fault

end Statechart
