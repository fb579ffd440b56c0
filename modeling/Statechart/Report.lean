/-!
# Reports of conditions that do not stop a machine

A report has a code, a detail and the id of what it is about.  The default
reporter writes a report as a warning; the detail goes with it, or follows on
a line of its own that is only meant for debugging.
-/

namespace Statechart

/-- What a report is about. -/
inductive ReportCode where
  | expressionError
  | illegalConfiguration
  | invokeFailed
  | invokeCancelFailed
  | communicationError
  | microstepLimit
deriving DecidableEq, Repr

def ReportCode.text : ReportCode → String
  | .expressionError => "EXPRESSION_ERROR"
  | .illegalConfiguration => "ILLEGAL_CONFIGURATION"
  | .invokeFailed => "INVOKE_FAILED"
  | .invokeCancelFailed => "INVOKE_CANCEL_FAILED"
  | .communicationError => "COMMUNICATION_ERROR"
  | .microstepLimit => "MICROSTEP_LIMIT"

/-- A report. -/
structure Report where
  code : ReportCode
  detail : String
  /-- The id of the state or chart that the report is about. -/
  source : String
deriving DecidableEq, Repr

/-- How urgent a line is. -/
inductive ReportLevel where
  | warn
  | debug
deriving DecidableEq, Repr

def ReportLevel.name : ReportLevel → String
  | .warn => "warn"
  | .debug => "debug"

/-- A line that the default reporter writes. -/
structure ReportLine where
  level : ReportLevel
  code : ReportCode
  source : String
  detail : Option String
deriving DecidableEq, Repr

/-- The lines that the default reporter writes for a report. -/
def Report.lines (isVerbose : Bool) (report : Report) : List ReportLine :=
  if isVerbose then
    [⟨.warn, report.code, report.source, some report.detail⟩]
  else
    [⟨.warn, report.code, report.source, none⟩,
      ⟨.debug, report.code, report.source, some report.detail⟩]

end Statechart
