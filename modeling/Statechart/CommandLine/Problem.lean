import Statechart.Fault
import Statechart.Settings.Loading

/-!
# What a command prints

A command prints lines and may end with a problem.  In a session, problems are
among the lines.
-/

namespace Statechart

namespace CommandLine

/-- Why a command cannot go on. -/
inductive Problem where
  | badSettings (fault : SettingsFault)
  /-- The document cannot be read. -/
  | unreadable (path : String) (fault : FileFault)
  /-- The document does not describe a chart. -/
  | notADefinition
  /-- The context or the data of an event is not JSON. -/
  | notJson
  /-- A text is not a snapshot. -/
  | notASnapshot
  | badChart (defect : Defect)
  | refused (fault : Fault)
deriving DecidableEq, Repr

def Problem.message : Problem → String
  | .badSettings fault => fault.message
  | .unreadable path fault => s!"cannot read {path}: {fault.message}"
  | .notADefinition => "not the definition of a chart"
  | .notJson => "not a JSON text"
  | .notASnapshot => "not a snapshot"
  | .badChart defect => defect.message
  | .refused fault => fault.message

/-- What is printed on a line of its own; a text may have line breaks in it. -/
inductive Line where
  | text (content : String)
  | complaint (problem : Problem)
deriving DecidableEq, Repr

def Line.content : Line → String
  | .text content => content
  | .complaint problem => "Error: " ++ problem.message

/-- What a command has printed, and the problem that ended it. -/
structure Outcome where
  lines : List Line := []
  problem : Option Problem := none
deriving Repr

namespace Outcome

def after (outcome : Outcome) (lines : List Line) : Outcome :=
  { outcome with lines := lines ++ outcome.lines }

def exitCode (outcome : Outcome) : Nat :=
  if outcome.problem.isSome then 1 else 0

def errorLines (outcome : Outcome) : List Line :=
  (outcome.problem.map Line.complaint).toList

end Outcome

end CommandLine

end Statechart
