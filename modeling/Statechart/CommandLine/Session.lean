import Statechart.CommandLine.Listing
import Statechart.Machine.Restoring

/-!
# Sessions

In a session a machine answers the lines that a person types: each fires an
event, shows where the machine stands, or takes it somewhere else.  A line that
fails leaves the session going.
-/

namespace Statechart

namespace CommandLine

/-- A machine that a command works with. -/
structure Session where
  machine : Machine
  /-- Whether entries, exits and transitions are printed. -/
  isVerbose : Bool := false

/-- What a session does with a line. -/
inductive Reply where
  | stop
  | go (lines : List Line) (session : Session)

namespace Session

/-- Runs an operation on the machine.  Yields what it told the listeners, if
that is to be printed. -/
def operate {Result : Type} (session : Session)
    (operation : Machine → Except Fault Result × Machine) :
    List Line × Except Fault Result × Session :=
  let (outcome, machine) := operation session.machine.forgetObservations
  (if session.isVerbose then observationLines machine else [], outcome, { session with machine })

/-- The lines of a macrostep of the session's machine. -/
def summary (session : Session) (label : String) (done : Macrostep) : List Line :=
  macrostepLines label done session.machine.configuration

/-- An event in one word: a name, or a name and data with an equals sign between
them. -/
def eventOfWord? (word : String) : Option Event :=
  match Text.cutAtFirst (· == '=') word with
  | none => some { name := Text.trim word }
  | some (name, data) => (Json.parse? data).map (fun data => { name := Text.trim name, data })

/-! ## Lines -/

/-- What the command `help` prints. -/
def helpText : String :=
  "
Available commands:
  help                          Show this help

  fire <event> [json]           Fire an event and run one macrostep
  state                         Show the active configuration
  ctx                           Show the data model context
  history                       Show recorded history

  snapshot                      Print a snapshot of the machine
  restore <json>                Restore a snapshot
  reset                         Re-enter the initial configuration

  quit, exit                    Exit the REPL
"

/-- What the commands of a session are. -/
inductive Order where
  | help
  | quit
  | fire (words : String)
  | state
  | context
  | history
  | snapshot
  | restore (text : String)
  | reset
  | unknown (word : String)
deriving DecidableEq, Repr

def cutWord (line : String) : String × String :=
  match Text.cutAtFirst Text.isBlank line with
  | none => (line, "")
  | some (word, rest) => (word, Text.trim rest)

/-- The order on a line that has no blanks at its ends. -/
def Order.ofLine (line : String) : Order :=
  let (word, rest) := cutWord line
  let lower := word.toLower
  if ["help", "?"].contains lower then .help
  else if ["quit", "exit", "q"].contains lower then .quit
  else if ["fire", "f"].contains lower then .fire rest
  else if ["state", "s"].contains lower then .state
  else if lower == "ctx" then .context
  else if ["history", "h"].contains lower then .history
  else if lower == "snapshot" then .snapshot
  else if lower == "restore" then .restore rest
  else if lower == "reset" then .reset
  else .unknown word

def say (session : Session) (text : String) : Reply :=
  .go [.text text, .text ""] session

/-- A reply with a problem, after what else has been printed. -/
def complain (session : Session) (problem : Problem) (lines : List Line) : Reply :=
  .go (lines ++ [.complaint problem, .text ""]) session

/-- The event that the words after `fire` describe: its name and its data. -/
def eventToFire? (words : String) : Option Event :=
  match Text.cutAtFirst Text.isBlank words with
  | none => eventOfWord? words
  | some (name, data) => eventOfWord? (name ++ "=" ++ Text.trim data)

def fire (session : Session) (words : String) : Reply :=
  if words.isEmpty then
    session.say "Usage: fire <event> [json]"
  else
    match eventToFire? words with
    | none => session.complain .notJson []
    | some event =>
      match session.operate (·.fire event) with
      | (told, .error fault, session) => session.complain (.refused fault) told
      | (told, .ok done, session) =>
        let closing := if session.machine.status.isFinal then "Machine is final." else ""
        .go (told ++ session.summary event.name done ++ [.text closing, .text ""]) session

def stateText (machine : Machine) : String :=
  "  configuration: " ++ commaSeparated machine.configuration ++
    "\n  active: " ++ commaSeparated machine.activeStates ++
    (if machine.status.isFinal then " (final)" else "")

/-- What the histories of the machine have recorded. -/
def historyText (machine : Machine) : String :=
  match (machine.snapshot 0).history with
  | [] => "No history recorded"
  | records =>
    String.join (records.map (fun (id, states) =>
      "  " ++ id ++ " -> " ++ commaSeparated states ++ "\n"))

def restore (session : Session) (text : String) : Reply :=
  if text.isEmpty then
    session.say "Usage: restore <snapshot_json>"
  else
    match Snapshot.ofText? text with
    | none => session.complain .notASnapshot []
    | some snapshot =>
      match session.operate (·.restore snapshot) with
      | (told, .error fault, session) => session.complain (.refused fault) told
      | (told, .ok (), session) =>
        let restored := "Restored " ++ commaSeparated session.machine.configuration
        .go (told ++ [.text restored, .text ""]) session

/-- Starts the machine anew and tells of the macrostep. -/
def reset (session : Session) : Reply :=
  match session.operate Machine.reset with
  | (told, .error fault, session) => session.complain (.refused fault) told
  | (told, .ok done, session) =>
    .go (told ++ session.summary "reset" done ++ [.text "", .text ""]) session

def obey (time : Int64) (session : Session) : Order → Reply
  | .help => session.say helpText
  | .quit => .stop
  | .fire words => session.fire words
  | .state => session.say (stateText session.machine)
  | .context => session.say session.machine.world.model.context.spread
  | .history => session.say (historyText session.machine)
  | .snapshot => session.say (session.machine.snapshot time).toJson.spread
  | .restore text => session.restore text
  | .reset => session.reset
  | .unknown word =>
    session.say s!"Unknown command: {word}. Type 'help' for available commands."

/-- Answers a line at a time.  A blank line has no answer. -/
def answer (time : Int64) (session : Session) (line : String) : Reply :=
  let line := Text.trim line
  if line.isEmpty then .go [] session else session.obey time (.ofLine line)

/-- The lines that a session prints for the lines typed, all at one time, up to
the end of the input or the order to quit. -/
def transcript (time : Int64) (session : Session) : List String → List Line
  | [] => [.text "^D"]
  | line :: rest =>
    match session.answer time line with
    | .stop => []
    | .go lines session => lines ++ session.transcript time rest

end Session

end CommandLine

end Statechart
