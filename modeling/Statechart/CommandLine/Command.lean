import Statechart.CommandLine.Session
import Statechart.Definition.OfYaml

/-!
# Commands

The program has three commands: one lists a chart, one fires events at a
machine, and one opens a session.  Each loads the settings first and then reads
the document, which is YAML if its name says so and JSON otherwise.
-/

namespace Statechart

namespace CommandLine

/-- What is to be done with a document. -/
inductive Command where
  | validate
  | run (events : List String) (context : Option String)
  | converse (context : Option String)
deriving DecidableEq, Repr

/-- A command with its document and its options. -/
structure Request where
  command : Command
  /-- The path of the document. -/
  document : String
  settingsPath : Option String := none
  isVerbose : Bool := false
deriving Repr

/-- What the program finds where it runs. -/
structure Host where
  read : String → FileContent
  environment : Environment := {}
  /-- The time, in milliseconds. -/
  time : Int64 := 0

namespace Request

/-- The path of the settings file: that of the option before that of the
environment. -/
def settingsFile (request : Request) (environment : Environment) : Option String :=
  request.settingsPath.orElse (fun _ => environment.settingsPath)

def settings (request : Request) (host : Host) : Except Problem Settings :=
  match Settings.loadFrom host.read (request.settingsFile host.environment)
      host.environment with
  | .error fault => .error (.badSettings fault)
  | .ok settings =>
    .ok { settings with interpreter :=
      { settings.interpreter with
        verboseErrors := request.isVerbose || settings.interpreter.verboseErrors } }

end Request

/-- Whether a path names a YAML file: its last part has a stem and ends in
`.yaml` or `.yml`. -/
def isYamlPath (path : String) : Bool :=
  let name := (path.toList.reverse.takeWhile (· != '/')).reverse
  [".yaml".toList, ".yml".toList].any (fun ending =>
    ending.isSuffixOf name && ending.length < name.length)

def definitionOf (path text : String) : Except Problem Definition :=
  let definition :=
    if isYamlPath path then Definition.ofYaml? text
    else Definition.ofJsonText? text
  match definition with
  | some definition => .ok definition
  | none => .error .notADefinition

/-- The definition that the document of a request holds. -/
def Request.definition (request : Request) (host : Host) :
    Except Problem Definition :=
  match host.read request.document with
  | .error fault => .error (.unreadable request.document fault)
  | .ok text => definitionOf request.document text

/-- The context of a text; without one it is `null`. -/
def contextOf : Option String → Except Problem Json.Value
  | none => .ok .null
  | some text =>
    match Json.parse? text with
    | some value => .ok value
    | none => .error .notJson

/-- A session with a machine that is not started yet. -/
def Request.session (request : Request) (host : Host) (context : Option String) :
    Except Problem Session := do
  let settings ← request.settings host
  let definition ← request.definition host
  let context ← contextOf context
  match Machine.load definition (.ofContext context) with
  | .error fault => throw (.refused fault)
  | .ok machine =>
    return ⟨machine.withSettings settings.interpreter, request.isVerbose⟩

def Request.chart (request : Request) (host : Host) : Except Problem Chart := do
  let _ ← request.settings host
  match Chart.ofDefinition (← request.definition host) with
  | .error defect => throw (.badChart defect)
  | .ok chart =>
    match chart.validate with
    | .error rejection => throw (.badChart rejection.defect)
    | .ok chart => return chart

namespace Session

/-- Starts the machine and tells of the macrostep. -/
def start (session : Session) : List Line × Except Problem Session :=
  match session.operate Machine.start with
  | (told, .error fault, _) => (told, .error (.refused fault))
  | (told, .ok done, session) => (told ++ session.summary "start" done, .ok session)

/-- Fires the event of an argument.  A macrostep that fails is undone as far as
the machine undoes it, and told of. -/
def fireArgument (session : Session) (argument : String) : List Line × Except Problem Session :=
  match eventOfWord? argument with
  | none => ([], .error .notJson)
  | some event =>
    match session.operate (·.fire event) with
    | (told, .error fault, session) =>
      if fault.isUsable then
        (told ++ [.text ("Rolled back: " ++ fault.message)], .ok session)
      else
        (told, .error (.refused fault))
    | (told, .ok done, session) => (told ++ session.summary event.name done, .ok session)

/-- Fires the events of arguments until the machine is final. -/
def fireArguments (session : Session) : List String → Outcome
  | [] => {}
  | argument :: rest =>
    match session.fireArgument argument with
    | (lines, .error problem) => ⟨lines, some problem⟩
    | (lines, .ok session) =>
      if session.machine.status.isFinal then
        ⟨lines ++ [.text "Machine is final."], none⟩
      else
        (session.fireArguments rest).after lines

/-- The lines before the first one is typed.  Yields the session with its
machine started. -/
def greet (session : Session) : List Line × Except Problem Session :=
  let title := Line.text "statechart REPL"
  match session.start with
  | (lines, .error problem) => (title :: lines, .error problem)
  | (lines, .ok session) =>
    (title :: lines ++ [.text "Type 'help' for available commands.", .text ""], .ok session)

/-- A session from its greeting to the end of the lines typed. -/
def converse (time : Int64) (session : Session) (typed : List String) : Outcome :=
  match session.greet with
  | (lines, .error problem) => ⟨lines, some problem⟩
  | (lines, .ok session) => ⟨lines ++ session.transcript time typed, none⟩

end Session

def Request.perform (request : Request) (host : Host) (typed : List String) :
    Outcome :=
  match request.command with
  | .validate =>
    match request.chart host with
    | .error problem => { problem }
    | .ok chart => { lines := chartLines chart }
  | .run events context =>
    match request.session host context with
    | .error problem => { problem }
    | .ok session =>
      match session.start with
      | (lines, .error problem) => ⟨lines, some problem⟩
      | (lines, .ok session) => (session.fireArguments events).after lines
  | .converse context =>
    match request.session host context with
    | .error problem => { problem }
    | .ok session => session.converse host.time typed

end CommandLine

end Statechart
