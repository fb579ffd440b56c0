import Statechart.Settings
import Statechart.Text.Blank
import Statechart.Yaml.Reader
import Statechart.Yaml.Writer

/-!
# Loading settings

Settings come from three places, each before the next: the defaults, a file in
YAML, and variables of the environment.  What a file leaves out keeps its
default, and a variable that cannot be read is passed over.  Settings that
limit a macrostep to no microstep, or filter the log by nothing, are refused.
-/

namespace Statechart

/-- Why a file cannot be read. -/
inductive FileFault where
  | missing
  | other (reason : String)
deriving DecidableEq, Repr

def FileFault.message : FileFault → String
  | .missing => "No such file or directory (os error 2)"
  | .other reason => reason

abbrev FileContent :=
  Except FileFault String

/-- The variables of the environment that bear on settings. -/
structure Environment where
  /-- The path of the settings file. -/
  settingsPath : Option String := none
  maxMicrosteps : Option String := none
  verboseErrors : Option String := none
  logFilter : Option String := none
deriving Repr

def Environment.ofLookup (lookup : String → Option String) : Environment where
  settingsPath := lookup "STATECHART_CONFIG"
  maxMicrosteps := lookup "STATECHART_MAX_MICROSTEPS"
  verboseErrors := lookup "STATECHART_VERBOSE_ERRORS"
  logFilter := lookup "STATECHART_LOG"

/-- Why settings are not to be had. -/
inductive SettingsFault where
  | unreadable (path : String) (fault : FileFault)
  /-- The file does not describe settings. -/
  | malformed (path : String)
  | noMicrosteps
  | blankFilter
deriving DecidableEq, Repr

def SettingsFault.message : SettingsFault → String
  | .unreadable path fault => s!"failed to read config file '{path}': {fault.message}"
  | .malformed path => s!"failed to parse config file '{path}': not the settings of a program"
  | .noMicrosteps =>
    "configuration validation failed: interpreter.max_microsteps must be at least 1"
  | .blankFilter => "configuration validation failed: logging.filter must not be empty"

/-! ## Files -/

namespace Yaml.Node

/-- The value of a key, the default if the key is absent.  The key may not be
there twice. -/
def entryOr? {Result : Type} (entries : List (String × Node)) (key : String)
    (default : Result) (decode : Node → Option Result) : Option Result :=
  match entries.filter (fun entry => entry.1 == key) with
  | [] => some default
  | [(_, node)] => decode node
  | _ => none

/-- The number of a plain scalar that a setting can hold. -/
def count? (node : Node) : Option Nat := do
  (natural? (← node.plainText?)).filter (· ≤ countLimit)

end Yaml.Node

namespace Settings

def interpreterOfNode? (node : Yaml.Node) : Option InterpreterSettings := do
  let entries ← node.entries?
  let defaults : InterpreterSettings := {}
  return {
    maxMicrosteps :=
      ← Yaml.Node.entryOr? entries "max_microsteps" defaults.maxMicrosteps Yaml.Node.count?
    verboseErrors :=
      ← Yaml.Node.entryOr? entries "verbose_errors" defaults.verboseErrors
        (fun node => do Yaml.truth? (← node.plainText?)) }

def logFilterOfNode? (node : Yaml.Node) : Option String := do
  Yaml.Node.entryOr? (← node.entries?) "filter" ({} : Settings).logFilter Yaml.Node.text?

def ofNode? (node : Yaml.Node) : Option Settings := do
  let entries ← node.entries?
  let defaults : Settings := {}
  return {
    interpreter :=
      ← Yaml.Node.entryOr? entries "interpreter" defaults.interpreter interpreterOfNode?
    logFilter := ← Yaml.Node.entryOr? entries "logging" defaults.logFilter logFilterOfNode? }

def ofFile (read : String → FileContent) (path : String) : Except SettingsFault Settings :=
  match read path with
  | .error fault => .error (.unreadable path fault)
  | .ok text =>
    match (Yaml.parse? text).bind ofNode? with
    | none => .error (.malformed path)
    | some settings => .ok settings

/-- The text of a file that describes the settings. -/
def toYaml (settings : Settings) : String :=
  "interpreter:\n" ++
    s!"  max_microsteps: {settings.interpreter.maxMicrosteps}\n" ++
    s!"  verbose_errors: {settings.interpreter.verboseErrors}\n" ++
    "logging:\n" ++
    "  filter: " ++ Yaml.scalarText 4 settings.logFilter

/-! ## The environment -/

/-- The number of a variable: digits after an optional plus sign. -/
def countOfVariable? (text : String) : Option Nat :=
  let digits :=
    match text.toList with
    | '+' :: rest => rest
    | chars => chars
  (Text.numberOfDigits? 10 digits).filter (· ≤ countLimit)

def truthOfVariable (text : String) : Bool :=
  text == "1" || text.toLower == "true"

def override (settings : Settings) (environment : Environment) : Settings :=
  { interpreter :=
      { maxMicrosteps :=
          (environment.maxMicrosteps.bind countOfVariable?).getD settings.interpreter.maxMicrosteps
        verboseErrors :=
          (environment.verboseErrors.map truthOfVariable).getD settings.interpreter.verboseErrors }
    logFilter := (environment.logFilter.filter (!·.isEmpty)).getD settings.logFilter }

def ofEnvironment (environment : Environment) : Settings :=
  override {} environment

/-! ## Loading -/

/-- Refuses settings that no program can work with. -/
def check (settings : Settings) : Except SettingsFault Unit :=
  if settings.interpreter.maxMicrosteps = 0 then .error .noMicrosteps
  else if Text.isBlankText settings.logFilter then .error .blankFilter
  else .ok ()

/-- The settings of a file, if there is to be one, with what the environment
says. -/
def loadFrom (read : String → FileContent) (path : Option String) (environment : Environment) :
    Except SettingsFault Settings := do
  let described ←
    match path with
    | some path => ofFile read path
    | none => pure {}
  let settings := described.override environment
  settings.check
  return settings

/-- The settings of the file that the environment names. -/
def load (read : String → FileContent) (environment : Environment) :
    Except SettingsFault Settings :=
  loadFrom read environment.settingsPath environment

end Settings

end Statechart
