import Statechart.CommandLine.Command

/-!
# Arguments

The arguments of the program are a command, a document and options in any
order, but an option of a command comes after it.  The value of an option is
the next argument, or follows an equals sign.
-/

namespace Statechart

namespace CommandLine

def usage : String :=
  "Usage: statechart [--config FILE] [--verbose] COMMAND

Commands:
  validate DOCUMENT                             Validate a document and print its states
  run DOCUMENT [--event EVENT]... [--ctx JSON]  Fire events, one macrostep each
  repl DOCUMENT [--ctx JSON]                    Start an interactive session"

/-- The arguments taken so far. -/
structure Draft where
  word : Option String := none
  document : Option String := none
  events : List String := []
  context : Option String := none
  settingsPath : Option String := none
  isVerbose : Bool := false

namespace Draft

/-- Takes an option with its value.  Events and contexts are for commands that
have them. -/
def takeOption? (draft : Draft) (name value : String) : Option Draft :=
  let isRun := draft.word == some "run"
  let isConversation := draft.word == some "repl"
  if name == "--config" || name == "-c" then
    some { draft with settingsPath := some value }
  else if (name == "--event" || name == "-e") && isRun then
    some { draft with events := draft.events ++ [value] }
  else if name == "--ctx" && (isRun || isConversation) then
    some { draft with context := some value }
  else
    none

/-- Takes an argument that is not an option: the command, then the document. -/
def takeWord? (draft : Draft) (word : String) : Option Draft :=
  match draft.word, draft.document with
  | none, _ =>
    if ["validate", "run", "repl"].contains word then some { draft with word := some word }
    else none
  | some _, none => some { draft with document := some word }
  | some _, some _ => none

def takeAll? (draft : Draft) : List String → Option Draft
  | [] => some draft
  | argument :: rest =>
    if argument == "--verbose" || argument == "-v" then
      takeAll? { draft with isVerbose := true } rest
    else if !Text.startsWith "-" argument then
      (draft.takeWord? argument).bind (fun draft => draft.takeAll? rest)
    else
      match Text.cutAtFirst (· == '=') argument with
      | some (name, value) =>
        (draft.takeOption? name value).bind (fun draft => draft.takeAll? rest)
      | none =>
        match rest with
        | [] => none
        | value :: rest =>
          (draft.takeOption? argument value).bind (fun draft => draft.takeAll? rest)

def request? (draft : Draft) : Option Request := do
  let document ← draft.document
  let command ←
    match draft.word with
    | some "validate" => some .validate
    | some "run" => some (.run draft.events draft.context)
    | some "repl" => some (.converse draft.context)
    | _ => none
  return { command, document, settingsPath := draft.settingsPath, isVerbose := draft.isVerbose }

end Draft

def Request.ofArguments? (arguments : List String) : Option Request := do
  (← ({} : Draft).takeAll? arguments).request?

def Request.files (request : Request) (environment : Environment) : List String :=
  request.document :: (request.settingsFile environment).toList

end CommandLine

end Statechart
