import Statechart.CommandLine.Arguments
import Std.Time.DateTime.Timestamp

/-!
# The program

Reads the arguments, the environment, the files and the lines typed, and prints
what the command says.
-/

namespace Statechart

namespace CommandLine

def readContent (path : String) : IO FileContent := do
  try
    return .ok (← IO.FS.readFile path)
  catch
    | .noFileOrDirectory .. => return .error .missing
    | fault => return .error (.other (toString fault))

def currentTime : IO Int64 := do
  return (← Std.Time.Timestamp.now).toMillisecondsSinceUnixEpoch.val.toInt64

/-- Reads what the environment says about settings. -/
def readEnvironment : IO Environment := do
  let names :=
    ["STATECHART_CONFIG", "STATECHART_MAX_MICROSTEPS", "STATECHART_VERBOSE_ERRORS",
      "STATECHART_LOG"]
  let values ← names.mapM (fun name => return (name, ← IO.getEnv name))
  return .ofLookup (fun name => (values.lookup name).join)

def printLines (lines : List Line) : IO Unit :=
  lines.forM (fun line => IO.println line.content)

/-- Prints what is left of an outcome and yields the exit code. -/
def finish (outcome : Outcome) : IO UInt32 := do
  printLines outcome.lines
  outcome.errorLines.forM (fun line => IO.eprintln line.content)
  return outcome.exitCode.toUInt32

/-- Answers the lines of the input until it ends or one asks to quit. -/
partial def answerLines (input output : IO.FS.Stream) (session : Session) : IO Unit := do
  if ← input.isTty then
    output.putStr "statechart> "
    output.flush
  let line ← input.getLine
  if line.isEmpty then
    printLines [.text "^D"]
  else
    match session.answer (← currentTime) line with
    | .stop => return ()
    | .go lines session =>
      printLines lines
      answerLines input output session

/-- Carries out a request; a session takes its lines as they are typed. -/
def carryOut (request : Request) (host : Host) : IO UInt32 := do
  match request.command with
  | .converse context =>
    match request.session host context with
    | .error problem => finish { problem }
    | .ok session =>
      match session.greet with
      | (lines, .error problem) => finish ⟨lines, some problem⟩
      | (lines, .ok session) =>
        printLines lines
        answerLines (← IO.getStdin) (← IO.getStdout) session
        return 0
  | _ => finish (request.perform host [])

def runProgram (arguments : List String) : IO UInt32 := do
  match Request.ofArguments? arguments with
  | none =>
    IO.eprintln usage
    return 2
  | some request =>
    let environment ← readEnvironment
    let files ← (request.files environment).mapM (fun path => return (path, ← readContent path))
    let read (path : String) : FileContent :=
      (files.lookup path).getD (.error .missing)
    carryOut request { read, environment, time := ← currentTime }

end CommandLine

end Statechart

def main (arguments : List String) : IO UInt32 :=
  Statechart.CommandLine.runProgram arguments
