import GraphShell.Program.Run
import GraphShell.Shell.Prompt

/-! The command line. It reads arguments, variables, files and lines, hands them to the library
one by one, and writes what comes back; no transport is built in, so a store on the network is
never reached.
-/

namespace GraphShell.CommandLine

/-- What a failure to read a file says. -/
def reasonOf : IO.Error → String
  | .noFileOrDirectory .. => "No such file or directory (os error 2)"
  | .permissionDenied .. => "Permission denied (os error 13)"
  | error => toString error

/-- Reads a text file. -/
def readText (path : String) : IO (Except String String) := do
  try
    return .ok (← IO.FS.readFile path)
  catch error => return .error (reasonOf error)

/-- The one settings file that the arguments can name. -/
def settingsFiles (arguments : Arguments) : IO Settings.Files := do
  let text ← readText (arguments.settingsPath.getD Settings.defaultFile)
  return ⟨fun _ => text.isOk, fun _ => text⟩

/-- The variables that matter to settings. -/
def environment : IO Settings.Environment := do
  let names := [Settings.hostVariable, Settings.portVariable, Settings.logFormatVariable]
  let values ← names.mapM fun name => return (name, ← IO.getEnv name)
  return fun name => (values.lookup name).join

/-- Writes what a console holds. -/
def write (console : Console) : IO Unit := do
  let out ← IO.getStdout
  out.putStr console.out
  out.flush
  (← IO.getStderr).putStr console.err

/-- The reading of the clock. -/
def now : IO Instant := return ⟨← IO.monoNanosNow⟩

/-- All that is left of the input. -/
partial def readInput (read : ByteArray) : IO ByteArray := do
  let chunk ← (← IO.getStdin).read 65536
  if chunk.isEmpty then return read else readInput (read ++ chunk)

variable {σ : Type}

/-- Takes a line of the input at its own clock reading. -/
def takeLine (storeAt : Instant → Store σ) (bytes : List UInt8) (state : σ)
    : IO (Except String (Option Outcome) × σ) := do
  let shell := Shell.standard (storeAt (← now))
  let (outcome, state, console) := shell.streamLine bytes state .empty
  write console
  return (outcome, state)

/-- Asks for lines at a terminal until one ends the session or there are no more. -/
partial def askLines (storeAt : Instant → Store σ) (prompt : Shell.Prompt) (state : σ)
    : IO Shell.Prompt := do
  write ⟨Shell.promptText, ""⟩
  match Text.lines (← (← IO.getStdin).getLine) with
  | [] => return prompt
  | line :: _ =>
      let shell := Shell.standard (storeAt (← now))
      let (goesOn, prompt, state, console) := shell.typeLine line prompt state .empty
      write console
      if goesOn then askLines storeAt prompt state else return prompt

/-- Runs a session at a terminal and keeps its history in a file, if there is one. -/
def atTerminal (storeAt : Instant → Store σ) (historyPath : Option String) (state : σ)
    : IO Unit := do
  let file ← historyPath.mapM readText
  let known := (file.bind Except.toOption).elim History.empty History.load
  let prompt ← askLines storeAt ⟨"", known⟩ state
  if prompt.history.changed then
    if let some path := historyPath then
      try IO.FS.writeFile path prompt.history.text catch _ => return

/-- Runs a session over a store and gives its code. -/
def runOver (storeAt : Instant → Store σ) (session : Program.Session) (state : σ)
    : IO UInt32 := do
  match session.task with
  | .line line =>
      let shell := Shell.standard (storeAt (← now))
      let (outcome, _, console) := shell.runLine line state .empty
      write console
      return (Program.codeOf outcome.isSuccess).toUInt32
  | .input =>
      if ← (← IO.getStdin).isTty then
        atTerminal storeAt (session.settings.historyPath (← IO.getEnv "HOME")) state
        return 0
      else
        let lines := Text.byteLines (← readInput .empty).toList
        let (answer, _) ← Shell.eachLine (takeLine storeAt) lines true state
        return (Program.codeOfAnswer answer).toUInt32

/-- Writes a report and gives its code. -/
def conclude (report : Program.Report) : IO UInt32 := do
  write report.console
  return report.code.toUInt32

/-- Runs the program. -/
def run (words : List String) : IO UInt32 := do
  match Arguments.read words with
  | .error stop => conclude (Program.stopped stop)
  | .ok arguments =>
      match Program.session arguments (← settingsFiles arguments) (← environment) with
      | .error report => conclude report
      | .ok session =>
          match session.target with
          | .memory => runOver Memory.store session .empty
          | .remote base =>
              let store := Remote.store base (.unreachable "no transport")
              runOver (fun _ => store) session ()

end GraphShell.CommandLine

/-- The entry of the program. -/
def main (words : List String) : IO UInt32 :=
  GraphShell.CommandLine.run words
