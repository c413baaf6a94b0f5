import GraphShell.Program.Arguments
import GraphShell.Remote.Store
import GraphShell.Settings.Loading
import GraphShell.Shell.Session
import GraphShell.Store.Memory

/-! The program from its arguments to its exit: a notice, which is its help, its version or what is
wrong with its arguments, or a session over one of the two stores. A session runs the command of
the arguments, or else the lines of the input.
-/

namespace GraphShell.Arguments

-----------------------------------------------------------------------------------------
-- Notices
-----------------------------------------------------------------------------------------

/-- The notice of the version. -/
def versionText : String := "lantern 0.4.0\n"

/-- The notice of the arguments that there are. -/
def helpText : String :=
  "\n".intercalate
    ["Lantern CLI - interactive shell for the Lantern graph store",
      "",
      "Usage: lantern [OPTIONS] [COMMAND]...",
      "",
      "Arguments:",
      "  [COMMAND]...  Run a single command and exit, e.g. `lantern get vertex alice`",
      "",
      "Options:",
      "  -H, --host <HOST>        Store host",
      "  -p, --port <PORT>        Store port",
      "  -c, --config <CONFIG>    Path to a TOML config file (default: ./lantern.toml when present)",
      "  -m, --memory             Use a volatile in-memory store instead of a remote one",
      "  -t, --timeout <TIMEOUT>  Request timeout in seconds",
      "  -v, --verbose            Enable debug logging",
      "  -q, --quiet              Only log errors",
      "      --no-history         Do not read or write the history file",
      "  -h, --help               Print help",
      "  -V, --version            Print version",
      ""]

/-- The complaint about wrong arguments. -/
def complaint : Stop → String
  | .wrongValue => "error: invalid value for an argument"
  | .missingValue => "error: an argument needs a value"
  | .needlessValue => "error: an argument takes no value"
  | .conflict => "error: arguments cannot be used together"
  | .help | .version => ""

end GraphShell.Arguments

namespace GraphShell.Program

-----------------------------------------------------------------------------------------
-- Sessions
-----------------------------------------------------------------------------------------

/-- How the program ended: the code for its caller and what it has written. -/
structure Report where
  code : Nat
  console : Console
deriving DecidableEq, Repr

/-- The code of a session in which something failed. -/
def failureCode : Nat := 1

/-- The code of a program that never came to a session. -/
def refusalCode : Nat := 2

/-- The report of a stop. -/
def stopped : Arguments.Stop → Report
  | .help => ⟨0, ⟨Arguments.helpText, ""⟩⟩
  | .version => ⟨0, ⟨Arguments.versionText, ""⟩⟩
  | stop => ⟨refusalCode, .complain (Arguments.complaint stop) .empty⟩

/-- The report of settings that cannot be loaded. -/
def unsettled (error : Settings.LoadError) : Report :=
  ⟨refusalCode, .complain ("lantern: " ++ error.message) .empty⟩

/-- The store that a session is over. -/
inductive Target
  | memory
  | remote (base : Url)
deriving DecidableEq, Repr

/-- What a session runs: one line, or the lines of the input. -/
inductive Task
  | line (line : String)
  | input
deriving DecidableEq, Repr

/-- A session that can begin. -/
structure Session where
  settings : Settings
  target : Target
  task : Task

/-- The task of the arguments. -/
def task (arguments : Arguments) : Task :=
  if arguments.command.isEmpty then .input else .line (" ".intercalate arguments.command)

/-- The session that the arguments ask for, or the report that there is none. What is wrong
with the address of a store goes to the log only.
-/
def session (arguments : Arguments) (files : Settings.Files) (environment : Settings.Environment)
    : Except Report Session := do
  let settings ←
    (Settings.load files arguments.settingsPath environment arguments.layer).mapError unsettled
  if arguments.memory then return ⟨settings, .memory, task arguments⟩
  else
    match Url.endpoint settings.baseUrl with
    | .error _ => throw ⟨failureCode, .empty⟩
    | .ok base => return ⟨settings, .remote base, task arguments⟩

/-- The code of a session. -/
def codeOf (success : Bool) : Nat :=
  if success then 0 else failureCode

/-- The code of a session over the lines of the input, which may be no text. -/
def codeOfAnswer : Except String Bool → Nat
  | .ok success => codeOf success
  | .error _ => failureCode

variable {σ τ : Type}

/-- Runs a task over a store. -/
def runTask (store : Store σ) (task : Task) (input : List UInt8) (state : σ) : Report :=
  let shell := Shell.standard store
  match task with
  | .line line =>
      let (outcome, _, console) := shell.runLine line state .empty
      ⟨codeOf outcome.isSuccess, console⟩
  | .input =>
      let (answer, _, console) := shell.pipe input state .empty
      ⟨codeOfAnswer answer, console⟩

/-- Runs the program on its arguments and its input, all at one clock reading. -/
def run (words : List String) (files : Settings.Files) (environment : Settings.Environment)
    (input : List UInt8) (now : Instant) (transport : Transport τ) (state : τ)
    : Report :=
  match Arguments.read words with
  | .error stop => stopped stop
  | .ok arguments =>
      match session arguments files environment with
      | .error report => report
      | .ok { target := .memory, task, .. } => runTask (Memory.store now) task input .empty
      | .ok { target := .remote base, task, .. } =>
          runTask (Remote.store base transport) task input state

end GraphShell.Program
