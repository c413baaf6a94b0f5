import GraphShell.Text.Numeral
import GraphShell.Text.Splitting
import GraphShell.Toml.Document

/-! The settings of a session, put together from all layers: the defaults, a file, the environment
and the flags of the command line. A higher layer hides what a lower one sets. The environment has
three variables, whose values count without the blanks around them: a blank host is no host, a
wrong port or log format is an error. A file is a flat TOML document whose keys are the names of
settings, each with a value of its kind; a log format written as a table under a header of its own
is left out.
-/

namespace GraphShell

-----------------------------------------------------------------------------------------
-- Settings
-----------------------------------------------------------------------------------------

/-- The form of log lines. -/
inductive LogFormat
  | text
  | json
deriving DecidableEq, Repr

namespace LogFormat

/-- The log formats. -/
def all : List LogFormat := [text, json]

/-- The spelling of a log format. -/
def word : LogFormat → String
  | text => "text"
  | json => "json"

/-- The log format with a spelling. -/
def ofWord? (word : String) : Option LogFormat :=
  all.find? fun format => format.word = word

end LogFormat

/-- The settings of a session. -/
structure Settings where
  host : String
  port : UInt16
  timeoutSeconds : UInt64
  history : Bool
  historyFile : Option String
  logFormat : LogFormat
deriving DecidableEq, Repr

namespace Settings

/-- Some of the settings. -/
structure Layer where
  host : Option String := none
  port : Option UInt16 := none
  timeoutSeconds : Option UInt64 := none
  history : Option Bool := none
  historyFile : Option String := none
  logFormat : Option LogFormat := none
deriving DecidableEq, Repr

/-- The settings where no layer sets any. -/
def standard : Settings where
  host := "localhost"
  port := 6380
  timeoutSeconds := 10
  history := true
  historyFile := none
  logFormat := .text

/-- The settings under a layer. -/
def under (layer : Layer) (settings : Settings) : Settings where
  host := layer.host.getD settings.host
  port := layer.port.getD settings.port
  timeoutSeconds := layer.timeoutSeconds.getD settings.timeoutSeconds
  history := layer.history.getD settings.history
  historyFile := layer.historyFile <|> settings.historyFile
  logFormat := layer.logFormat.getD settings.logFormat

/-- The address of the store. -/
def baseUrl (settings : Settings) : String :=
  "http://" ++ settings.host ++ ":" ++ String.ofList (Text.numeral settings.port.toNat) ++ "/"

/-- The path of a file in a folder. -/
def inFolder (folder file : String) : String :=
  if folder.isEmpty ∨ folder.toList.getLast? = some '/' then folder ++ file
  else folder ++ "/" ++ file

/-- The file of the history in the home folder. -/
def historyName : String := ".lantern_history"

/-- Where the history is kept, if it is kept at all. -/
def historyPath (home : Option String) (settings : Settings) : Option String :=
  if settings.history then
    settings.historyFile <|> home.map fun home => inFolder home historyName
  else none

end Settings

end GraphShell

namespace GraphShell.Settings

-----------------------------------------------------------------------------------------
-- Environment
-----------------------------------------------------------------------------------------

/-- The variable that sets the host. -/
def hostVariable : String := "LANTERN_HOST"

/-- The variable that sets the port. -/
def portVariable : String := "LANTERN_PORT"

/-- The variable that sets the log format. -/
def logFormatVariable : String := "LANTERN_LOG_FORMAT"

/-- A variable with a value that it cannot have. -/
structure WrongVariable where
  name : String
  value : String
deriving DecidableEq, Repr

/-- The values of the variables that are set. -/
abbrev Environment := String → Option String

namespace Environment

/-- The value of a variable as a reader understands it without blanks; none if the variable
is not set.
-/
def read {α : Type} (environment : Environment) (name : String) (reader : String → Option α)
    : Except WrongVariable (Option α) :=
  match environment name with
  | none => .ok none
  | some value => (reader (Text.trimmed value)).elim (.error ⟨name, value⟩) (.ok <| some ·)

/-- The host, unless it is blank. -/
def host (environment : Environment) : Option String :=
  ((environment hostVariable).map Text.trimmed).filter fun host => !host.isEmpty

/-- The port. -/
def port (environment : Environment) : Except WrongVariable (Option UInt16) :=
  environment.read portVariable fun value =>
    (Text.readCount? UInt16.size value.toList).map UInt16.ofNat

/-- The log format, in any case of letters. -/
def logFormat (environment : Environment) : Except WrongVariable (Option LogFormat) :=
  environment.read logFormatVariable fun value =>
    LogFormat.ofWord? (String.ofList (value.toList.map Char.toLower))

/-- The layer of the environment, as far as it can be read, and the first wrong variable. -/
def layer (environment : Environment) : Layer × Option WrongVariable :=
  match environment.port with
  | .error wrong => ({ host := environment.host }, some wrong)
  | .ok port =>
      match environment.logFormat with
      | .error wrong => ({ host := environment.host, port := port }, some wrong)
      | .ok format => ({ host := environment.host, port := port, logFormat := format }, none)

end Environment

namespace Layer

-----------------------------------------------------------------------------------------
-- Files
-----------------------------------------------------------------------------------------

/-- The text of a text value. -/
def textOf? : Toml.Value → Option String
  | .text value => some value
  | _ => none

/-- The name of a choice, which a text or a mark spells. -/
def choiceOf? : Toml.Value → Option String
  | .text value => some value
  | .mark name => some name
  | _ => none

/-- The count below a limit of an integer value. -/
def countOf? (limit : Nat) : Toml.Value → Option Nat
  | .integer value => if 0 ≤ value ∧ value < limit then some value.toNat else none
  | _ => none

/-- The truth of a truth value. -/
def truthOf? : Toml.Value → Option Bool
  | .boolean value => some value
  | _ => none

/-- The layer with one more setting; none if the key names no setting, or one of another kind
than the value.
-/
def set? (layer : Layer) (key : String) (value : Toml.Value) : Option Layer :=
  match key with
  | "host" => (textOf? value).map fun host => { layer with host := some host }
  | "port" => (countOf? UInt16.size value).map fun port =>
      { layer with port := some (UInt16.ofNat port) }
  | "timeout_secs" => (countOf? UInt64.size value).map fun seconds =>
      { layer with timeoutSeconds := some (UInt64.ofNat seconds) }
  | "history" => (truthOf? value).map fun history => { layer with history := some history }
  | "history_file" => (textOf? value).map fun file => { layer with historyFile := some file }
  | "log_format" => (choiceOf? value >>= LogFormat.ofWord?).map fun format =>
      { layer with logFormat := some format }
  | _ => none

/-- The layer of the text of a settings file. -/
def ofFile? (text : String) : Option Layer := do
  (← Toml.read? text).foldlM (fun layer (key, value) => layer.set? key value) {}

end Layer

-----------------------------------------------------------------------------------------
-- Layers
-----------------------------------------------------------------------------------------

/-- Why there are no settings. -/
inductive LoadError
  | unreadable (path reason : String)
  | malformed (path : String)
  | wrongVariable (wrong : WrongVariable)
deriving DecidableEq, Repr

/-- The text of a wrong variable. -/
def WrongVariable.message (wrong : WrongVariable) : String :=
  "invalid value `" ++ wrong.value ++ "` for " ++ wrong.name

/-- The text of a cause. -/
def LoadError.message : LoadError → String
  | unreadable path reason => "cannot read config file " ++ path ++ ": " ++ reason
  | malformed path => "invalid config file " ++ path
  | wrongVariable wrong => wrong.message

/-- The files that can be named: which paths are files, and the texts behind paths or why
there is none.
-/
structure Files where
  isFile : String → Bool
  read : String → Except String String

/-- The file that is read where none is named, if it is there. -/
def defaultFile : String := "lantern.toml"

/-- The layer of the file at a path. -/
def readFile (files : Files) (path : String) : Except LoadError Layer :=
  match files.read path with
  | .error reason => .error (.unreadable path reason)
  | .ok text => (Layer.ofFile? text).elim (.error (.malformed path)) .ok

/-- The layer of the named file, or of the default one if it is there. -/
def fileLayer (files : Files) (path : Option String) : Except LoadError Layer :=
  match path with
  | some path => readFile files path
  | none => if files.isFile defaultFile then readFile files defaultFile else .ok {}

/-- The settings of all layers. -/
def load (files : Files) (path : Option String) (environment : Environment) (flags : Layer)
    : Except LoadError Settings := do
  let file ← fileLayer files path
  match environment.layer with
  | (_, some wrong) => .error (.wrongVariable wrong)
  | (layer, none) => .ok (((standard.under file).under layer).under flags)

end GraphShell.Settings
