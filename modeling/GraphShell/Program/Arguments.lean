import GraphShell.Settings.Loading
import GraphShell.Text.Splitting

/-! The arguments of the program: switches and parameters in front, and the words of a command
behind them. A word that is neither a switch nor a parameter begins the command, however it is
spelled, and from there on every word belongs to it.
-/

namespace GraphShell

/-- What the arguments ask for. -/
structure Arguments where
  host : Option String := none
  port : Option UInt16 := none
  timeoutSeconds : Option UInt64 := none
  settingsPath : Option String := none
  memory : Bool := false
  verbose : Bool := false
  quiet : Bool := false
  noHistory : Bool := false
  command : List String := []
deriving DecidableEq, Repr

namespace Arguments

/-- An argument that stands for itself. -/
inductive Switch
  | memory
  | verbose
  | quiet
  | noHistory
  | help
  | version
deriving DecidableEq, Repr

/-- An argument that a value follows. -/
inductive Parameter
  | host
  | port
  | settingsPath
  | timeout
deriving DecidableEq, Repr

/-- An argument with a name. -/
inductive Named
  | switch (switch : Switch)
  | parameter (parameter : Parameter)
deriving DecidableEq, Repr

/-- The named arguments. -/
def Named.all : List Named :=
  [Parameter.host, .port, .settingsPath, .timeout].map parameter
    ++ [Switch.memory, .verbose, .quiet, .noHistory, .help, .version].map switch

/-- The name behind two hyphens. -/
def Named.long : Named → String
  | parameter .host => "host"
  | parameter .port => "port"
  | parameter .settingsPath => "config"
  | parameter .timeout => "timeout"
  | switch .memory => "memory"
  | switch .verbose => "verbose"
  | switch .quiet => "quiet"
  | switch .noHistory => "no-history"
  | switch .help => "help"
  | switch .version => "version"

/-- The letter behind one hyphen. -/
def Named.short? : Named → Option Char
  | parameter .host => some 'H'
  | parameter .port => some 'p'
  | parameter .settingsPath => some 'c'
  | parameter .timeout => some 't'
  | switch .memory => some 'm'
  | switch .verbose => some 'v'
  | switch .quiet => some 'q'
  | switch .noHistory => none
  | switch .help => some 'h'
  | switch .version => some 'V'

/-- The argument with a long name. -/
def Named.ofLong? (name : List Char) : Option Named :=
  all.find? fun named => named.long.toList = name

/-- The argument with a letter. -/
def Named.ofShort? (letter : Char) : Option Named :=
  all.find? fun named => named.short? = some letter

/-- Why nothing is run: the arguments are wrong, or ask for a notice only. -/
inductive Stop
  | wrongValue
  | missingValue
  | needlessValue
  | conflict
  | help
  | version
deriving DecidableEq, Repr

/-- The arguments with the value of a parameter set. -/
def setParameter (arguments : Arguments) (value : String) : Parameter → Except Stop Arguments
  | .host => .ok { arguments with host := some value }
  | .port =>
      match (Text.readInteger? value.toList).filter fun n => 0 ≤ n ∧ n.toNat < UInt16.size with
      | none => .error .wrongValue
      | some port => .ok { arguments with port := some (UInt16.ofInt port) }
  | .timeout =>
      match Text.readCount? UInt64.size value.toList with
      | none => .error .wrongValue
      | some seconds => .ok { arguments with timeoutSeconds := some (UInt64.ofNat seconds) }
  | .settingsPath =>
      if value.isEmpty then .error .missingValue
      else .ok { arguments with settingsPath := some value }

/-- The arguments with a switch set. -/
def setSwitch (arguments : Arguments) : Switch → Except Stop Arguments
  | .memory => .ok { arguments with memory := true }
  | .verbose => .ok { arguments with verbose := true }
  | .quiet => .ok { arguments with quiet := true }
  | .noHistory => .ok { arguments with noHistory := true }
  | .help => .error .help
  | .version => .error .version

/-- What reading has come to: the arguments so far, the names already given, and the parameter
that was named last, with its value as soon as that is there.
-/
structure Reading where
  arguments : Arguments
  given : List Named
  pending : Option (Parameter × Option String)

namespace Reading

/-- Nothing has been read. -/
def start : Reading :=
  ⟨{}, [], none⟩

/-- Notes that a name is given; none may be given twice. -/
def note (named : Named) (reading : Reading) : Except Stop Reading :=
  if reading.given.contains named then .error .conflict
  else .ok { reading with given := named :: reading.given }

/-- Sets a parameter. -/
def assign (parameter : Parameter) (value : String) (reading : Reading)
    : Except Stop Reading := do
  let reading ← reading.note (.parameter parameter)
  return { reading with arguments := ← setParameter reading.arguments value parameter }

/-- Sets the pending parameter, which needs its value by now. -/
def resolve (reading : Reading) : Except Stop Reading :=
  match reading.pending with
  | none => .ok reading
  | some (_, none) => .error .missingValue
  | some (parameter, some value) => { reading with pending := none }.assign parameter value

/-- Takes a switch. -/
def takeSwitch (switch : Switch) (reading : Reading) : Except Stop Reading := do
  let reading ← (← reading.resolve).note (.switch switch)
  return { reading with arguments := ← setSwitch reading.arguments switch }

/-- Takes a parameter, whose value may be attached to its name. -/
def takeParameter (parameter : Parameter) (attached : Option String) (reading : Reading)
    : Except Stop Reading := do
  let reading ← reading.resolve
  match attached with
  | some value => reading.assign parameter value
  | none => return { reading with pending := some (parameter, none) }

/-- Takes an argument under its long name. -/
def takeLong (named : Named) (attached : Option String) (reading : Reading)
    : Except Stop Reading :=
  match named, attached with
  | .switch _, some _ => .error .needlessValue
  | .switch switch, none => reading.takeSwitch switch
  | .parameter parameter, attached => reading.takeParameter parameter attached

/-- Takes the arguments of a run of letters; what stands behind the letter of a parameter is
its value.
-/
def takeLetters : List Char → Reading → Except Stop Reading
  | [], reading => .ok reading
  | letter :: rest, reading =>
      match Named.ofShort? letter with
      | none => .ok reading
      | some (.switch switch) => reading.takeSwitch switch >>= takeLetters rest
      | some (.parameter parameter) =>
          reading.takeParameter parameter
            (if rest.isEmpty then none else some (String.ofList rest))

end Reading

/-- What a word is in front of the command. -/
inductive Word
  | separator
  | long (named : Named) (attached : Option String)
  | letters (letters : List Char)
  | plain

/-- The kind of a word: it names arguments only if all the names in it are known. -/
def Word.ofText (word : String) : Word :=
  match word.toList with
  | ['-', '-'] => separator
  | '-' :: '-' :: text =>
      let (name, attached) := Text.cut (· = '=') text
      (Named.ofLong? name).elim plain fun named => long named (attached.map String.ofList)
  | '-' :: letter :: more =>
      if (letter :: more).all fun letter => (Named.ofShort? letter).isSome then
        letters (letter :: more)
      else plain
  | _ => plain

/-- The arguments that have been read, with the words of the command. -/
def finish (reading : Reading) (command : List String) : Except Stop Arguments := do
  let { arguments, .. } ← reading.resolve
  if arguments.verbose && arguments.quiet then throw .conflict
  return { arguments with command := command }

/-- Reads the words behind the ones already read. -/
def readWords (reading : Reading) : List String → Except Stop Arguments
  | [] => finish reading []
  | word :: rest =>
      match Word.ofText word with
      | .separator => finish reading rest
      | .long named attached => do readWords (← reading.takeLong named attached) rest
      | .letters letters => do readWords (← reading.takeLetters letters) rest
      | .plain =>
          match reading.pending with
          | some (parameter, none) =>
              readWords { reading with pending := some (parameter, some word) } rest
          | _ => finish reading (word :: rest)

/-- Reads the arguments of the program. -/
def read (words : List String) : Except Stop Arguments :=
  readWords .start words

/-- The settings that the arguments make. -/
def layer (arguments : Arguments) : Settings.Layer where
  host := arguments.host
  port := arguments.port
  timeoutSeconds := arguments.timeoutSeconds
  history := if arguments.noHistory then some false else none

/-- The log lines that show, where nothing else says so. -/
def logFilter (arguments : Arguments) : String :=
  if arguments.verbose then "lantern=debug"
  else if arguments.quiet then "lantern=error"
  else "lantern=info"

end Arguments

end GraphShell
