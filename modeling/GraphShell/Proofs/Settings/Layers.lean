import GraphShell.Program.Arguments
import GraphShell.Proofs.Text.Numerals
import GraphShell.Proofs.Text.Words
import GraphShell.Settings.Loading

/-! The settings that come out of their layers. The arguments lie above the environment, the
environment above the file, and the defaults below all of them; the uppermost layer that sets a
field decides it. A file or a variable that cannot be read stops the loading, the file first,
then the port, then the log format.
-/

namespace GraphShell.Settings

-----------------------------------------------------------------------------------------
-- What each source sets
-----------------------------------------------------------------------------------------

/-- The file that is read: the named one, or else the default one if it is there. -/
inductive Files.Chosen (files : Files) : Option String → String → Prop
  | named {path} : files.Chosen (some path) path
  | default (there : files.isFile defaultFile = true) : files.Chosen none defaultFile

/-- The layer of the chosen file, which sets nothing if there is none. -/
inductive Files.Sets (files : Files) : Option String → Layer → Prop
  | absent (missing : files.isFile defaultFile = false) : files.Sets none {}
  | read {path file text layer} (chosen : files.Chosen path file)
    (read : files.read file = .ok text) (parsed : Layer.ofFile? text = some layer)
    : files.Sets path layer

/-- The chosen file cannot be read, or its text is no settings file. -/
inductive Files.Fails (files : Files) : Option String → LoadError → Prop
  | unreadable {path file reason} (chosen : files.Chosen path file)
    (unread : files.read file = .error reason)
    : files.Fails path (.unreadable file reason)
  | malformed {path file text} (chosen : files.Chosen path file)
    (read : files.read file = .ok text) (unparsed : Layer.ofFile? text = none)
    : files.Fails path (.malformed file)

namespace Environment

/-- What a variable sets: nothing where it has no value, else what its value means without the
blanks around it. A variable whose value means nothing sets nothing, not even none.
-/
inductive Sets {α : Type} (environment : Environment) (name : String)
    (means : String → α → Prop)
    : Option α → Prop
  | unset (unset : environment name = none) : environment.Sets name means none
  | set {value inner a} (set : environment name = some value)
    (trims : Text.Trims value inner) (meant : means inner a)
    : environment.Sets name means (some a)

/-- The value of the variable means nothing, even without the blanks around it. -/
structure Wrong {α : Type} (environment : Environment) (name : String)
    (means : String → α → Prop) (value : String)
    : Prop where
  set : environment name = some value
  meaningless : ∀ inner a, Text.Trims value inner → ¬ means inner a

/-- The host that the environment sets: a value of blanks only counts as none. -/
inductive SetsHost (environment : Environment) : Option String → Prop
  | unset (unset : environment hostVariable = none) : environment.SetsHost none
  | blank {value} (set : environment hostVariable = some value) (trims : Text.Trims value "")
    : environment.SetsHost none
  | set {value inner} (set : environment hostVariable = some value)
    (trims : Text.Trims value inner) (full : inner ≠ "")
    : environment.SetsHost (some inner)

/-- The text is a count of 16 bits. -/
def IsPort (text : String) (port : UInt16) : Prop :=
  Text.IsCount text.toList port.toNat

/-- The text is the word of the log format, in any case of its letters. -/
def IsLogFormat (text : String) (format : LogFormat) : Prop :=
  text.toList.map Char.toLower = format.word.toList

end Environment

-----------------------------------------------------------------------------------------
-- Layers on top of each other
-----------------------------------------------------------------------------------------

/-- The value of the uppermost layer that sets one, or the default below all of them; the
layers are listed from the top.
-/
inductive Topmost {α : Type} (default : α) : List (Option α) → α → Prop
  | default : Topmost default [] default
  | set {value lower} : Topmost default (some value :: lower) value
  | unset {lower value} (below : Topmost default lower value)
    : Topmost default (none :: lower) value

theorem Topmost.getD {α : Type} {default value : α} {lower : List (Option α)}
    (below : Topmost default lower value) (top : Option α)
    : Topmost default (top :: lower) (top.getD value) := by
  cases top with
  | none => exact .unset below
  | some value => exact .set

theorem Topmost.unique {α : Type} {default first second : α} {layers : List (Option α)}
    (one : Topmost default layers first) (other : Topmost default layers second)
    : first = second := by
  induction one with
  | default | set =>
      cases other
      rfl
  | unset _ ih =>
      cases other with
      | unset below => exact ih below

/-- Every field of the settings has the value of the uppermost layer that sets it. The switch
of the arguments turns the history off, and cannot turn it on; the file of the history is set
by the settings file alone.
-/
structure Layered (arguments : Arguments) (host : Option String) (port : Option UInt16)
    (format : Option LogFormat) (file : Layer) (settings : Settings)
    : Prop where
  host : Topmost standard.host [arguments.host, host, file.host] settings.host
  port : Topmost standard.port [arguments.port, port, file.port] settings.port
  timeoutSeconds
    : Topmost standard.timeoutSeconds [arguments.timeoutSeconds, file.timeoutSeconds]
        settings.timeoutSeconds
  history
    : Topmost standard.history [if arguments.noHistory then some false else none, file.history]
        settings.history
  historyFile : settings.historyFile = file.historyFile
  logFormat : Topmost standard.logFormat [format, file.logFormat] settings.logFormat

/-- Putting each layer under the ones above it makes the layered settings. -/
theorem layered_under (arguments : Arguments) (host : Option String) (port : Option UInt16)
    (format : Option LogFormat) (file : Layer)
    : Layered arguments host port format file
        (((standard.under file).under { host := host, port := port, logFormat := format }).under
          arguments.layer) where
  host := ((Topmost.default.getD _).getD _).getD _
  port := ((Topmost.default.getD _).getD _).getD _
  timeoutSeconds := (Topmost.default.getD _).getD _
  history := (Topmost.default.getD _).getD _
  historyFile := by simp [under, Arguments.layer, standard]
  logFormat := (Topmost.default.getD _).getD _

theorem Layered.unique {arguments host port format file} {first second : Settings}
    (one : Layered arguments host port format file first)
    (other : Layered arguments host port format file second)
    : first = second := by
  obtain ⟨host₁, port₁, timeout₁, history₁, file₁, format₁⟩ := one
  obtain ⟨host₂, port₂, timeout₂, history₂, file₂, format₂⟩ := other
  cases first
  cases second
  rw [Settings.mk.injEq]
  exact ⟨host₁.unique host₂, port₁.unique port₂, timeout₁.unique timeout₂,
    history₁.unique history₂, file₁.trans file₂.symm, format₁.unique format₂⟩

-----------------------------------------------------------------------------------------
-- The file
-----------------------------------------------------------------------------------------

theorem readFile_eq_ok_iff {files : Files} {file : String} {layer : Layer}
    : readFile files file = .ok layer
      ↔ ∃ text, files.read file = .ok text ∧ Layer.ofFile? text = some layer := by
  unfold readFile
  cases read : files.read file with
  | error reason => simp
  | ok text => cases parsed : Layer.ofFile? text <;> simp [parsed]

theorem readFile_eq_error_iff {files : Files} {file : String} {error : LoadError}
    : readFile files file = .error error
      ↔ (∃ reason, files.read file = .error reason ∧ error = .unreadable file reason)
        ∨ ∃ text, files.read file = .ok text ∧ Layer.ofFile? text = none
            ∧ error = .malformed file := by
  unfold readFile
  cases read : files.read file with
  | error reason => simp [eq_comm]
  | ok text => cases parsed : Layer.ofFile? text <;> simp [parsed, eq_comm]

theorem Files.Chosen.fileLayer_eq {files : Files} {path : Option String} {file : String}
    (chosen : files.Chosen path file)
    : fileLayer files path = readFile files file := by
  cases chosen with
  | named => rfl
  | default there => exact if_pos there

/-- A file is chosen, unless none is named and the default one is not there. -/
theorem Files.chosen_or_absent (files : Files) (path : Option String)
    : (∃ file, files.Chosen path file) ∨ path = none ∧ files.isFile defaultFile = false := by
  cases path with
  | some path => exact .inl ⟨path, .named⟩
  | none =>
      cases there : files.isFile defaultFile with
      | true => exact .inl ⟨defaultFile, .default there⟩
      | false => exact .inr ⟨rfl, rfl⟩

theorem fileLayer_of_absent {files : Files} (missing : files.isFile defaultFile = false)
    : fileLayer files none = .ok {} :=
  if_neg (by simp [missing])

theorem fileLayer_eq_ok_iff {files : Files} {path : Option String} {layer : Layer}
    : fileLayer files path = .ok layer ↔ files.Sets path layer := by
  constructor
  · intro loaded
    obtain ⟨file, chosen⟩ | ⟨rfl, missing⟩ := files.chosen_or_absent path
    · rw [chosen.fileLayer_eq, readFile_eq_ok_iff] at loaded
      obtain ⟨text, read, parsed⟩ := loaded
      exact .read chosen read parsed
    · rw [fileLayer_of_absent missing, Except.ok.injEq] at loaded
      exact loaded ▸ .absent missing
  · rintro (missing | ⟨chosen, read, parsed⟩)
    · exact fileLayer_of_absent missing
    · rw [chosen.fileLayer_eq, readFile_eq_ok_iff]
      exact ⟨_, read, parsed⟩

theorem fileLayer_eq_error_iff {files : Files} {path : Option String} {error : LoadError}
    : fileLayer files path = .error error ↔ files.Fails path error := by
  constructor
  · intro failed
    obtain ⟨file, chosen⟩ | ⟨rfl, missing⟩ := files.chosen_or_absent path
    · rw [chosen.fileLayer_eq, readFile_eq_error_iff] at failed
      obtain ⟨reason, unread, rfl⟩ | ⟨text, read, unparsed, rfl⟩ := failed
      · exact .unreadable chosen unread
      · exact .malformed chosen read unparsed
    · rw [fileLayer_of_absent missing] at failed
      cases failed
  · rintro (⟨chosen, unread⟩ | ⟨chosen, read, unparsed⟩) <;>
      rw [chosen.fileLayer_eq, readFile_eq_error_iff]
    · exact .inl ⟨_, unread, rfl⟩
    · exact .inr ⟨_, read, unparsed, rfl⟩

-----------------------------------------------------------------------------------------
-- The environment
-----------------------------------------------------------------------------------------

namespace Environment

section Reading

variable {α : Type} {environment : Environment} {name : String}
  {reader : String → Option α} {means : String → α → Prop}
  (reads : ∀ text a, reader text = some a ↔ means text a)

include reads

theorem read_eq_ok_iff {setting : Option α}
    : environment.read name reader = .ok setting ↔ environment.Sets name means setting := by
  constructor
  · intro found
    unfold read at found
    split at found
    · next unset =>
        cases found
        exact .unset unset
    · next value set =>
        cases meant : reader (Text.trimmed value) with
        | none => simp [meant] at found
        | some a =>
            simp only [meant, Option.elim_some, Except.ok.injEq] at found
            exact found ▸ .set set (Text.trims_trimmed value) ((reads _ a).mp meant)
  · rintro (unset | ⟨set, trims, meant⟩)
    · simp [read, unset]
    · simp [read, set, trims.trimmed_eq, (reads _ _).mpr meant]

theorem read_eq_error_iff {wrong : WrongVariable}
    : environment.read name reader = .error wrong
      ↔ ∃ value, environment.Wrong name means value ∧ wrong = ⟨name, value⟩ := by
  constructor
  · intro failed
    unfold read at failed
    split at failed
    · cases failed
    · next value set =>
        cases meant : reader (Text.trimmed value) with
        | some a => simp [meant] at failed
        | none =>
            simp only [meant, Option.elim_none, Except.error.injEq] at failed
            refine ⟨value, ⟨set, fun inner a trims means => ?_⟩, failed.symm⟩
            rw [trims.trimmed_eq, (reads inner a).mpr means] at meant
            cases meant
  · rintro ⟨value, wrong, rfl⟩
    have none : reader (Text.trimmed value) = none :=
      Option.eq_none_iff_forall_ne_some.mpr fun a found =>
        wrong.meaningless _ a (Text.trims_trimmed value) ((reads _ a).mp found)
    simp [read, wrong.set, none]

end Reading

theorem readPort_iff (text : String) (port : UInt16)
    : (Text.readCount? UInt16.size text.toList).map UInt16.ofNat = some port
      ↔ IsPort text port := by
  simp only [Option.map_eq_some_iff, Text.readCount?_eq_some_iff]
  constructor
  · rintro ⟨n, ⟨count, small⟩, rfl⟩
    rwa [IsPort, UInt16.toNat_ofNat_of_lt' small]
  · intro count
    exact ⟨port.toNat, ⟨count, port.toNat_lt⟩, UInt16.ofNat_toNat⟩

theorem readLogFormat_iff (text : String) (format : LogFormat)
    : LogFormat.ofWord? (String.ofList (text.toList.map Char.toLower)) = some format
      ↔ IsLogFormat text format := by
  constructor
  · intro found
    have same := List.find?_some found
    rw [IsLogFormat, decide_eq_true_eq.mp same, String.toList_ofList]
  · intro (same : text.toList.map Char.toLower = format.word.toList)
    rw [same, String.ofList_toList]
    cases format <;> rfl

theorem port_eq_ok_iff {environment : Environment} {setting : Option UInt16}
    : environment.port = .ok setting ↔ environment.Sets portVariable IsPort setting :=
  read_eq_ok_iff readPort_iff

theorem port_eq_error_iff {environment : Environment} {wrong : WrongVariable}
    : environment.port = .error wrong
      ↔ ∃ value, environment.Wrong portVariable IsPort value ∧ wrong = ⟨portVariable, value⟩ :=
  read_eq_error_iff readPort_iff

theorem logFormat_eq_ok_iff {environment : Environment} {setting : Option LogFormat}
    : environment.logFormat = .ok setting
      ↔ environment.Sets logFormatVariable IsLogFormat setting :=
  read_eq_ok_iff readLogFormat_iff

theorem logFormat_eq_error_iff {environment : Environment} {wrong : WrongVariable}
    : environment.logFormat = .error wrong
      ↔ ∃ value, environment.Wrong logFormatVariable IsLogFormat value
          ∧ wrong = ⟨logFormatVariable, value⟩ :=
  read_eq_error_iff readLogFormat_iff

theorem setsHost_iff {environment : Environment} {host : Option String}
    : environment.host = host ↔ environment.SetsHost host := by
  constructor
  · rintro rfl
    cases found : environment hostVariable with
    | none => simpa [Environment.host, found] using SetsHost.unset found
    | some value =>
        have trims := Text.trims_trimmed value
        by_cases blank : Text.trimmed value = ""
        · rw [blank] at trims
          simpa [Environment.host, found, Option.filter_some, blank]
            using SetsHost.blank found trims
        · simpa [Environment.host, found, Option.filter_some, blank]
            using SetsHost.set found trims blank
  · rintro (unset | ⟨set, trims⟩ | ⟨set, trims, full⟩)
    · simp [Environment.host, unset]
    · simp [Environment.host, set, trims.trimmed_eq]
    · simp [Environment.host, set, trims.trimmed_eq, full]

end Environment

-----------------------------------------------------------------------------------------
-- Loading
-----------------------------------------------------------------------------------------

/-- The first of the file, the port and the log format that fails, with its error. -/
inductive FirstFailure (files : Files) (path : Option String) (environment : Environment)
    : LoadError → Prop
  | file {error} (fails : files.Fails path error) : FirstFailure files path environment error
  | port {file value} (sets : files.Sets path file)
    (wrong : environment.Wrong portVariable Environment.IsPort value)
    : FirstFailure files path environment (.wrongVariable ⟨portVariable, value⟩)
  | logFormat {file port value} (sets : files.Sets path file)
    (setsPort : environment.Sets portVariable Environment.IsPort port)
    (wrong : environment.Wrong logFormatVariable Environment.IsLogFormat value)
    : FirstFailure files path environment (.wrongVariable ⟨logFormatVariable, value⟩)

/-- Loading succeeds as far as its three readers do, and puts the layers together. -/
theorem load_eq_ok_iff {files : Files} {path : Option String} {environment : Environment}
    {flags : Layer} {settings : Settings}
    : load files path environment flags = .ok settings
      ↔ ∃ file port format,
          fileLayer files path = .ok file
          ∧ environment.port = .ok port
          ∧ environment.logFormat = .ok format
          ∧ settings
            = ((standard.under file).under
                { host := environment.host, port := port, logFormat := format }).under flags := by
  unfold load Environment.layer
  cases fileLayer files path with
  | error => simp [bind, Except.bind]
  | ok file =>
      cases environment.port with
      | error => simp [bind, Except.bind]
      | ok port =>
          cases environment.logFormat <;> simp [bind, Except.bind, eq_comm]

theorem load_eq_error_iff {files : Files} {path : Option String} {environment : Environment}
    {flags : Layer} {error : LoadError}
    : load files path environment flags = .error error
      ↔ fileLayer files path = .error error
        ∨ (∃ file, fileLayer files path = .ok file)
          ∧ ((∃ wrong, environment.port = .error wrong ∧ error = .wrongVariable wrong)
            ∨ (∃ port, environment.port = .ok port)
              ∧ ∃ wrong, environment.logFormat = .error wrong
                  ∧ error = .wrongVariable wrong) := by
  unfold load Environment.layer
  cases fileLayer files path with
  | error => simp [bind, Except.bind]
  | ok file =>
      cases environment.port with
      | error => simp [bind, Except.bind, eq_comm]
      | ok port =>
          cases environment.logFormat <;> simp [bind, Except.bind, eq_comm]

theorem load_eq_ok_iff_layered {files : Files} {path : Option String}
    {environment : Environment} {arguments : Arguments} {settings : Settings}
    : load files path environment arguments.layer = .ok settings
      ↔ ∃ file host port format,
          files.Sets path file
          ∧ environment.SetsHost host
          ∧ environment.Sets portVariable Environment.IsPort port
          ∧ environment.Sets logFormatVariable Environment.IsLogFormat format
          ∧ Layered arguments host port format file settings := by
  simp only [load_eq_ok_iff, fileLayer_eq_ok_iff, Environment.port_eq_ok_iff,
    Environment.logFormat_eq_ok_iff]
  constructor
  · rintro ⟨file, port, format, setsFile, setsPort, setsFormat, rfl⟩
    exact ⟨file, environment.host, port, format, setsFile, Environment.setsHost_iff.mp rfl,
      setsPort, setsFormat, layered_under ..⟩
  · rintro ⟨file, host, port, format, setsFile, setsHost, setsPort, setsFormat, layered⟩
    obtain rfl := Environment.setsHost_iff.mpr setsHost
    exact ⟨file, port, format, setsFile, setsPort, setsFormat,
      layered.unique (layered_under ..)⟩

theorem load_eq_error_iff_first {files : Files} {path : Option String}
    {environment : Environment} {flags : Layer} {error : LoadError}
    : load files path environment flags = .error error
      ↔ FirstFailure files path environment error := by
  simp only [load_eq_error_iff, fileLayer_eq_ok_iff, fileLayer_eq_error_iff,
    Environment.port_eq_ok_iff, Environment.port_eq_error_iff,
    Environment.logFormat_eq_error_iff]
  constructor
  · rintro (fails | ⟨⟨file, sets⟩, ⟨_, ⟨value, wrong, rfl⟩, rfl⟩
      | ⟨⟨port, setsPort⟩, _, ⟨value, wrong, rfl⟩, rfl⟩⟩)
    · exact .file fails
    · exact .port sets wrong
    · exact .logFormat sets setsPort wrong
  · rintro (fails | ⟨sets, wrong⟩ | ⟨sets, setsPort, wrong⟩)
    · exact .inl fails
    · exact .inr ⟨⟨_, sets⟩, .inl ⟨_, ⟨_, wrong, rfl⟩, rfl⟩⟩
    · exact .inr ⟨⟨_, sets⟩, .inr ⟨⟨_, setsPort⟩, _, ⟨_, wrong, rfl⟩, rfl⟩⟩

/-- Loading succeeds exactly where the file, the port and the log format can be read, each of
them absent or in order; every field then has the value of the uppermost layer that sets it.
Where it fails, the error is that of the first of the three that cannot be read.
-/
theorem load_by_layers (files : Files) (path : Option String) (environment : Environment)
    (arguments : Arguments)
    : ((∃ settings, load files path environment arguments.layer = .ok settings)
        ↔ (∃ file, files.Sets path file)
          ∧ (∃ port, environment.Sets portVariable Environment.IsPort port)
          ∧ ∃ format, environment.Sets logFormatVariable Environment.IsLogFormat format)
      ∧ (∀ settings,
          load files path environment arguments.layer = .ok settings
          ↔ ∃ file host port format,
              files.Sets path file
              ∧ environment.SetsHost host
              ∧ environment.Sets portVariable Environment.IsPort port
              ∧ environment.Sets logFormatVariable Environment.IsLogFormat format
              ∧ Layered arguments host port format file settings)
      ∧ ∀ error,
          load files path environment arguments.layer = .error error
          ↔ FirstFailure files path environment error := by
  refine ⟨?_, fun settings => load_eq_ok_iff_layered, fun error => load_eq_error_iff_first⟩
  constructor
  · rintro ⟨settings, loaded⟩
    obtain ⟨file, _, port, format, setsFile, _, setsPort, setsFormat, _⟩ :=
      load_eq_ok_iff_layered.mp loaded
    exact ⟨⟨file, setsFile⟩, ⟨port, setsPort⟩, format, setsFormat⟩
  · rintro ⟨⟨file, setsFile⟩, ⟨port, setsPort⟩, format, setsFormat⟩
    exact ⟨_, load_eq_ok_iff_layered.mpr ⟨file, environment.host, port, format, setsFile,
      Environment.setsHost_iff.mp rfl, setsPort, setsFormat, layered_under ..⟩⟩

end GraphShell.Settings
