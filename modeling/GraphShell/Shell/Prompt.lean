import GraphShell.Shell.Session
import GraphShell.Text.Marks
import GraphShell.Text.Splitting

/-! Lines typed at a prompt. A line that is no command is refused: its hint is shown, and what is
typed next is appended to it until the whole is a command. The lines entered are kept from session
to session in a file, which begins with a mark of its version; an older one without the mark holds
the lines as they are.
-/

namespace GraphShell

-----------------------------------------------------------------------------------------
-- History
-----------------------------------------------------------------------------------------

/-- The lines entered, the oldest first, and whether any is newer than the file. -/
structure History where
  entries : List String
  changed : Bool
deriving DecidableEq, Repr

namespace History

/-- No more lines than these are kept. -/
def capacity : Nat := 100

/-- The first line of a file whose entries are escaped. -/
def versionMark : String := "#V2"

/-- No line entered yet. -/
def empty : History :=
  ⟨[], false⟩

/-- Whether a line is not kept: an empty one, one that begins with a blank, or the same as
the latest one.
-/
def ignores (history : History) (line : String) : Bool :=
  match line.toList with
  | [] => true
  | c :: _ => Text.isBlank c || history.entries.getLast? == some line

/-- Keeps a line, at the cost of the oldest one if there are too many. -/
def add (history : History) (line : String) : History :=
  if history.ignores line then history
  else
    let kept := if history.entries.length = capacity then history.entries.tail else history.entries
    ⟨kept ++ [line], true⟩

/-- The entry with its backslashes and line feeds escaped. -/
def escape (entry : String) : String :=
  String.ofList (entry.toList.flatMap fun c =>
    if c = '\\' then ['\\', '\\'] else if c = '\n' then ['\\', 'n'] else [c])

/-- The characters that an escaped entry stands for, if every escape in it is one. -/
def unescapeChars? : List Char → Option (List Char)
  | [] => some []
  | '\\' :: 'n' :: rest => (unescapeChars? rest).map ('\n' :: ·)
  | '\\' :: '\\' :: rest => (unescapeChars? rest).map ('\\' :: ·)
  | '\\' :: _ => none
  | c :: rest => (unescapeChars? rest).map (c :: ·)

/-- The entry of a line of the file; a line with a wrong escape stands for itself. -/
def unescape (line : String) : String :=
  ((unescapeChars? line.toList).map String.ofList).getD line

/-- The history of a file's text. -/
def load (text : String) : History :=
  let entries := match Text.lines text with
    | [] => []
    | first :: rest =>
        if first = versionMark then
          (rest.filter fun (line : String) => !line.isEmpty).map unescape
        else first :: rest
  { entries.foldl add empty with changed := false }

/-- The text of the history's file. -/
def text (history : History) : String :=
  "\n".intercalate (versionMark :: history.entries.map escape) ++ "\n"

end History

end GraphShell

namespace GraphShell.Shell

-----------------------------------------------------------------------------------------
-- Typed lines
-----------------------------------------------------------------------------------------

/-- The text in front of a typed line. -/
def promptText : String := "lantern> "

/-- The hint that refuses a line; a blank line is not refused. -/
def refusal? (line : String) : Option String :=
  let line := normalize line
  if line.isEmpty then none
  else
    match Line.ofText line with
    | .ok _ => none
    | .error usage => some ("\n" ++ usage.hint)

variable {σ : Type}

/-- What a prompt keeps from line to line: the text refused so far, which the next line is
appended to, and the history.
-/
structure Prompt where
  refused : String
  history : History
deriving DecidableEq, Repr

/-- Takes one typed line; the first part of the answer is whether the session goes on. -/
def typeLine (shell : Shell σ) (line : String) (prompt : Prompt) (state : σ) (console : Console)
    : Bool × Prompt × σ × Console :=
  let input := Text.applyBackspaces (prompt.refused ++ line)
  match refusal? input with
  | some hint =>
      (true, { prompt with refused := input }, state, { console with err := console.err ++ hint })
  | none =>
      let line := Text.trimmed input
      if line.isEmpty then (true, { prompt with refused := "" }, state, console)
      else
        let (outcome, state, console) := shell.runLine line state console
        (outcome ≠ .exit, ⟨"", prompt.history.add line⟩, state, console)

/-- Takes typed lines until one ends the session or none is left. -/
def runTyped (shell : Shell σ)
    : List String → Prompt → σ → Console → Prompt × σ × Console
  | [], prompt, state, console => (prompt, state, console)
  | line :: rest, prompt, state, console =>
      match shell.typeLine line prompt state console with
      | (true, prompt, state, console) => runTyped shell rest prompt state console
      | (false, prompt, state, console) => (prompt, state, console)

/-- A session at a prompt: the text typed and the text of the history file, if there is one.
The text to write to the file comes back if any line is new.
-/
def interactive (shell : Shell σ) (input : String) (file : Option String) (state : σ)
    (console : Console)
    : Option String × σ × Console :=
  let known := file.elim History.empty History.load
  let (prompt, state, console) := shell.runTyped (Text.lines input) ⟨"", known⟩ state console
  (if prompt.history.changed then some prompt.history.text else none, state, console)

end GraphShell.Shell
