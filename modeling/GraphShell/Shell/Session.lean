import GraphShell.Command
import GraphShell.Dispatch
import GraphShell.Text.Lowercase
import GraphShell.Text.Splitting

/-! What a shell adds to the language: keywords in any case, the keywords that can stand where a
line is being edited, and lines run one after the other against one store. Each line is checked as
a whole before anything is done for it; its output and its complaints go to a console.
-/

namespace GraphShell.Shell

-----------------------------------------------------------------------------------------
-- Keywords
-----------------------------------------------------------------------------------------

/-- The words with the first two, the verb and the objective, in lower case. -/
def lowerKeywords : List String → List String
  | verb :: objective :: rest => Text.lower verb :: Text.lower objective :: rest
  | words => words.map Text.lower

/-- The line with single spaces and with its first two words in lower case; keys and values
keep theirs.
-/
def normalize (line : String) : String :=
  " ".intercalate (lowerKeywords (Text.words line))

/-- The first `size` bytes of a text, if they are whole characters of it. -/
def takeBytes? : List Char → Nat → Option (List Char)
  | _, 0 => some []
  | [], _ + 1 => none
  | c :: rest, size + 1 =>
      if size + 1 < c.utf8Size then none
      else (takeBytes? rest (size + 1 - c.utf8Size)).map (c :: ·)

/-- The keywords that can stand as the word behind `before`. -/
def keywordsBehind (before : List String) : List String :=
  match before with
  | [] => Verb.all.map Verb.word ++ [exitWord]
  | [verb] =>
      (Verb.ofWord? (Text.lower verb)).elim [] fun verb => verb.objectives.map Objective.word
  | _ => []

/-- The keywords that can complete the word that ends at a byte offset, and the offset at
which it begins. An offset that is none in the line stands for the line's end.
-/
def complete (line : String) (offset : Nat) : Nat × List String :=
  let head := (takeBytes? line.toList offset).getD line.toList
  let unfinished := (head.reverse.takeWhile fun c => !Text.isBlank c).reverse
  let before := head.take (head.length - unfinished.length)
  let start := Text.lower (String.ofList unfinished)
  ((String.ofList before).utf8ByteSize,
    (keywordsBehind (Text.words (String.ofList before))).filter fun word =>
      start.toList.isPrefixOf word.toList)

end GraphShell.Shell

namespace GraphShell

-----------------------------------------------------------------------------------------
-- Sessions
-----------------------------------------------------------------------------------------

/-- What has been written: results on one side, hints and failures on the other. -/
structure Console where
  out : String
  err : String
deriving DecidableEq, Repr

namespace Console

/-- The console with nothing written. -/
def empty : Console :=
  ⟨"", ""⟩

/-- Writes a line of complaint. -/
def complain (line : String) (console : Console) : Console :=
  { console with err := console.err ++ line ++ "\n" }

end Console

/-- How a line ended. -/
inductive Outcome
  | done
  | exit
  | rejected (usage : Usage)
  | failed (kind : CommandError.Kind)
deriving DecidableEq, Repr

/-- Whether a line did what it asked for. -/
def Outcome.isSuccess : Outcome → Bool
  | done | exit => true
  | rejected _ | failed _ => false

/-- The handlers of a session and the store that they ask. -/
structure Shell (σ : Type) where
  dispatcher : Dispatcher
  store : Store σ

namespace Shell

variable {σ : Type}

/-- The shell over a store with the handlers of every route. -/
def standard (store : Store σ) : Shell σ :=
  ⟨.standard, store⟩

/-- Runs one line. -/
def runLine (shell : Shell σ) (line : String) (state : σ) (console : Console)
    : Outcome × σ × Console :=
  let cursor := Cursor.ofLine (normalize line)
  match Line.read.run cursor with
  | (.error usage, _) => (.rejected usage, state, console.complain usage.hint)
  | (.ok .exit, _) => (.exit, state, console)
  | (.ok (.command _), cursor) =>
      match shell.dispatcher.execute shell.store .text cursor state console.out with
      | (.ok (), state, out) => (.done, state, { console with out := out })
      | (.error error, state, out) =>
          (.failed error.kind, state, { console with out := out }.complain error.message)

/-- Whether a line of a stream is passed over: a blank one, or a remark. -/
def isRemark (line : String) : Bool :=
  match line.toList with
  | [] => true
  | c :: _ => c = '#'

/-- The complaint about a line that is not UTF-8. -/
def notText : String := "stream did not contain valid UTF-8"

/-- Takes one line of a stream, without the blanks around it. The answer is how it ended, none
if it was passed over, or the complaint that it is no text.
-/
def streamLine (shell : Shell σ) (bytes : List UInt8) (state : σ) (console : Console)
    : Except String (Option Outcome) × σ × Console :=
  match Text.decode? bytes with
  | none => (.error notText, state, console)
  | some line =>
      let line := Text.trimmed line
      if isRemark line then (.ok none, state, console)
      else
        let (outcome, state, console) := shell.runLine line state console
        (.ok (some outcome), state, console)

/-- Takes lines one by one, whatever else that does, until one ends the session. The answer is
whether all of them succeeded, or the complaint about a line that is no text; lines behind it are
not taken.
-/
def eachLine {m : Type → Type} [Monad m] {α β : Type}
    (take : α → β → m (Except String (Option Outcome) × β))
    : List α → Bool → β → m (Except String Bool × β)
  | [], success, state => return (.ok success, state)
  | line :: rest, success, state => do
      match ← take line state with
      | (.error detail, state) => return (.error detail, state)
      | (.ok (some .exit), state) => return (.ok success, state)
      | (.ok outcome, state) =>
          eachLine take rest (success && outcome.all Outcome.isSuccess) state

/-- Runs lines against one store and console. -/
def runLines (shell : Shell σ) (lines : List (List UInt8)) (success : Bool) (state : σ)
    (console : Console)
    : Except String Bool × σ × Console :=
  let take (bytes : List UInt8) (reached : σ × Console) : Id _ :=
    return shell.streamLine bytes reached.1 reached.2
  (eachLine take lines success (state, console)).run

theorem runLines_nil (shell : Shell σ) (success : Bool) (state : σ) (console : Console)
    : shell.runLines [] success state console = (.ok success, state, console) := rfl

theorem runLines_cons (shell : Shell σ) (bytes : List UInt8) (lines : List (List UInt8))
    (success : Bool) (state : σ) (console : Console)
    : shell.runLines (bytes :: lines) success state console
      = match shell.streamLine bytes state console with
        | (.error detail, state, console) => (.error detail, state, console)
        | (.ok (some .exit), state, console) => (.ok success, state, console)
        | (.ok outcome, state, console) =>
            shell.runLines lines (success && outcome.all Outcome.isSuccess) state console := by
  rcases taken : shell.streamLine bytes state console with ⟨_ | _ | outcome, next, shown⟩
  · simp [runLines, eachLine, taken]
  · simp [runLines, eachLine, taken]
  · cases outcome <;> simp [runLines, eachLine, taken]

/-- Runs the lines of a byte stream. -/
def pipe (shell : Shell σ) (input : List UInt8) (state : σ) (console : Console)
    : Except String Bool × σ × Console :=
  shell.runLines (Text.byteLines input) true state console

end Shell

end GraphShell
