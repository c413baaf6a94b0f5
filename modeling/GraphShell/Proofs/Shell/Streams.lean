import GraphShell.Proofs.Shell.Lines
import GraphShell.Proofs.Text.Lines
import GraphShell.Store.Memory

/-! A stream of bytes is run line by line: what is on a console and in a store after it, and
whether all went well, is what running its lines one by one comes to. A stream may therefore
be cut behind any of its lines, as long as none in front of the cut ends the session.
-/

namespace GraphShell.Shell

variable {σ : Type} {shell : Shell σ} {state next : σ} {console shown : Console} {line : String}
  {bytes : List UInt8} {lines front back : List (List UInt8)}

-----------------------------------------------------------------------------------------
-- Lines of a stream
-----------------------------------------------------------------------------------------

/-- Runs lines one after the other: how each of them ended, and what they led to. -/
def runEach (shell : Shell σ) : List String → σ → Console → List Outcome × σ × Console
  | [], state, console => ([], state, console)
  | line :: rest, state, console =>
      let (outcome, state, console) := shell.runLine line state console
      let (others, state, console) := runEach shell rest state console
      (outcome :: others, state, console)

/-- The lines of a stream that are run, without the blanks around them: those that are texts
and neither blank nor remarks.
-/
def commands (lines : List (List UInt8)) : List String :=
  ((lines.filterMap Text.decode?).map Text.trimmed).filter fun line => !isRemark line

/-- The answer to a stream, and the state and console behind it: all lines are run, or those in
front of the first that ends the session, or those in front of the first that is no text.
Whatever is behind such a line has no part in it.
-/
inductive Streamed (shell : Shell σ) (lines : List (List UInt8)) (state : σ) (console : Console)
    : Except String Bool × σ × Console → Prop
  | whole {outcomes next shown} (texts : ∀ bytes ∈ lines, Text.IsText bytes)
    (ran : shell.runEach (commands lines) state console = (outcomes, next, shown))
    (stays : .exit ∉ outcomes)
    : Streamed shell lines state console (.ok (outcomes.all Outcome.isSuccess), next, shown)
  | left {before bytes behind line outcomes next shown}
    (split : lines = before ++ bytes :: behind) (texts : ∀ bytes ∈ before, Text.IsText bytes)
    (ran : shell.runEach (commands before) state console = (outcomes, next, shown))
    (stays : .exit ∉ outcomes) (command : commands [bytes] = [line])
    (leaves : shell.runLine line next shown = (.exit, next, shown))
    : Streamed shell lines state console (.ok (outcomes.all Outcome.isSuccess), next, shown)
  | cut {before bytes behind outcomes next shown}
    (split : lines = before ++ bytes :: behind) (texts : ∀ bytes ∈ before, Text.IsText bytes)
    (ran : shell.runEach (commands before) state console = (outcomes, next, shown))
    (stays : .exit ∉ outcomes) (noText : ¬ Text.IsText bytes)
    : Streamed shell lines state console (.error notText, next, shown)

theorem commands_append (front back : List (List UInt8))
    : commands (front ++ back) = commands front ++ commands back := by
  simp [commands]

theorem commands_cons (bytes : List UInt8) (lines : List (List UInt8))
    : commands (bytes :: lines) = commands [bytes] ++ commands lines :=
  commands_append [bytes] lines

-----------------------------------------------------------------------------------------
-- The loop over lines
-----------------------------------------------------------------------------------------

/-- A loop that does nothing but run its lines is the run of the lines, whatever else it could do,
by induction on the lines.
-/
theorem eachLine_streamLine {m : Type → Type} [Monad m] [LawfulMonad m] (shell : Shell σ)
    (lines : List (List UInt8)) (success : Bool) (state : σ) (console : Console)
    : eachLine
        (fun bytes (reached : σ × Console) =>
          (pure (shell.streamLine bytes reached.1 reached.2) : m _))
        lines success (state, console)
      = pure (shell.runLines lines success state console) := by
  induction lines generalizing success state console with
  | nil => rfl
  | cons bytes lines ih =>
      rw [eachLine, pure_bind, runLines_cons]
      rcases shell.streamLine bytes state console with ⟨_ | _ | outcome, next, shown⟩
      · rfl
      · exact ih _ _ _
      · cases outcome <;> first | rfl | exact ih _ _ _

-----------------------------------------------------------------------------------------
-- One line of a stream
-----------------------------------------------------------------------------------------

/-- No line but one that asks for nothing else ends the session, whatever the handlers. -/
theorem runLine_exit_iff : (shell.runLine line state console).1 = .exit ↔ Leaves line := by
  refine ⟨fun exits => ?_, fun leaves => by rw [runLine_of_leaves leaves]⟩
  by_contra stays
  rw [leaves_iff, ← tokens_ofLine_normalize] at stays
  have checked := Line.outcome_read (Cursor.ofLine (normalize line))
  rw [if_neg stays] at checked
  rcases reads : Line.read.run (.ofLine (normalize line)) with ⟨result, cursor⟩
  rw [outcome, reads] at checked
  unfold runLine at exits
  dsimp only at exits
  rw [reads] at exits
  cases result with
  | error usage => cases exits
  | ok asked =>
      cases asked with
      | exit =>
          have result := congrArg Prod.fst checked
          revert result
          cases (outcome Command.readLine _).1 <;> rintro ⟨⟩
      | command =>
          dsimp only at exits
          rcases ran : shell.dispatcher.execute shell.store .text cursor state console.out with
            ⟨_ | _, _, _⟩ <;> simp [ran] at exits

/-- What is done for a line of a stream, and how the stream goes on behind it. -/
inductive Took (shell : Shell σ) (bytes : List UInt8) (state : σ) (console : Console) : Prop
  | cut (noText : ¬ Text.IsText bytes)
    (rest
      : ∀ lines success,
          shell.runLines (bytes :: lines) success state console
          = (.error notText, state, console))
  | passed (text : Text.IsText bytes) (nothing : commands [bytes] = [])
    (rest
      : ∀ lines success,
          shell.runLines (bytes :: lines) success state console
          = shell.runLines lines success state console)
  | left {line : String} (text : Text.IsText bytes) (command : commands [bytes] = [line])
    (leaves : shell.runLine line state console = (.exit, state, console))
    (rest
      : ∀ lines success,
          shell.runLines (bytes :: lines) success state console = (.ok success, state, console))
  | ran {line : String} {outcome : Outcome} {next : σ} {shown : Console}
    (text : Text.IsText bytes) (command : commands [bytes] = [line])
    (runs : shell.runLine line state console = (outcome, next, shown)) (stays : outcome ≠ .exit)
    (rest
      : ∀ lines success,
          shell.runLines (bytes :: lines) success state console
          = shell.runLines lines (success && outcome.isSuccess) next shown)

/-- Every line is taken so: it is no text, or blank or a remark, or it is run. -/
theorem took (shell : Shell σ) (bytes : List UInt8) (state : σ) (console : Console)
    : Took shell bytes state console := by
  cases decoded : Text.decode? bytes with
  | none =>
      refine .cut (by simp [Text.IsText, decoded]) fun lines success => ?_
      simp [runLines_cons, streamLine, decoded]
  | some text =>
      cases remark : isRemark (Text.trimmed text) with
      | true =>
          refine .passed ⟨text, decoded⟩ (by simp [commands, decoded, remark]) ?_
          intro lines success
          simp [runLines_cons, streamLine, decoded, remark]
      | false =>
          have command : commands [bytes] = [Text.trimmed text] := by
            simp [commands, decoded, remark]
          by_cases leaves : Leaves (Text.trimmed text)
          · have runs : shell.runLine (Text.trimmed text) state console = (.exit, state, console) :=
              runLine_of_leaves leaves console
            refine .left ⟨text, decoded⟩ command runs fun lines success => ?_
            simp [runLines_cons, streamLine, decoded, remark, runs]
          · rcases runs : shell.runLine (Text.trimmed text) state console with
              ⟨outcome, next, shown⟩
            have stays : outcome ≠ .exit := by
              rintro rfl
              exact leaves (runLine_exit_iff.mp (congrArg Prod.fst runs))
            refine .ran ⟨text, decoded⟩ command runs stays fun lines success => ?_
            simp only [runLines_cons, streamLine, decoded, remark, runs]
            cases outcome <;> first | exact absurd rfl stays | rfl

-----------------------------------------------------------------------------------------
-- All lines of a stream
-----------------------------------------------------------------------------------------

/-- A failure in front of the lines makes the answer false, and nothing else, by induction on
the lines.
-/
theorem runLines_success (lines : List (List UInt8)) (success : Bool) (state : σ)
    (console : Console)
    : shell.runLines lines success state console
      = ((shell.runLines lines true state console).1.map (success && ·),
          (shell.runLines lines true state console).2) := by
  induction lines generalizing success state console with
  | nil => simp [runLines_nil, Except.map]
  | cons bytes lines ih =>
      cases took shell bytes state console with
      | cut _ rest => simp [rest, Except.map]
      | passed _ _ rest => rw [rest, rest, ih]
      | left _ _ _ rest => simp [rest, Except.map]
      | @ran line outcome next shown _ _ _ _ rest =>
          rw [rest, rest, ih, ih (true && _)]
          cases (shell.runLines lines true next shown).1 <;> simp [Except.map, Bool.and_assoc]

theorem runEach_append {first second : List String} {outcomes others : List Outcome} {last : σ}
    {seen : Console} (ran : shell.runEach first state console = (outcomes, next, shown))
    (more : shell.runEach second next shown = (others, last, seen))
    : shell.runEach (first ++ second) state console = (outcomes ++ others, last, seen) := by
  induction first generalizing state console outcomes with
  | nil =>
      cases ran
      exact more
  | cons line first ih =>
      rcases runs : shell.runLine line state console with ⟨outcome, middle, between⟩
      rcases goes : shell.runEach first middle between with ⟨later, final, written⟩
      simp only [runEach, runs, goes] at ran
      cases ran
      simp only [List.cons_append, runEach, runs, ih goes]

/-- A line in front of a stream is run first, and decides along with the others. -/
theorem Streamed.cons {outcomes : List Outcome} {result : Except String Bool × σ × Console}
    (text : Text.IsText bytes)
    (ran : shell.runEach (commands [bytes]) state console = (outcomes, next, shown))
    (stays : .exit ∉ outcomes) (streamed : Streamed shell lines next shown result)
    : Streamed shell (bytes :: lines) state console
        (result.1.map (outcomes.all Outcome.isSuccess && ·), result.2) := by
  have both {later : List (List UInt8)} (texts : ∀ bytes ∈ later, Text.IsText bytes)
      : ∀ line ∈ bytes :: later, Text.IsText line :=
    List.forall_mem_cons.mpr ⟨text, texts⟩
  have whole {later : List (List UInt8)} {others : List Outcome} {last : σ} {seen : Console}
      (more : shell.runEach (commands later) next shown = (others, last, seen))
      : shell.runEach (commands (bytes :: later)) state console
        = (outcomes ++ others, last, seen) := by
    rw [commands_cons]
    exact runEach_append ran more
  have neither {others : List Outcome} (quiet : .exit ∉ others) : .exit ∉ outcomes ++ others :=
    List.mem_append.not.mpr (not_or.mpr ⟨stays, quiet⟩)
  cases streamed with
  | whole texts more quiet =>
      simp only [Except.map, ← List.all_append]
      exact .whole (both texts) (whole more) (neither quiet)
  | left split texts more quiet command leaves =>
      simp only [Except.map, ← List.all_append]
      exact .left (congrArg (List.cons bytes) split) (both texts) (whole more) (neither quiet)
        command leaves
  | cut split texts more quiet noText =>
      exact .cut (congrArg (List.cons bytes) split) (both texts) (whole more) (neither quiet)
        noText

/-- Lines are taken as they would be run one by one, by induction on them. -/
theorem streamed_runLines (shell : Shell σ) (lines : List (List UInt8)) (state : σ)
    (console : Console)
    : Streamed shell lines state console (shell.runLines lines true state console) := by
  induction lines generalizing state console with
  | nil =>
      have nothing : shell.runEach (commands []) state console = ([], state, console) := rfl
      exact .whole (by simp) nothing (by simp)
  | cons bytes lines ih =>
      have nothing : shell.runEach (commands []) state console = ([], state, console) := rfl
      have split : bytes :: lines = [] ++ bytes :: lines := rfl
      cases took shell bytes state console with
      | cut noText rest =>
          rw [rest]
          exact .cut split (by simp) nothing (by simp) noText
      | passed text nothing rest =>
          have ran : shell.runEach (commands [bytes]) state console = ([], state, console) := by
            rw [nothing, runEach]
          have streamed := (ih state console).cons text ran (by simp)
          rw [rest, runLines_success]
          exact streamed
      | left text command leaves rest =>
          rw [rest]
          exact .left split (by simp) nothing (by simp) command leaves
      | @ran line outcome next shown text command runs stays rest =>
          have ran : shell.runEach (commands [bytes]) state console
              = ([outcome], next, shown) := by
            simp only [command, runEach, runs]
          have streamed := (ih next shown).cons text ran (by simpa using stays.symm)
          rw [rest, runLines_success]
          simpa using streamed

/-- Lines that are texts are answered with whether all went well. -/
theorem exists_ok_of_texts (texts : ∀ bytes ∈ lines, Text.IsText bytes) (shell : Shell σ)
    (state : σ) (console : Console)
    : ∃ success last shown,
        shell.runLines lines true state console = (.ok success, last, shown) := by
  have streamed := streamed_runLines shell lines state console
  generalize shell.runLines lines true state console = result at streamed
  cases streamed with
  | whole | left => exact ⟨_, _, _, rfl⟩
  | cut split _ _ _ noText => exact absurd (texts _ (by simp [split])) noText

/-- Lines behind others are run from where these led to, by induction on these. -/
theorem runLines_append (shell : Shell σ) (texts : ∀ bytes ∈ front, Text.IsText bytes)
    (stays : ∀ line ∈ commands front, ¬ Leaves line) (success : Bool) (state : σ)
    (console : Console)
    : ∃ first next shown,
        shell.runLines front success state console = (.ok first, next, shown)
        ∧ ∀ back,
            shell.runLines (front ++ back) success state console
            = shell.runLines back first next shown := by
  induction front generalizing success state console with
  | nil => exact ⟨success, state, console, rfl, fun _ => rfl⟩
  | cons bytes front ih =>
      obtain ⟨text, others⟩ := List.forall_mem_cons.mp texts
      rw [commands_cons] at stays
      have later := ih others fun line member => stays line (List.mem_append_right _ member)
      cases took shell bytes state console with
      | cut noText _ => exact absurd text noText
      | passed _ _ rest =>
          simp only [List.cons_append, rest]
          exact later success state console
      | left _ command leaves _ =>
          refine absurd (runLine_exit_iff.mp (congrArg Prod.fst leaves)) (stays _ ?_)
          simp [command]
      | ran _ _ _ _ rest =>
          simp only [List.cons_append, rest]
          exact later _ _ _

-----------------------------------------------------------------------------------------
-- Streams
-----------------------------------------------------------------------------------------

/-- A stream of bytes is answered as its lines are when they are run one by one. If it is a text,
it can be cut where a line ends: unless the first part ends the session, the second one goes on
from there, and both have to succeed.
-/
theorem pipe_line_by_line (shell : Shell σ) (input : List UInt8) (state : σ) (console : Console)
    : Streamed shell (Text.byteLines input) state console (shell.pipe input state console)
      ∧ ∀ front back,
          input = front ++ back
          → Text.IsText input
          → Text.EndsLine front ∨ back = []
          → (∀ line ∈ commands (Text.byteLines front), ¬ Leaves line)
          → ∃ first second middle between last shown,
              shell.pipe front state console = (.ok first, middle, between)
              ∧ shell.pipe back middle between = (.ok second, last, shown)
              ∧ shell.pipe input state console = (.ok (first && second), last, shown) := by
  refine ⟨streamed_runLines shell _ state console, ?_⟩
  rintro front back rfl text cut stays
  obtain ⟨⟨left, right⟩, lines⟩ : (Text.IsText front ∧ Text.IsText back)
      ∧ Text.byteLines (front ++ back) = Text.byteLines front ++ Text.byteLines back := by
    rcases cut with ends | rfl
    · exact ⟨text.cut ends, Text.byteLines_append ends back⟩
    · rw [List.append_nil] at text ⊢
      exact ⟨⟨text, Text.isText_iff.mpr ⟨[], rfl⟩⟩, (List.append_nil _).symm⟩
  obtain ⟨first, middle, between, ran, goes⟩ :=
    runLines_append shell left.of_mem_byteLines stays true state console
  obtain ⟨second, last, shown, more⟩ :=
    exists_ok_of_texts right.of_mem_byteLines shell middle between
  refine ⟨first, second, middle, between, last, shown, ran, more, ?_⟩
  rw [pipe, lines, goes, runLines_success, more]
  rfl

/-- A line that is refused in front of a cut, and one behind it that ends the session before the
last line.
-/
theorem pipe_line_by_line_of_refusal
    : let front := "PUT vertex a 1\nput vertex\n".toList.flatMap String.utf8EncodeChar
      let back := "# shows\n get vertex a \nExit\nget vertex b".toList.flatMap String.utf8EncodeChar
      let shell := standard (Memory.store ⟨0⟩)
      Text.IsText (front ++ back)
      ∧ Text.EndsLine front
      ∧ (∀ line ∈ commands (Text.byteLines front), ¬ Leaves line)
      ∧ ∃ first second middle between last shown,
          shell.pipe front .empty .empty = (.ok first, middle, between)
          ∧ shell.pipe back middle between = (.ok second, last, shown)
          ∧ shell.pipe (front ++ back) .empty .empty = (.ok (first && second), last, shown)
          ∧ first = false
          ∧ shown.out = "1\n" := by
  intro front back shell
  have text : Text.IsText (front ++ back) := Text.isText_iff.mpr ⟨_, List.flatMap_append.symm⟩
  have ends : Text.EndsLine front := .inr ⟨front.dropLast, by decide +kernel⟩
  have listed : commands (Text.byteLines front) = ["PUT vertex a 1", "put vertex"] := by
    decide +kernel
  have stays : ∀ line ∈ commands (Text.byteLines front), ¬ Leaves line := by
    simp only [listed, leaves_iff]
    decide +kernel
  obtain ⟨first, second, middle, between, last, shown, ran, more, whole⟩ :=
    (pipe_line_by_line shell (front ++ back) .empty .empty).2 front back rfl text (.inl ends) stays
  refine ⟨text, ends, stays, first, second, middle, between, last, shown, ran, more, whole, ?_, ?_⟩
  · have answer : (shell.pipe front .empty .empty).1 = .ok false := by decide +kernel
    rw [ran] at answer
    exact Except.ok.inj answer
  · have output : (shell.pipe (front ++ back) .empty .empty).2.2.out = "1\n" := by decide +kernel
    rw [whole] at output
    exact output

end GraphShell.Shell
