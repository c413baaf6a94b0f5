import GraphShell.Proofs.Dispatch.Agreement
import GraphShell.Proofs.Shell.Keywords
import GraphShell.Shell.Session

/-! What a line given to a shell asks for, in the language of commands: its first two words
count in any case. Running the line follows the plan of its command once, or does nothing.
-/

namespace GraphShell.Shell

/-- The words of the line spell the command, with the first two in any case. -/
def Asks (line : String) (command : Command) : Prop :=
  ∃ tokens, Text.AreWords line tokens ∧ command.Spelled (lowerKeywords tokens)

/-- The only word of the line ends the session, in any case. -/
def Leaves (line : String) : Prop :=
  ∃ tokens, Text.AreWords line tokens ∧ lowerKeywords tokens = [exitWord]

/-- How far the words of the line get, with the first two in any case. -/
def Reaches (line : String) (usage : Usage) : Prop :=
  ∃ tokens, Text.AreWords line tokens ∧ usage.Reached (lowerKeywords tokens)

-----------------------------------------------------------------------------------------
-- Readings of lines
-----------------------------------------------------------------------------------------

variable {line : String} {command other : Command}

theorem asks_iff
    : Asks line command
      ↔ (outcome Command.readLine (.ofTokens (lowerKeywords (Text.words line)))).1
        = .ok command := by
  simp only [Asks, Text.areWords_iff, exists_eq_left', Command.outcome_readLine_ok]
  rfl

theorem leaves_iff : Leaves line ↔ lowerKeywords (Text.words line) = [exitWord] := by
  simp only [Leaves, Text.areWords_iff, exists_eq_left']

/-- A line asks for one command at most. -/
theorem Asks.unique (first : Asks line command) (second : Asks line other)
    : command = other := by
  rw [asks_iff] at first second
  exact Except.ok.inj (first.symm.trans second)

/-- The word that ends a session is no command. -/
theorem Leaves.not_asks (leaves : Leaves line) : ¬ Asks line command := by
  rw [asks_iff, leaves_iff.mp leaves, Command.readLine_exit]
  exact nofun

/-- The cursor that a line is run from: its tokens have small keywords. -/
theorem tokens_ofLine_normalize (line : String)
    : (Cursor.ofLine (normalize line)).tokens = lowerKeywords (Text.words line) := by
  rw [Cursor.ofLine, Cursor.tokens_ofTokens, words_normalize]

-----------------------------------------------------------------------------------------
-- Running a line
-----------------------------------------------------------------------------------------

variable {σ : Type} {store : Store σ} {state next : σ}

/-- A line that ends the session does nothing else, whatever the handlers. -/
theorem runLine_of_leaves {shell : Shell σ} (leaves : Leaves line) (console : Console)
    : shell.runLine line state console = (.exit, state, console) := by
  have checked : outcome Line.read (.ofLine (normalize line))
      = (.ok .exit, .ofTokens [exitWord]) := by
    rw [Line.outcome_read, tokens_ofLine_normalize, leaves_iff.mp leaves]
    rfl
  rw [outcome] at checked
  unfold runLine
  dsimp only
  rw [checked]

/-- A line that asks for nothing is refused with the hint for the point that it reaches, and nothing
else happens.
-/
theorem runLine_of_unread (store : Store σ) (state : σ)
    (unread : ∀ command, ¬ Asks line command) (stays : ¬ Leaves line)
    : ∃ usage,
        Reaches line usage
        ∧ ∀ console,
            (standard store).runLine line state console
            = (.rejected usage, state, console.complain usage.hint) := by
  simp only [asks_iff] at unread
  rw [leaves_iff] at stays
  cases read : (outcome Command.readLine (.ofTokens (lowerKeywords (Text.words line)))).1 with
  | ok command => exact absurd read (unread command)
  | error cause =>
      have checked : (outcome Line.read (.ofLine (normalize line))).1 = .error cause.usage := by
        rw [Line.outcome_read, tokens_ofLine_normalize, if_neg stays, read]
        rfl
      have reached := Command.reached_of_outcome_readLine read
      refine ⟨cause.usage, ⟨_, Text.areWords_iff.mpr rfl, reached⟩, ?_⟩
      intro console
      rcases reads : Line.read.run (.ofLine (normalize line)) with ⟨result, cursor⟩
      rw [outcome, reads] at checked
      subst checked
      unfold runLine
      dsimp only
      rw [reads]

/-- A line that asks for a command is run by following the command's plan. -/
theorem runLine_of_asks (asks : Asks line command) (console : Console)
    : (standard store).runLine line state console
      = match command.plan.run store state with
        | (.error error, state) =>
            (.failed error.kind, state, console.complain error.message)
        | (.ok none, state) => (.done, state, console)
        | (.ok (some output), state) =>
            (.done, state, { console with out := console.out ++ output ++ "\n" }) := by
  have stays : lowerKeywords (Text.words line) ≠ [exitWord] := by
    intro alone
    exact (leaves_iff.mpr alone).not_asks asks
  have read := asks_iff.mp asks
  have checked : (outcome Line.read (.ofLine (normalize line))).1 = .ok (.command command) := by
    rw [Line.outcome_read, tokens_ofLine_normalize, if_neg stays, read]
    rfl
  have kept : (outcome Line.read (.ofLine (normalize line))).2.tokens
      = lowerKeywords (Text.words line) := by
    rw [Line.outcome_read, tokens_ofLine_normalize, if_neg stays]
    exact Command.keepsTokens_readLine _
  rcases reads : Line.read.run (.ofLine (normalize line)) with ⟨result, cursor⟩
  rw [outcome, reads] at checked kept
  subst checked
  have planned : Dispatcher.standard.plan cursor = command.plan := by
    rw [Dispatcher.plan_standard, kept, read]
  unfold runLine
  dsimp only
  rw [reads, standard]
  dsimp only
  rw [Dispatcher.execute, planned]
  rcases command.plan.run store state with ⟨_ | _ | _, _⟩ <;> rfl

-----------------------------------------------------------------------------------------
-- What a line yields
-----------------------------------------------------------------------------------------

/-- Running the line ends so, goes to this state, and adds this to what has been printed,
whatever is on the console.
-/
structure Yields (shell : Shell σ) (line : String) (state : σ) (outcome : Outcome) (next : σ)
    (printed : String)
    : Prop where
  ends : ∀ console, (shell.runLine line state console).1 = outcome
  goes : ∀ console, (shell.runLine line state console).2.1 = next
  prints : ∀ console, (shell.runLine line state console).2.2.out = console.out ++ printed

theorem Yields.of_runLine {shell : Shell σ} {outcome : Outcome} {printed : String}
    (write : Console → Console)
    (ran : ∀ console, shell.runLine line state console = (outcome, next, write console))
    (adds : ∀ console, (write console).out = console.out ++ printed)
    : Yields shell line state outcome next printed := by
  refine ⟨?_, ?_, ?_⟩
  · intro console
    rw [ran]
  · intro console
    rw [ran]
  · intro console
    rw [ran, adds]

theorem yields_of_leaves (leaves : Leaves line)
    : Yields (standard store) line state .exit state "" := by
  refine .of_runLine id ?_ ?_
  · exact runLine_of_leaves leaves
  · simp

theorem yields_of_unread (unread : ∀ command, ¬ Asks line command) (stays : ¬ Leaves line)
    : ∃ usage,
        Reaches line usage ∧ Yields (standard store) line state (.rejected usage) state "" := by
  obtain ⟨usage, reaches, ran⟩ := runLine_of_unread store state unread stays
  refine ⟨usage, reaches, .of_runLine (Console.complain usage.hint) ran ?_⟩
  simp [Console.complain]

theorem yields_of_error {error : CommandError} (asks : Asks line command)
    (ran : command.plan.run store state = (.error error, next))
    : Yields (standard store) line state (.failed error.kind) next "" := by
  refine .of_runLine (Console.complain error.message) ?_ ?_
  · intro console
    rw [runLine_of_asks asks, ran]
  · simp [Console.complain]

theorem yields_of_silence (asks : Asks line command)
    (ran : command.plan.run store state = (.ok none, next))
    : Yields (standard store) line state .done next "" := by
  refine .of_runLine id ?_ ?_
  · intro console
    rw [runLine_of_asks asks, ran]
    rfl
  · simp

theorem yields_of_output {output : String} (asks : Asks line command)
    (ran : command.plan.run store state = (.ok (some output), next))
    : Yields (standard store) line state .done next (output ++ "\n") := by
  refine .of_runLine (fun console => ⟨console.out ++ output ++ "\n", console.err⟩) ?_ ?_
  · intro console
    rw [runLine_of_asks asks, ran]
  · simp [String.append_assoc]

section

variable {request : Request} (asks : Asks line command)

include asks

/-- A line whose command makes a request fails as the request does. -/
theorem yields_of_answer_error {reply : request.Reply → Plan} {cause : StoreError}
    (planned : command.plan = .request request reply)
    (answered : store.answer request state = (.error cause, next))
    : Yields (standard store) line state (.failed .connection) next "" :=
  yields_of_error asks (by rw [planned, Plan.run_request, answered])

/-- A line whose command shows a reply prints it. -/
theorem yields_of_answer_ok {shown : request.Reply → String} {reply : request.Reply}
    (planned : command.plan = .request request fun reply => .print (shown reply))
    (answered : store.answer request state = (.ok reply, next))
    : Yields (standard store) line state .done next (shown reply ++ "\n") := by
  refine yields_of_output asks ?_
  rw [planned, Plan.run_request, answered]
  rfl

end

end GraphShell.Shell
