import GraphShell.Proofs.Command.Tokens
import GraphShell.Proofs.Dispatch.Effects

/-! The check of a line, the reading of a line and its execution give the same verdict, though
each walks the tokens on its own. The check and the execution start from the first token, so
that neither depends on where a cursor was left.
-/

namespace GraphShell

/-- The check of a line is the reading of its tokens from the first on, but for the word that
ends a session.
-/
theorem Line.outcome_read (cursor : Cursor)
    : outcome read cursor
      = if cursor.tokens = [exitWord] then (.ok .exit, .ofTokens cursor.tokens)
        else
          ((outcome Command.readLine (.ofTokens cursor.tokens)).1.map Line.command
              |>.mapError SyntaxError.usage,
            (outcome Command.readLine (.ofTokens cursor.tokens)).2) := by
  change outcome
    (if cursor.tokens = [exitWord] then pure Line.exit
      else ExceptT.adapt SyntaxError.usage Command.readLine >>= fun command =>
        pure (Line.command command))
    (.ofTokens cursor.tokens) = _
  split
  · rfl
  · rw [outcome_bind, outcome_adapt]
    cases (outcome Command.readLine (.ofTokens cursor.tokens)).1 <;> rfl

/-- The word that ends a session is no command. -/
theorem Command.readLine_exit
    : (outcome readLine (.ofTokens [exitWord])).1
      = .error ⟨.verbs, .unknownVerb exitWord⟩ := by
  rfl

/-- The failures of a command are none of those of a line that is no command. -/
theorem Effect.kind_of_command {σ ω : Type} {store : Store σ} {sink : Sink ω} {state : σ}
    {written : ω} {command : Command} {run : Run σ ω} {error : CommandError}
    (effect : Effect store sink state written (.ok command) run)
    (failed : run.result = .error error)
    : error.kind ≠ .invalidVerb ∧ error.kind ≠ .invalidObjective ∧ error.kind ≠ .syntaxError := by
  cases effect with
  | unsupported | failed =>
      cases failed
      simp [CommandError.kind]
  | silent => cases failed
  | shown text =>
      obtain ⟨detail, -, rfl⟩ := mapError_eq_error_iff.mp failed
      simp [CommandError.kind]

/-- The check accepts what reading accepts, with the same command, and refuses what reading
refuses, with the hint of the same cause. Execution then fails with that cause under the kind
that the hint stands for, and it fails so for no other line than the word that ends a session.
-/
theorem checked_read_executed_agree {σ ω : Type} (store : Store σ) (sink : Sink ω)
    (checked executed : Cursor) (same : executed.tokens = checked.tokens) (state : σ)
    (written : ω)
    : let result := Dispatcher.standard.execute store sink executed state written
      (Line.read.run checked).2.tokens = checked.tokens
      ∧ match (Line.read.run checked).1 with
        | .error usage =>
            ∃ cause,
              (Command.readLine.run (.ofTokens checked.tokens)).1 = .error cause
              ∧ cause.usage = usage
              ∧ result.2 = (state, written)
              ∧ match usage with
                | .verbs => result.1 = .error (.invalidVerb cause)
                | .objectives _ => result.1 = .error (.invalidObjective cause)
                | .command _ => result.1 = .error (.invalidFields cause)
        | .ok (.command command) =>
            (Command.readLine.run (.ofTokens checked.tokens)).1 = .ok command
            ∧ ∀ error,
                result.1 = .error error
                → error.kind ≠ .invalidVerb
                  ∧ error.kind ≠ .invalidObjective
                  ∧ error.kind ≠ .syntaxError
        | .ok .exit =>
            checked.tokens = ["exit"]
            ∧ result.2 = (state, written)
            ∧ ∃ cause, result.1 = .error (.invalidVerb cause) := by
  have reads : Line.read.run checked = outcome Line.read checked := rfl
  obtain ⟨run, effect, does, -⟩ :=
    Dispatcher.effect_of_execute store sink executed state [] written []
  dsimp only
  rw [reads, Line.outcome_read, does]
  -- both start over from the same tokens
  rw [same] at effect
  split
  · next alone =>
      rw [alone, Command.readLine_exit] at effect
      cases effect
      exact ⟨rfl, alone, rfl, _, rfl⟩
  · refine ⟨Command.keepsTokens_readLine (.ofTokens checked.tokens), ?_⟩
    cases read : (outcome Command.readLine (.ofTokens checked.tokens)).1 with
    | ok command =>
        rw [read] at effect
        exact ⟨read, fun _ => effect.kind_of_command⟩
    | error cause =>
        rw [read] at effect
        cases effect
        refine ⟨cause, read, rfl, rfl, ?_⟩
        obtain ⟨usage, cause⟩ := cause
        cases usage <;> rfl

/-- An objective that its verb does not take is refused alike by the check, behind the second
token, and by the execution, in front of the first one.
-/
theorem checked_read_executed_agree_on_add_vertex
    : (Cursor.ofTokens ["add", "vertex", "k"]).tokens
        = (Cursor.mk ["vertex", "add"] ["k"]).tokens
      ∧ (Line.read.run ⟨["vertex", "add"], ["k"]⟩).1 = .error (.objectives .add)
      ∧ ∃ cause,
          cause.usage = .objectives .add
          ∧ Dispatcher.standard.execute ⟨fun _ state => (.error .timeout, state)⟩ .text
              (.ofTokens ["add", "vertex", "k"]) () ""
            = (.error (.invalidObjective cause), (), "") := by
  have agree :=
    checked_read_executed_agree ⟨fun _ state => (.error .timeout, state)⟩ .text
      ⟨["vertex", "add"], ["k"]⟩ (.ofTokens ["add", "vertex", "k"]) rfl () ""
  have refused : (Line.read.run ⟨["vertex", "add"], ["k"]⟩).1 = .error (.objectives .add) := by
    decide +kernel
  rw [refused] at agree
  obtain ⟨-, cause, -, usage, unchanged, failed⟩ := agree
  exact ⟨rfl, refused, cause, usage, Prod.ext failed unchanged⟩

end GraphShell
