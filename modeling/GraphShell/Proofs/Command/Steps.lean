import GraphShell.Command

/-! Steps over a cursor, run to their result and the cursor that they reach. A sequence of
steps succeeds exactly if each of them does, from where the one before it ended.
-/

namespace GraphShell

variable {ε α β : Type} {cursor after : Cursor}

/-- The result of a step from a cursor, and the cursor that it reaches. -/
def outcome (step : ExceptT ε (StateM Cursor) α) (cursor : Cursor) : Except ε α × Cursor :=
  step.run cursor

-----------------------------------------------------------------------------------------
-- Outcomes of single steps
-----------------------------------------------------------------------------------------

theorem outcome_pure (value : α) (cursor : Cursor)
    : outcome (pure value : ExceptT ε (StateM Cursor) α) cursor = (.ok value, cursor) := rfl

theorem outcome_ofExcept (result : Except ε α) (cursor : Cursor)
    : outcome (MonadExcept.ofExcept result) cursor = (result, cursor) := by
  cases result <;> rfl

/-- A sequence of steps stops at its first failure. -/
theorem outcome_bind (step : ExceptT ε (StateM Cursor) α)
    (next : α → ExceptT ε (StateM Cursor) β) (cursor : Cursor)
    : outcome (step >>= next) cursor
      = match outcome step cursor with
        | (.ok value, middle) => outcome (next value) middle
        | (.error cause, middle) => (.error cause, middle) := by
  change ExceptT.bindCont next (outcome step cursor).1 (outcome step cursor).2 = _
  rcases outcome step cursor with ⟨_ | _, _⟩ <;> rfl

/-- A change of the failures leaves results and cursors alone. -/
theorem outcome_adapt {ε' : Type} (change : ε → ε') (step : ExceptT ε (StateM Cursor) α)
    (cursor : Cursor)
    : outcome (ExceptT.adapt change step) cursor
      = ((outcome step cursor).1.mapError change, (outcome step cursor).2) := rfl

theorem outcome_under (usage : Usage) (reader : Reader α) (cursor : Cursor)
    : outcome (reader.under usage) cursor
      = ((outcome reader cursor).1.mapError (SyntaxError.mk usage), (outcome reader cursor).2) :=
  outcome_adapt (SyntaxError.mk usage) reader cursor

theorem Reader.outcome_token (read : String → Except ParseError α) (cursor : Cursor)
    : outcome (token read) cursor = (cursor.peek >>= read, cursor.advance) :=
  outcome_ofExcept (cursor.peek >>= read) cursor.advance

theorem Reader.outcome_hasNext (cursor : Cursor)
    : outcome hasNext cursor = (.ok cursor.hasNext, cursor) := rfl

theorem Reader.outcome_expectEnd (cursor : Cursor)
    : outcome expectEnd cursor = (cursor.expectEnd, cursor) :=
  outcome_ofExcept cursor.expectEnd cursor

theorem mapError_ok {ε' : Type} (change : ε → ε') (value : α)
    : (Except.ok value).mapError change = .ok value := rfl

theorem mapError_error {ε' : Type} (change : ε → ε') (cause : ε)
    : (Except.error cause : Except ε α).mapError change = .error (change cause) := rfl

theorem mapError_eq_error_iff {ε' : Type} {result : Except ε α} {change : ε → ε'} {error : ε'}
    : result.mapError change = .error error
      ↔ ∃ cause, result = .error cause ∧ change cause = error := by
  cases result <;> simp [mapError_ok, mapError_error]

-----------------------------------------------------------------------------------------
-- Success
-----------------------------------------------------------------------------------------

/-- A step and the rest succeed if the step does and the rest does from where it ended. -/
theorem outcome_bind_eq_ok {step : ExceptT ε (StateM Cursor) α}
    {next : α → ExceptT ε (StateM Cursor) β} {value : β}
    : outcome (step >>= next) cursor = (.ok value, after)
      ↔ ∃ first middle,
          outcome step cursor = (.ok first, middle)
          ∧ outcome (next first) middle = (.ok value, after) := by
  rw [outcome_bind]
  rcases outcome step cursor with ⟨_ | first, middle⟩ <;> simp [and_assoc]

/-- The same wherever the sequence ends. -/
theorem outcome_bind_ok {step : ExceptT ε (StateM Cursor) α}
    {next : α → ExceptT ε (StateM Cursor) β} {value : β}
    : (outcome (step >>= next) cursor).1 = .ok value
      ↔ ∃ first middle,
          outcome step cursor = (.ok first, middle)
          ∧ (outcome (next first) middle).1 = .ok value := by
  constructor
  · intro succeeds
    obtain ⟨first, middle, reached, rest⟩ := outcome_bind_eq_ok.mp (Prod.ext succeeds rfl)
    exact ⟨first, middle, reached, congrArg Prod.fst rest⟩
  · rintro ⟨first, middle, reached, rest⟩
    exact congrArg Prod.fst
      (outcome_bind_eq_ok.mpr ⟨first, middle, reached, Prod.ext rest rfl⟩)

theorem outcome_map_ok {step : ExceptT ε (StateM Cursor) α} {change : α → β} {value : β}
    : (outcome (step >>= fun first => pure (change first)) cursor).1 = .ok value
      ↔ ∃ first, (outcome step cursor).1 = .ok first ∧ change first = value := by
  rw [outcome_bind]
  rcases outcome step cursor with ⟨_ | first, middle⟩ <;> simp [outcome_pure]

theorem outcome_under_ok {usage : Usage} {reader : Reader α} {value : α}
    : (outcome (reader.under usage) cursor).1 = .ok value
      ↔ (outcome reader cursor).1 = .ok value := by
  rw [outcome_under]
  rcases outcome reader cursor with ⟨_ | _, _⟩ <;> simp [mapError_ok, mapError_error]

/-- A step and the rest fail if the step does, or the rest from where it ended. -/
theorem outcome_bind_error {step : ExceptT ε (StateM Cursor) α}
    {next : α → ExceptT ε (StateM Cursor) β} {cause : ε}
    : (outcome (step >>= next) cursor).1 = .error cause
      ↔ (outcome step cursor).1 = .error cause
        ∨ ∃ first middle,
            outcome step cursor = (.ok first, middle)
            ∧ (outcome (next first) middle).1 = .error cause := by
  rw [outcome_bind]
  rcases outcome step cursor with ⟨_ | first, middle⟩ <;> simp [and_assoc]

theorem usage_of_outcome_under {usage : Usage} {reader : Reader α} {cause : SyntaxError}
    (failed : (outcome (reader.under usage) cursor).1 = .error cause)
    : cause.usage = usage := by
  rw [outcome_under] at failed
  obtain ⟨_, -, rfl⟩ := mapError_eq_error_iff.mp failed
  rfl

namespace Reader

/-- Reading a token and the rest succeeds if there is a token, it suits, and the rest is read
behind it.
-/
theorem outcome_token_bind_ok {read : String → Except ParseError α} {next : α → Reader β}
    {value : β}
    : (outcome (token read >>= next) cursor).1 = .ok value
      ↔ ∃ found rest first,
          cursor.ahead = found :: rest
          ∧ read found = .ok first
          ∧ (outcome (next first) ⟨found :: cursor.passed, rest⟩).1 = .ok value := by
  rw [outcome_bind, outcome_token]
  obtain ⟨passed, ahead⟩ := cursor
  cases ahead with
  | nil => simp [Cursor.peek, bind, Except.bind]
  | cons found rest =>
      cases suits : read found <;>
        simp [Cursor.peek, Cursor.advance, bind, Except.bind, suits, and_assoc]

theorem outcome_ofOption_bind_ok {read : String → Option α} {cause : String → ParseError}
    {next : α → Reader β} {value : β}
    : (outcome (ofOption read cause >>= next) cursor).1 = .ok value
      ↔ ∃ found rest first,
          cursor.ahead = found :: rest
          ∧ read found = some first
          ∧ (outcome (next first) ⟨found :: cursor.passed, rest⟩).1 = .ok value := by
  have same (found : String) (first : α)
      : (read found).elim (Except.error (cause found)) .ok = .ok first
        ↔ read found = some first := by
    cases read found <;> simp
  simp only [ofOption, outcome_token_bind_ok, same]

/-- A token that suits is passed, whatever hint its refusal would carry. -/
theorem outcome_under_ofOption_eq_ok {read : String → Option α} {cause : String → ParseError}
    {usage : Usage} {value : α}
    : outcome ((ofOption read cause).under usage) cursor = (.ok value, after)
      ↔ ∃ found rest,
          cursor.ahead = found :: rest
          ∧ read found = some value
          ∧ after = ⟨found :: cursor.passed, rest⟩ := by
  rw [outcome_under, ofOption, outcome_token]
  obtain ⟨passed, ahead⟩ := cursor
  cases ahead with
  | nil => simp [Cursor.peek, bind, Except.bind, mapError_error]
  | cons found rest =>
      simp only [List.cons.injEq, and_assoc, exists_and_left, exists_eq_left', Cursor.peek,
        Cursor.advance, bind, Except.bind]
      cases read found <;> simp [mapError_ok, mapError_error, eq_comm]

/-- A token that is refused does not suit, if there is one at all. -/
theorem eq_none_of_outcome_under_ofOption {read : String → Option α} {cause : String → ParseError}
    {usage : Usage} {error : SyntaxError} {found : String}
    (failed : (outcome ((ofOption read cause).under usage) cursor).1 = .error error)
    (ahead : cursor.ahead.head? = some found)
    : read found = none := by
  cases suits : read found with
  | none => rfl
  | some value =>
      obtain ⟨rest, split⟩ := List.head?_eq_some_iff.mp ahead
      rw [outcome_under_ofOption_eq_ok.mpr ⟨found, rest, split, suits, rfl⟩] at failed
      cases failed

/-- What stands behind the end check is done only at the end. -/
theorem outcome_expectEnd_bind_ok {next : Unit → Reader β} {value : β}
    : (outcome (expectEnd >>= next) cursor).1 = .ok value
      ↔ cursor.ahead = [] ∧ (outcome (next ()) cursor).1 = .ok value := by
  rw [outcome_bind, outcome_expectEnd]
  obtain ⟨passed, ahead⟩ := cursor
  cases ahead <;> simp [Cursor.expectEnd]

/-- What a single token says about a time to live. -/
def ttlOf (found : String) : Except ParseError Duration :=
  match Token.int? found with
  | none => .error (.invalidInteger found)
  | some seconds =>
      if seconds.toInt < 0 then .error (.negativeTtl seconds)
      else .ok (.ofSeconds seconds.toInt.toNat)

/-- A time to live is read from a single token. -/
theorem ttl_eq_token : ttl = token ttlOf := by
  funext cursor
  obtain ⟨passed, _ | ⟨found, rest⟩⟩ := cursor
  · rfl
  · change outcome ttl ⟨passed, found :: rest⟩ = outcome (token ttlOf) ⟨passed, found :: rest⟩
    rw [ttl, int, ofOption, outcome_bind, outcome_token, outcome_token]
    cases read : Token.int? found with
    | none => simp [Cursor.peek, Cursor.advance, bind, Except.bind, ttlOf, read]
    | some seconds =>
        by_cases negative : seconds.toInt < 0
        · simp [Cursor.peek, Cursor.advance, bind, Except.bind, ttlOf, read, negative]
          rfl
        · simp [Cursor.peek, Cursor.advance, bind, Except.bind, ttlOf, read, negative]
          rfl

end Reader

end GraphShell
