import GraphShell.Proofs.Dispatch.Agreement

/-! Whatever is done at a cursor, and however it ends, the tokens stay and the position stays among
them. It moves backwards only where the tokens are read anew, and where the reading of a whole line
has failed it tells the token at fault.
-/

namespace GraphShell

-----------------------------------------------------------------------------------------
-- What can be done at a cursor
-----------------------------------------------------------------------------------------

/-- A field that takes a single token. Routes have all of these but the float and the timestamp,
which only a caller at a cursor asks for.
-/
inductive Field
  | string
  | int
  | float
  | bool
  | timestamp
  | weight
  | scalar
  | ttl

namespace Field

/-- What a field is read as. -/
abbrev Value : Field → Type
  | string => String
  | int => Int64
  | float => Double
  | bool => Bool
  | timestamp => Timestamp
  | weight => Weight
  | scalar => Scalar
  | ttl => Duration

/-- The reader of a field. -/
def reader : (field : Field) → Reader field.Value
  | string => Reader.string
  | int => Reader.int
  | float => Reader.float
  | bool => Reader.bool
  | timestamp => Reader.timestamp
  | weight => Reader.weight
  | scalar => Reader.scalar
  | ttl => Reader.ttl

end Field

/-- An operation on a cursor, or a reader run at it. -/
inductive Action
  | peek
  | hasNext
  | expectEnd
  | advance
  | reset
  | field (field : Field)
  | optionalTtl
  | route
  | fields (route : Route)
  | line
  | check

namespace Action

/-- The cursor that an action leaves, whether or not it fails. -/
def run : Action → Cursor → Cursor
  -- the token ahead is looked up and not taken
  | peek, cursor => cursor
  | hasNext, cursor => (outcome Reader.hasNext cursor).2
  | expectEnd, cursor => (outcome Reader.expectEnd cursor).2
  | advance, cursor => cursor.advance
  | reset, cursor => cursor.reset
  | field taken, cursor => (outcome taken.reader cursor).2
  | optionalTtl, cursor => (outcome Reader.optionalTtl cursor).2
  | route, cursor => (outcome Route.read cursor).2
  | fields shape, cursor => (outcome (Command.read shape) cursor).2
  | line, cursor => (outcome Command.readLine cursor).2
  | check, cursor => (outcome Line.read cursor).2

/-- Whether an action starts from the first token again. -/
def rewinds : Action → Bool
  | reset | check => true
  | _ => false

/-- The cursor that actions leave, one after the other. -/
def runAll (actions : List Action) (cursor : Cursor) : Cursor :=
  actions.foldl (fun cursor action => action.run cursor) cursor

end Action

-----------------------------------------------------------------------------------------
-- Single actions
-----------------------------------------------------------------------------------------

theorem Cursor.position_le_length (cursor : Cursor) : cursor.position ≤ cursor.tokens.length := by
  simp [position, tokens]

theorem Cursor.position_advance (cursor : Cursor)
    : cursor.advance.position
      = if cursor.position < cursor.tokens.length then cursor.position + 1
        else cursor.position := by
  obtain ⟨passed, ahead⟩ := cursor
  cases ahead <;> simp [advance, position, tokens]

theorem Cursor.position_le_advance (cursor : Cursor)
    : cursor.position ≤ cursor.advance.position := by
  rw [position_advance]
  split <;> omega

theorem Cursor.eq_ofTokens {cursor : Cursor} (start : cursor.position = 0)
    : cursor = .ofTokens cursor.tokens := by
  obtain ⟨passed, ahead⟩ := cursor
  obtain rfl : passed = [] := List.length_eq_zero_iff.mp start
  rfl

/-- The reader of a field moves the cursor as if it were just advanced. -/
theorem Field.outcome_reader (field : Field) (cursor : Cursor)
    : (outcome field.reader cursor).2 = cursor.advance := by
  cases field with
  | ttl =>
      change (outcome Reader.ttl cursor).2 = _
      rw [Reader.ttl_eq_token, Reader.outcome_token]
  | string | int | float | bool | timestamp | weight | scalar =>
      exact congrArg Prod.snd (Reader.outcome_token _ cursor)

theorem Line.keepsTokens_read : KeepsTokens read := by
  intro cursor
  rw [outcome_read]
  split
  · rfl
  · exact Command.keepsTokens_readLine (.ofTokens cursor.tokens)

namespace Action

theorem tokens_run (action : Action) (cursor : Cursor)
    : (action.run cursor).tokens = cursor.tokens := by
  cases action with
  | peek | hasNext => rfl
  | expectEnd => exact Reader.advances_expectEnd.keepsTokens cursor
  | advance => exact cursor.tokens_advance
  | reset => exact cursor.tokens_reset
  | field taken => rw [run, taken.outcome_reader, Cursor.tokens_advance]
  | optionalTtl => exact Reader.advances_optionalTtl.keepsTokens cursor
  | route => exact Route.advances_read.keepsTokens cursor
  | fields shape => exact (Command.advances_read shape).keepsTokens cursor
  | line => exact Command.keepsTokens_readLine cursor
  | check => exact Line.keepsTokens_read cursor

theorem position_le_run {action : Action} (onward : action.rewinds = false) (cursor : Cursor)
    : cursor.position ≤ (action.run cursor).position := by
  cases action with
  | reset | check => cases onward
  | peek | hasNext => exact Nat.le_refl _
  | expectEnd => exact Reader.advances_expectEnd.position_le cursor
  | advance => exact cursor.position_le_advance
  | field taken =>
      rw [run, taken.outcome_reader]
      exact cursor.position_le_advance
  | optionalTtl => exact Reader.advances_optionalTtl.position_le cursor
  | route => exact Route.advances_read.position_le cursor
  | fields shape => exact (Command.advances_read shape).position_le cursor
  | line => exact Command.advances_readLine.position_le cursor

-----------------------------------------------------------------------------------------
-- Runs of actions
-----------------------------------------------------------------------------------------

/-- No run of actions changes a token, by induction on the actions. -/
theorem tokens_runAll (actions : List Action) (cursor : Cursor)
    : (runAll actions cursor).tokens = cursor.tokens := by
  induction actions generalizing cursor with
  | nil => rfl
  | cons action rest ih => exact (ih (action.run cursor)).trans (action.tokens_run cursor)

/-- A run without an action that rewinds goes forward, by induction on the actions. -/
theorem position_le_runAll {actions : List Action}
    (onward : ∀ action ∈ actions, action.rewinds = false) (cursor : Cursor)
    : cursor.position ≤ (runAll actions cursor).position := by
  induction actions generalizing cursor with
  | nil => exact Nat.le_refl _
  | cons action rest ih =>
      obtain ⟨first, later⟩ := List.forall_mem_cons.mp onward
      exact (position_le_run first cursor).trans (ih later (action.run cursor))

end Action

-----------------------------------------------------------------------------------------
-- Failed readings
-----------------------------------------------------------------------------------------

namespace Command

/-- The token is at fault behind others: these can go on to a command, and with it they cannot. -/
def AtFault (before : List String) (token : String) : Prop :=
  Completable before ∧ ¬ Completable (before ++ [token])

/-- Where a reading of the tokens that fails for a cause leaves the cursor: at the end if tokens are
missing, at the token at fault if none should be there, and behind it if it is refused.
-/
inductive StopsAt (tokens : List String) (cause : ParseError) (position : Nat) : Prop
  | short (missing : cause = .outOfRange) (reached : position = tokens.length)
  | leftover {before token behind} (split : tokens = before ++ token :: behind)
    (fault : AtFault before token) (left : cause = .notAtEnd token)
    (reached : position = before.length)
  | refused {before token behind} (split : tokens = before ++ token :: behind)
    (fault : AtFault before token) (about : cause.IsAbout token)
    (met : ∀ other, cause ≠ .notAtEnd other) (reached : position = before.length + 1)

variable {tokens before : List String} {token : String} {error : SyntaxError} {after : Cursor}

/-- Tokens that are refused whatever follows are those of no command. -/
theorem not_completable (error : SyntaxError)
    (refused : ∀ other, (outcome readLine ⟨[], tokens ++ other⟩).1 = .error error)
    : ¬ Completable tokens := by
  intro completable
  obtain ⟨more, command, read⟩ := completable
  exact absurd ((refused more).symm.trans read) nofun

/-- Tokens that are passed without a refusal can go on to a command: alone they are one, or they are
short of one, since a refusal among them would have come first.
-/
theorem completable_of_passed {front rest : List String}
    (failed : outcome readLine (.ofTokens (front ++ rest)) = (.error error, after))
    (passed : front.length ≤ after.position)
    (beyond : (∀ other, error.cause ≠ .notAtEnd other) → front.length < after.position)
    : Completable front := by
  cases advances_readLine front with
  | done command _ left split reached =>
      refine ⟨[], command, ?_⟩
      rw [List.append_nil, split]
      exact congrArg Prod.fst (reached [] left rfl)
  | short _ missing reached =>
      cases decisive_readLine front with
      | accepted accepts =>
          obtain ⟨command, read⟩ := accepts []
          exact absurd ((congrArg Prod.fst (reached [])).symm.trans read) nofun
      | short more _ _ completed =>
          obtain ⟨command, read⟩ := completed []
          exact ⟨more, command, read⟩
      | @final _ _ behind before _ split about _ refuses =>
          have same := refuses behind []
          rw [← split, reached] at same
          rw [← Except.error.inj same, missing] at about
          cases about
  | leftover _ before behind split _ reached =>
      have first := reached [] (behind ++ rest)
      rw [← List.cons_append, ← List.append_assoc, ← split] at first
      obtain ⟨-, rfl⟩ := Prod.mk.inj (first.symm.trans failed)
      have inside : before.length < front.length := by simp [split]
      have outside : front.length ≤ before.length := by simpa [Cursor.position] using passed
      omega
  | refused found before behind split _ met reached =>
      have first := reached [] (behind ++ rest)
      rw [← List.cons_append, ← List.append_assoc, ← split] at first
      obtain ⟨same, rfl⟩ := Prod.mk.inj (first.symm.trans failed)
      have inside : before.length < front.length := by simp [split]
      have outside : front.length < before.length + 1 := by
        simpa [Cursor.position] using beyond (Except.error.inj same ▸ met)
      omega

/-- A failed reading from the first token on stops at the end or by the token at fault. -/
theorem stopsAt_of_failed
    (failed : outcome readLine (.ofTokens tokens) = (.error error, after))
    : StopsAt tokens error.cause after.position := by
  cases advances_readLine tokens with
  | done command front rest split reached =>
      have read := reached [] rest rfl
      rw [← split] at read
      exact absurd (failed.symm.trans read) nofun
  | short found missing reached =>
      obtain ⟨same, rfl⟩ := Prod.mk.inj ((reached []).symm.trans failed)
      obtain rfl := Except.error.inj same
      exact .short missing (by simp [Cursor.position])
  | @leftover found before behind token split left reached =>
      have read := reached [] behind
      rw [← split] at read
      obtain ⟨same, rfl⟩ := Prod.mk.inj (read.symm.trans failed)
      obtain rfl := Except.error.inj same
      have completable : Completable before := by
        refine completable_of_passed (split ▸ failed) (by simp [Cursor.position]) ?_
        exact fun met => absurd left (met token)
      refine .leftover split ⟨completable, not_completable found fun other => ?_⟩ left
        (by simp [Cursor.position])
      rw [List.append_assoc]
      exact congrArg Prod.fst (reached [] other)
  | refused found before behind split about met reached =>
      have read := reached [] behind
      rw [← split] at read
      obtain ⟨same, rfl⟩ := Prod.mk.inj (read.symm.trans failed)
      obtain rfl := Except.error.inj same
      have completable : Completable before :=
        completable_of_passed (split ▸ failed) (by simp [Cursor.position])
          fun _ => by simp [Cursor.position]
      refine .refused split ⟨completable, not_completable found fun other => ?_⟩ about met
        (by simp [Cursor.position])
      rw [List.append_assoc]
      exact congrArg Prod.fst (reached [] other)

end Command

/-- The check of a line fails where the reading of its tokens from the first one on does. -/
theorem Line.exists_of_outcome_read {cursor after : Cursor} {usage : Usage}
    (failed : outcome read cursor = (.error usage, after))
    : ∃ cause,
        outcome Command.readLine (.ofTokens cursor.tokens) = (.error ⟨usage, cause⟩, after) := by
  rw [outcome_read] at failed
  split at failed
  · cases failed
  · rcases made : outcome Command.readLine (.ofTokens cursor.tokens) with ⟨error | command, reached⟩
    · rw [made] at failed
      obtain ⟨same, rfl⟩ := Prod.mk.inj failed
      obtain rfl : error.usage = usage := Except.error.inj same
      exact ⟨error.cause, rfl⟩
    · rw [made] at failed
      cases failed

-----------------------------------------------------------------------------------------
-- Discipline
-----------------------------------------------------------------------------------------

/-- What holds at a cursor over the tokens. The position is one among them; it goes forward as long
as nothing rewinds, by one token for a field unless it is at the end; and a reading of the whole
line that fails, in itself or within a check, stops by the token at fault.
-/
structure Cursor.Disciplined (tokens : List String) (cursor : Cursor) : Prop where
  kept : cursor.tokens = tokens
  within : cursor.position ≤ tokens.length
  onward
    : ∀ actions : List Action,
        (∀ action ∈ actions, action.rewinds = false)
        → cursor.position ≤ (Action.runAll actions cursor).position
  single
    : ∀ taken : Field,
        ((Action.field taken).run cursor).position
        = if cursor.position < tokens.length then cursor.position + 1 else cursor.position
  refused
    : ∀ error after,
        cursor.position = 0
        → outcome Command.readLine cursor = (.error error, after)
        → Command.StopsAt tokens error.cause after.position
  checked
    : ∀ usage after,
        outcome Line.read cursor = (.error usage, after)
        → ∃ cause,
            outcome Command.readLine (.ofTokens tokens) = (.error ⟨usage, cause⟩, after)
            ∧ Command.StopsAt tokens cause after.position

/-- Every cursor that actions reach, whichever they are and whether or not they fail, keeps its
discipline.
-/
theorem Action.disciplined_runAll (tokens : List String) (actions : List Action)
    : (runAll actions (.ofTokens tokens)).Disciplined tokens := by
  have kept : (runAll actions (.ofTokens tokens)).tokens = tokens :=
    tokens_runAll actions (.ofTokens tokens)
  generalize runAll actions (.ofTokens tokens) = cursor at kept
  subst kept
  refine ⟨rfl, cursor.position_le_length, fun actions => ?_, fun taken => ?_, ?_, ?_⟩
  · exact fun onward => position_le_runAll onward cursor
  · rw [run, taken.outcome_reader, Cursor.position_advance]
  · intro error after start failed
    rw [Cursor.eq_ofTokens start] at failed
    exact Command.stopsAt_of_failed failed
  · intro usage after failed
    obtain ⟨cause, read⟩ := Line.exists_of_outcome_read failed
    exact ⟨cause, read, Command.stopsAt_of_failed read⟩

/-- A negative time to live is passed and refused, and the cursor stands behind it. -/
example
    : (outcome Command.readLine (.ofTokens ["put", "vertex", "k", "v", "-5", "x"])).2
      = ⟨["-5", "v", "k", "vertex", "put"], ["x"]⟩ := by
  rfl

end GraphShell
