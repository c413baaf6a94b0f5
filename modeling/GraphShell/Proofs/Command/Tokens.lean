import GraphShell.Proofs.Command.Refusals

/-! Reading moves a cursor and changes no token, wherever it stops. A step passes some of the tokens
ahead and looks at most at the one behind these; it stops behind the token that it refuses, or at
the token that is one too many. What holds of single tokens carries over to sequences of steps, and
so to whole lines.
-/

namespace GraphShell

variable {ε α β : Type} {cause : ε → ParseError} {step : ExceptT ε (StateM Cursor) α}
  {next : α → ExceptT ε (StateM Cursor) β} {reader : Reader α} {tokens : List String}

/-- The tokens under a cursor are the same after the step. -/
def KeepsTokens {ε α : Type} (step : ExceptT ε (StateM Cursor) α) : Prop :=
  ∀ cursor, (outcome step cursor).2.tokens = cursor.tokens

-----------------------------------------------------------------------------------------
-- Courses of steps
-----------------------------------------------------------------------------------------

/-- The course of a step over the tokens ahead, whatever has been passed before: it succeeds behind
some of them, or misses one behind all of them, or finds one where none should be, or passes one and
refuses it. Tokens further behind have no part in it.
-/
inductive Course (cause : ε → ParseError) (step : ExceptT ε (StateM Cursor) α)
    (tokens : List String)
    : Prop
  | done (value : α) (front rest : List String) (split : tokens = front ++ rest)
    (reached
      : ∀ passed other,
          other.head? = rest.head?
          → outcome step ⟨passed, front ++ other⟩ = (.ok value, ⟨front.reverse ++ passed, other⟩))
  | short (error : ε) (ends : cause error = .outOfRange)
    (reached
      : ∀ passed,
          outcome step ⟨passed, tokens⟩ = (.error error, ⟨tokens.reverse ++ passed, []⟩))
  | leftover (error : ε) (front rest : List String) {token : String}
    (split : tokens = front ++ token :: rest) (left : cause error = .notAtEnd token)
    (reached
      : ∀ passed other,
          outcome step ⟨passed, front ++ token :: other⟩
          = (.error error, ⟨front.reverse ++ passed, token :: other⟩))
  | refused (error : ε) (front rest : List String) {token : String}
    (split : tokens = front ++ token :: rest) (about : (cause error).IsAbout token)
    (met : ∀ other, cause error ≠ .notAtEnd other)
    (reached
      : ∀ passed other,
          outcome step ⟨passed, front ++ token :: other⟩
          = (.error error, ⟨token :: (front.reverse ++ passed), other⟩))

/-- The step takes a course over every list of tokens. -/
def Advances (cause : ε → ParseError) (step : ExceptT ε (StateM Cursor) α) : Prop :=
  ∀ tokens, Course cause step tokens

/-- Wherever a step stops, it has passed the tokens up to there. -/
theorem Advances.passes (advances : Advances cause step) (cursor : Cursor)
    : ∃ front,
        cursor.ahead = front ++ (outcome step cursor).2.ahead
        ∧ (outcome step cursor).2.passed = front.reverse ++ cursor.passed := by
  obtain ⟨passed, ahead⟩ := cursor
  cases advances ahead with
  | done _ front rest split reached =>
      subst split
      exact ⟨front, by rw [reached passed rest rfl], by rw [reached passed rest rfl]⟩
  | short _ _ reached => exact ⟨ahead, by simp [reached], by rw [reached]⟩
  | leftover _ front _ split _ reached =>
      subst split
      exact ⟨front, by rw [reached], by rw [reached]⟩
  | @refused _ front _ token split _ _ reached =>
      subst split
      exact ⟨front ++ [token], by simp [reached], by simp [reached]⟩

theorem Advances.keepsTokens (advances : Advances cause step) : KeepsTokens step := by
  intro cursor
  obtain ⟨front, ahead, passed⟩ := advances.passes cursor
  simp [Cursor.tokens, ahead, passed]

theorem Advances.position_le (advances : Advances cause step) (cursor : Cursor)
    : cursor.position ≤ (outcome step cursor).2.position := by
  obtain ⟨front, -, passed⟩ := advances.passes cursor
  simp [Cursor.position, passed]

-----------------------------------------------------------------------------------------
-- Sequences of steps
-----------------------------------------------------------------------------------------

theorem advances_pure (value : α)
    : Advances cause (pure value : ExceptT ε (StateM Cursor) α) :=
  fun tokens => .done value [] tokens rfl fun _ _ _ => rfl

/-- A sequence takes the course of its first step, and if that succeeds goes on with the next one
from where it ended. The next one is the same whatever follows, as long as it finds the same token.
-/
theorem Advances.bind (first : Advances cause step) (later : ∀ value, Advances cause (next value))
    : Advances cause (step >>= next) := by
  intro tokens
  cases first tokens with
  | short error ends reached =>
      exact .short error ends fun passed => by rw [outcome_bind, reached]
  | leftover error front rest split left reached =>
      exact .leftover error front rest split left fun passed other => by rw [outcome_bind, reached]
  | refused error front rest split about met reached =>
      refine .refused error front rest split about met fun passed other => ?_
      rw [outcome_bind, reached]
  | done value front rest split reached =>
      subst split
      have run (passed other : List String) (same : other.head? = rest.head?)
          : outcome (step >>= next) ⟨passed, front ++ other⟩
            = outcome (next value) ⟨front.reverse ++ passed, other⟩ := by
        rw [outcome_bind, reached passed other same]
      cases later value rest with
      | done result behind left split onward =>
          subst split
          refine .done result (front ++ behind) left (by simp) ?_
          intro passed other same
          rw [List.append_assoc, run passed _ (by simp [List.head?_append, same]),
            onward _ other same]
          simp
      | short error ends onward =>
          refine .short error ends fun passed => ?_
          rw [run passed rest rfl, onward]
          simp
      | leftover error behind rest split left onward =>
          subst split
          refine .leftover error (front ++ behind) rest (by simp) left ?_
          intro passed other
          rw [List.append_assoc, run passed _ (by simp [List.head?_append]), onward]
          simp
      | refused error behind rest split about met onward =>
          subst split
          refine .refused error (front ++ behind) rest (by simp) about met ?_
          intro passed other
          rw [List.append_assoc, run passed _ (by simp [List.head?_append]), onward]
          simp

/-- What is made of the result has no part in the course. -/
theorem Advances.map (advances : Advances cause step) (change : α → β)
    : Advances cause (step >>= fun value => pure (change value)) :=
  advances.bind fun value => advances_pure (change value)

theorem Advances.under (advances : Advances id reader) (usage : Usage)
    : Advances SyntaxError.cause (reader.under usage) := by
  intro tokens
  cases advances tokens with
  | done value front rest split reached =>
      refine .done value front rest split fun passed other same => ?_
      rw [outcome_under, reached passed other same, mapError_ok]
  | short cause ends reached =>
      refine .short ⟨usage, cause⟩ ends fun passed => ?_
      rw [outcome_under, reached, mapError_error]
  | leftover cause front rest split left reached =>
      refine .leftover ⟨usage, cause⟩ front rest split left fun passed other => ?_
      rw [outcome_under, reached, mapError_error]
  | refused cause front rest split about met reached =>
      refine .refused ⟨usage, cause⟩ front rest split about met fun passed other => ?_
      rw [outcome_under, reached, mapError_error]

-----------------------------------------------------------------------------------------
-- Readers
-----------------------------------------------------------------------------------------

namespace Reader

/-- A reader of a token passes the token that it is given, and refuses it for its own sake. -/
theorem advances_token {read : String → Except ParseError α}
    (judged
      : ∀ token cause,
          read token = .error cause
          → cause.IsAbout token ∧ ∀ other, cause ≠ .notAtEnd other)
    : Advances id (token read) := by
  intro tokens
  cases tokens with
  | nil =>
      refine .short .outOfRange rfl fun passed => ?_
      rw [outcome_token]
      rfl
  | cons found rest =>
      cases made : read found with
      | ok value =>
          refine .done value [found] rest rfl ?_
          intro passed other _
          rw [outcome_token]
          simp [Cursor.peek, Cursor.advance, bind, Except.bind, made]
      | error cause =>
          obtain ⟨about, met⟩ := judged found cause made
          refine .refused cause [] rest rfl about met ?_
          intro passed other
          rw [List.nil_append, outcome_token]
          simp [Cursor.peek, Cursor.advance, bind, Except.bind, made]

theorem advances_ofOption {read : String → Option α} {cause : String → ParseError}
    (judged : ∀ token, (cause token).IsAbout token ∧ ∀ other, cause token ≠ .notAtEnd other)
    : Advances id (ofOption read cause) := by
  refine advances_token fun token found refused => ?_
  cases suits : read token with
  | some value =>
      rw [suits] at refused
      cases refused
  | none =>
      rw [suits] at refused
      cases refused
      exact judged token

theorem advances_string : Advances id string :=
  advances_token nofun

theorem advances_scalar : Advances id scalar :=
  advances_token nofun

theorem advances_int : Advances id int :=
  advances_ofOption fun _ => ⟨rfl, nofun⟩

theorem advances_bool : Advances id bool :=
  advances_ofOption fun _ => ⟨rfl, nofun⟩

theorem advances_weight : Advances id weight :=
  advances_ofOption fun _ => ⟨rfl, nofun⟩

theorem advances_ttl : Advances id ttl := by
  rw [ttl_eq_token]
  refine advances_token fun token cause refused => ?_
  unfold ttlOf at refused
  split at refused
  · cases refused
    exact ⟨rfl, nofun⟩
  · next seconds integer =>
      split at refused
      · cases refused
        exact ⟨integer, nofun⟩
      · cases refused

/-- Whether a token is ahead is told by the next one. -/
theorem advances_hasNext : Advances id hasNext := by
  intro tokens
  refine .done (!tokens.isEmpty) [] tokens rfl ?_
  intro passed other same
  have both : other.isEmpty = tokens.isEmpty := by
    cases tokens <;> cases other <;> simp_all
  rw [List.nil_append, outcome_hasNext, Cursor.hasNext, both]
  rfl

theorem advances_expectEnd : Advances id expectEnd := by
  intro tokens
  cases tokens with
  | nil =>
      refine .done () [] [] rfl fun passed other same => ?_
      obtain rfl : other = [] := List.head?_eq_none_iff.mp same
      rfl
  | cons token rest =>
      exact .leftover (.notAtEnd token) [] rest rfl rfl fun _ _ => rfl

theorem advances_optionalTtl : Advances id optionalTtl := by
  refine advances_hasNext.bind fun ahead => ?_
  cases ahead
  · exact advances_pure _
  · exact advances_ttl.bind fun span => advances_expectEnd.map fun _ => span

theorem advances_lastKey : Advances id lastKey :=
  advances_string.bind fun key => advances_expectEnd.map fun _ => key

theorem advances_lastEnds : Advances id lastEnds :=
  advances_string.bind fun tail =>
    advances_string.bind fun head => advances_expectEnd.map fun _ => (tail, head)

theorem advances_weightedEdge (make : String → String → Weight → Duration → α)
    : Advances id
        (do return make (← string) (← string) (← weight) (← optionalTtl) : Reader α) :=
  advances_string.bind fun tail =>
    advances_string.bind fun head =>
      advances_weight.bind fun weight => advances_optionalTtl.map (make tail head weight)

end Reader

-----------------------------------------------------------------------------------------
-- Lines
-----------------------------------------------------------------------------------------

open Reader

theorem Command.advances_read (route : Route) : Advances id (read route) := by
  cases route with
  | getVertex => exact advances_lastKey.map Command.getVertex
  | deleteVertex => exact advances_lastKey.map Command.deleteVertex
  | getEdge => exact advances_lastEnds.map fun ends => Command.getEdge ends.1 ends.2
  | deleteEdge => exact advances_lastEnds.map fun ends => Command.deleteEdge ends.1 ends.2
  | putVertex =>
      exact advances_string.bind fun key =>
        advances_scalar.bind fun value => advances_optionalTtl.map (Command.putVertex key value)
  | putEdge => exact advances_weightedEdge Command.putEdge
  | addEdge => exact advances_weightedEdge Command.addEdge
  | illuminate view =>
      exact advances_string.bind fun seed =>
        advances_int.bind fun step =>
          advances_int.bind fun k =>
            advances_bool.bind fun tfidf =>
              advances_expectEnd.map fun _ => Command.illuminate view seed step k tfidf

theorem Route.advances_read : Advances SyntaxError.cause read := by
  have verbs : Advances id (ofOption Verb.ofWord? .unknownVerb) :=
    advances_ofOption fun _ => ⟨rfl, nofun⟩
  have objectives (verb : Verb)
      : Advances id
          (ofOption (fun word => Objective.ofWord? word >>= find? verb)
            (.unknownObjective verb)) :=
    advances_ofOption fun _ => ⟨rfl, nofun⟩
  exact (verbs.under .verbs).bind fun verb => (objectives verb).under (.objectives verb)

theorem Command.advances_readLine : Advances SyntaxError.cause readLine :=
  Route.advances_read.bind fun route => (Command.advances_read route).under (.command route)

/-- Reading a line keeps its tokens, whether it is a command or none. -/
theorem Command.keepsTokens_readLine : KeepsTokens readLine :=
  advances_readLine.keepsTokens

end GraphShell
