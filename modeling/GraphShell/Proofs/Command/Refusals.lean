import GraphShell.Proofs.Command.Steps

/-! A line that is no command is either too short or beyond repair. Tokens are judged one at a
time and in order, so a refusal is about the first token that no further ones can make good.
-/

namespace GraphShell

/-- The cause names the token, or the number that the token stands for. -/
def ParseError.IsAbout (cause : ParseError) (token : String) : Prop :=
  match cause with
  | outOfRange => False
  | notAtEnd found | invalidInteger found | invalidFloat found | invalidBool found
  | invalidTimestamp found | unknownVerb found | unknownObjective _ found => found = token
  | negativeTtl seconds => Token.int? token = some seconds

variable {ε α β : Type} {cause : ε → ParseError} {step : ExceptT ε (StateM Cursor) α}
  {next : α → ExceptT ε (StateM Cursor) β} {reader : Reader α} {tokens : List String}
  {token : String} {value : α} {error : ε}

-----------------------------------------------------------------------------------------
-- Verdicts on the tokens ahead
-----------------------------------------------------------------------------------------

/-- The step succeeds on the tokens, whatever has been passed. -/
def Accepts (step : ExceptT ε (StateM Cursor) α) (tokens : List String) : Prop :=
  ∀ passed, ∃ value, (outcome step ⟨passed, tokens⟩).1 = .ok value

/-- The step fails on the tokens, whatever has been passed. -/
def Refuses (step : ExceptT ε (StateM Cursor) α) (tokens : List String) (error : ε) : Prop :=
  ∀ passed, (outcome step ⟨passed, tokens⟩).1 = .error error

/-- What a step makes of the tokens ahead: it takes them, or it misses some, or it refuses them for
good. In the last case there is a first token that is at fault: the tokens in front of it could go
on to an accepted list, and with it every list is refused in the same way.
-/
inductive Verdict (cause : ε → ParseError) (step : ExceptT ε (StateM Cursor) α)
    (tokens : List String)
    : Prop
  | accepted (accepts : Accepts step tokens)
  | short {error : ε} (more : List String) (refuses : Refuses step tokens error)
    (ends : cause error = .outOfRange) (completed : Accepts step (tokens ++ more))
  | final {error : ε} {token behind} (before more : List String)
    (split : tokens = before ++ token :: behind)
    (about : (cause error).IsAbout token) (completed : Accepts step (before ++ more))
    (refuses : ∀ rest, Refuses step (before ++ token :: rest) error)

/-- The step has a verdict on every list of tokens. -/
def Decisive (cause : ε → ParseError) (step : ExceptT ε (StateM Cursor) α) : Prop :=
  ∀ tokens, Verdict cause step tokens

/-- No token is at fault in the empty list, so some list is accepted. -/
theorem Decisive.exists_accepts (decisive : Decisive cause step)
    : ∃ tokens, Accepts step tokens := by
  cases decisive [] with
  | accepted accepts => exact ⟨[], accepts⟩
  | short _ _ _ completed => exact ⟨_, completed⟩
  | final _ _ split _ _ _ => simp at split

-----------------------------------------------------------------------------------------
-- Steps that take one token
-----------------------------------------------------------------------------------------

/-- The step makes the value of the token, and passes the token and no other. -/
def Takes (step : ExceptT ε (StateM Cursor) α) (token : String) (value : α) : Prop :=
  ∀ passed rest, outcome step ⟨passed, token :: rest⟩ = (.ok value, ⟨token :: passed, rest⟩)

/-- The step misses a token at the end and otherwise judges the token ahead alone. Some token
suits.
-/
structure TakesToken (cause : ε → ParseError) (step : ExceptT ε (StateM Cursor) α) : Prop where
  short : ∃ error, cause error = .outOfRange ∧ Refuses step [] error
  suited : ∃ token value, Takes step token value
  judged
    : ∀ token,
        (∃ value, Takes step token value)
        ∨ ∃ error, (cause error).IsAbout token ∧ ∀ rest, Refuses step (token :: rest) error

theorem Takes.accepts_bind (takes : Takes step token value) (accepts : Accepts (next value) tokens)
    : Accepts (step >>= next) (token :: tokens) := by
  intro passed
  obtain ⟨result, read⟩ := accepts (token :: passed)
  exact ⟨result, outcome_bind_ok.mpr ⟨value, _, takes passed tokens, read⟩⟩

theorem Takes.refuses_bind (takes : Takes step token value)
    (refuses : Refuses (next value) tokens error)
    : Refuses (step >>= next) (token :: tokens) error := by
  intro passed
  rw [outcome_bind, takes passed tokens]
  exact refuses (token :: passed)

theorem Refuses.bind (refuses : Refuses step tokens error)
    (next : α → ExceptT ε (StateM Cursor) β)
    : Refuses (step >>= next) tokens error := by
  intro passed
  have failed := refuses passed
  rw [outcome_bind]
  rcases result : outcome step ⟨passed, tokens⟩ with ⟨found | value, middle⟩
  · rw [result] at failed
    exact congrArg Except.error (Except.error.inj failed)
  · rw [result] at failed
    cases failed

/-- A token at fault for what is read behind another one is at fault for the whole. -/
theorem Verdict.cons (takes : Takes step token value)
    (verdict : Verdict cause (next value) tokens)
    : Verdict cause (step >>= next) (token :: tokens) := by
  cases verdict with
  | accepted accepts => exact .accepted (takes.accepts_bind accepts)
  | short more refuses ends completed =>
      exact .short more (takes.refuses_bind refuses) ends (takes.accepts_bind completed)
  | final before more split about completed refuses =>
      subst split
      refine .final (token :: before) more rfl about (takes.accepts_bind completed) ?_
      intro rest
      exact takes.refuses_bind (refuses rest)

/-- A step for one token and a decisive rest are decisive together. -/
theorem Decisive.bind (one : TakesToken cause step)
    (rest : ∀ value, Decisive cause (next value))
    : Decisive cause (step >>= next) := by
  have completed : ∃ tokens, Accepts (step >>= next) tokens := by
    obtain ⟨token, value, takes⟩ := one.suited
    obtain ⟨tokens, accepts⟩ := (rest value).exists_accepts
    exact ⟨token :: tokens, takes.accepts_bind accepts⟩
  obtain ⟨whole, accepts⟩ := completed
  intro tokens
  cases tokens with
  | nil =>
      obtain ⟨error, ends, refuses⟩ := one.short
      exact .short whole (refuses.bind next) ends accepts
  | cons token tokens =>
      rcases one.judged token with ⟨value, takes⟩ | ⟨error, about, refuses⟩
      · exact (rest value tokens).cons takes
      · refine .final [] whole rfl about accepts ?_
        intro rest
        exact (refuses rest).bind next

/-- What is made of the result has no part in the verdict. -/
theorem Decisive.map (decisive : Decisive cause step) (change : α → β)
    : Decisive cause (step >>= fun value => pure (change value)) := by
  have kept {tokens : List String} (accepts : Accepts step tokens)
      : Accepts (step >>= fun value => pure (change value)) tokens := by
    intro passed
    obtain ⟨value, read⟩ := accepts passed
    exact ⟨change value, outcome_map_ok.mpr ⟨value, read, rfl⟩⟩
  intro tokens
  cases decisive tokens with
  | accepted accepts => exact .accepted (kept accepts)
  | short more refuses ends completed => exact .short more (refuses.bind _) ends (kept completed)
  | final before more split about completed refuses =>
      exact .final before more split about (kept completed) fun rest => (refuses rest).bind _

-----------------------------------------------------------------------------------------
-- Failures under a hint
-----------------------------------------------------------------------------------------

theorem Accepts.under (accepts : Accepts reader tokens) (usage : Usage)
    : Accepts (reader.under usage) tokens := by
  intro passed
  obtain ⟨value, read⟩ := accepts passed
  exact ⟨value, outcome_under_ok.mpr read⟩

theorem Refuses.under {cause : ParseError} (refuses : Refuses reader tokens cause)
    (usage : Usage)
    : Refuses (reader.under usage) tokens ⟨usage, cause⟩ := by
  intro passed
  rw [outcome_under, refuses passed, mapError_error]

theorem TakesToken.under (one : TakesToken id reader) (usage : Usage)
    : TakesToken SyntaxError.cause (reader.under usage) := by
  have kept {token : String} {value : α} (takes : Takes reader token value)
      : Takes (reader.under usage) token value := by
    intro passed rest
    rw [outcome_under, takes passed rest, mapError_ok]
  refine ⟨?_, ?_, ?_⟩
  · obtain ⟨cause, ends, refuses⟩ := one.short
    exact ⟨⟨usage, cause⟩, ends, refuses.under usage⟩
  · obtain ⟨token, value, takes⟩ := one.suited
    exact ⟨token, value, kept takes⟩
  · intro token
    rcases one.judged token with ⟨value, takes⟩ | ⟨cause, about, refuses⟩
    · exact .inl ⟨value, kept takes⟩
    · exact .inr ⟨⟨usage, cause⟩, about, fun rest => (refuses rest).under usage⟩

theorem Decisive.under (decisive : Decisive id reader) (usage : Usage)
    : Decisive SyntaxError.cause (reader.under usage) := by
  intro tokens
  cases decisive tokens with
  | accepted accepts => exact .accepted (accepts.under usage)
  | short more refuses ends completed =>
      exact .short more (refuses.under usage) ends (completed.under usage)
  | final before more split about completed refuses =>
      exact .final before more split about (completed.under usage) fun rest =>
        (refuses rest).under usage

-----------------------------------------------------------------------------------------
-- Readers
-----------------------------------------------------------------------------------------

namespace Reader

theorem takes_token {read : String → Except ParseError α} (suits : read token = .ok value)
    : Takes (Reader.token read) token value := by
  intro passed rest
  rw [outcome_token]
  simp [Cursor.peek, Cursor.advance, bind, Except.bind, suits]

/-- A reader of a token takes one token if some token suits it and its causes are about the
tokens that do not.
-/
theorem takesToken_token {read : String → Except ParseError α}
    (suited : ∃ token value, read token = .ok value)
    (about : ∀ token cause, read token = .error cause → cause.IsAbout token)
    : TakesToken id (Reader.token read) := by
  refine ⟨⟨.outOfRange, rfl, ?_⟩, ?_, ?_⟩
  · intro passed
    rw [outcome_token]
    rfl
  · obtain ⟨token, value, suits⟩ := suited
    exact ⟨token, value, takes_token suits⟩
  · intro token
    cases judged : read token with
    | ok value => exact .inl ⟨value, takes_token judged⟩
    | error cause =>
        refine .inr ⟨cause, about token cause judged, ?_⟩
        intro rest passed
        rw [outcome_token]
        simp [Cursor.peek, bind, Except.bind, judged]

theorem takesToken_ofOption {read : String → Option α} {cause : String → ParseError}
    (suited : ∃ token value, read token = some value)
    (about : ∀ token, (cause token).IsAbout token)
    : TakesToken id (ofOption read cause) := by
  refine takesToken_token ?_ ?_
  · obtain ⟨token, value, suits⟩ := suited
    exact ⟨token, value, by rw [suits]; rfl⟩
  · intro token found refused
    cases suits : read token with
    | some value =>
        rw [suits] at refused
        cases refused
    | none =>
        rw [suits] at refused
        cases refused
        exact about token

theorem takesToken_string : TakesToken id string :=
  takesToken_token ⟨"", "", rfl⟩ nofun

theorem takesToken_scalar : TakesToken id scalar :=
  takesToken_token ⟨"", Token.coerce "", rfl⟩ nofun

theorem takesToken_int : TakesToken id int :=
  takesToken_ofOption ⟨"0", 0, rfl⟩ fun _ => rfl

theorem takesToken_bool : TakesToken id bool :=
  takesToken_ofOption ⟨"true", true, rfl⟩ fun _ => rfl

theorem takesToken_weight : TakesToken id weight :=
  takesToken_ofOption ⟨"0", .zero false, by decide +kernel⟩ fun _ => rfl

theorem takesToken_ttl : TakesToken id ttl := by
  rw [ttl_eq_token]
  refine takesToken_token ⟨"0", .ofSeconds 0, rfl⟩ ?_
  intro token cause refused
  unfold ttlOf at refused
  split at refused
  · cases refused
    rfl
  · next seconds integer =>
      split at refused
      · cases refused
        exact integer
      · cases refused

/-- At the end of the line every further token is one too many. -/
theorem decisive_expectEnd (value : α) : Decisive id (expectEnd >>= fun _ => pure value) := by
  have none : Accepts (expectEnd >>= fun _ => pure value) [] := fun _ => ⟨value, rfl⟩
  intro tokens
  cases tokens with
  | nil => exact .accepted none
  | cons token behind =>
      have about : (id (ParseError.notAtEnd token)).IsAbout token := rfl
      refine .final [] [] rfl about none ?_
      intro rest passed
      rfl

/-- A time to live as the last token, or none. With a token ahead it is one that has to be there. -/
theorem decisive_optionalTtl : Decisive id optionalTtl := by
  let last : Reader Duration := ttl >>= fun span => expectEnd >>= fun _ => pure span
  have none : Accepts optionalTtl [] := fun _ => ⟨.default, rfl⟩
  have same (passed : List String) (token : String) (rest : List String)
      : outcome optionalTtl ⟨passed, token :: rest⟩ = outcome last ⟨passed, token :: rest⟩ := rfl
  have accepts {token : String} {rest : List String} (accepts : Accepts last (token :: rest))
      : Accepts optionalTtl (token :: rest) := by
    intro passed
    rw [same]
    exact accepts passed
  have refuses {token : String} {rest : List String} {cause : ParseError}
      (refuses : Refuses last (token :: rest) cause)
      : Refuses optionalTtl (token :: rest) cause := by
    intro passed
    rw [same]
    exact refuses passed
  intro tokens
  cases tokens with
  | nil => exact .accepted none
  | cons token rest =>
      have decisive : Decisive id last := .bind takesToken_ttl decisive_expectEnd
      cases decisive (token :: rest) with
      | accepted accepted => exact .accepted (accepts accepted)
      | short more refused ends completed =>
          exact .short more (refuses refused) ends (accepts completed)
      | final before more split about completed refused =>
          cases before with
          | nil => exact .final [] [] split about none fun rest => refuses (refused rest)
          | cons first before =>
              refine .final (first :: before) more split about (accepts completed) ?_
              intro rest
              exact refuses (refused rest)

theorem decisive_lastKey : Decisive id lastKey :=
  .bind takesToken_string decisive_expectEnd

theorem decisive_lastEnds : Decisive id lastEnds :=
  .bind takesToken_string fun tail =>
    .bind takesToken_string fun head => decisive_expectEnd (tail, head)

/-- A weighted edge is two keys, a weight, and a time to live or none. -/
theorem decisive_weightedEdge (make : String → String → Weight → Duration → α)
    : Decisive id
        (do return make (← string) (← string) (← weight) (← optionalTtl) : Reader α) :=
  .bind takesToken_string fun tail =>
    .bind takesToken_string fun head =>
      .bind takesToken_weight fun weight => decisive_optionalTtl.map (make tail head weight)

end Reader

-----------------------------------------------------------------------------------------
-- Lines
-----------------------------------------------------------------------------------------

namespace Command

open Reader

/-- The fields of every route are judged one at a time. -/
theorem decisive_read (route : Route) : Decisive id (read route) := by
  cases route with
  | getVertex => exact decisive_lastKey.map Command.getVertex
  | deleteVertex => exact decisive_lastKey.map Command.deleteVertex
  | getEdge => exact decisive_lastEnds.map fun ends => Command.getEdge ends.1 ends.2
  | deleteEdge => exact decisive_lastEnds.map fun ends => Command.deleteEdge ends.1 ends.2
  | putVertex =>
      exact .bind takesToken_string fun key =>
        .bind takesToken_scalar fun value => decisive_optionalTtl.map (Command.putVertex key value)
  | putEdge => exact decisive_weightedEdge Command.putEdge
  | addEdge => exact decisive_weightedEdge Command.addEdge
  | illuminate view =>
      exact .bind takesToken_string fun seed =>
        .bind takesToken_int fun step =>
          .bind takesToken_int fun k =>
            .bind takesToken_bool fun tfidf =>
              decisive_expectEnd (Command.illuminate view seed step k tfidf)

/-- A line is judged word by word: its verb, its objective, and then the fields of its route. -/
theorem decisive_readLine : Decisive SyntaxError.cause readLine := by
  have verbs : TakesToken id (ofOption Verb.ofWord? .unknownVerb) :=
    takesToken_ofOption ⟨"get", .get, by decide⟩ fun _ => rfl
  have objectives (verb : Verb)
      : TakesToken id
          (ofOption (fun word => Objective.ofWord? word >>= Route.find? verb)
            (.unknownObjective verb)) := by
    refine takesToken_ofOption ?_ fun _ => rfl
    cases verb with
    | get => exact ⟨"edge", .getEdge, by decide⟩
    | put => exact ⟨"edge", .putEdge, by decide⟩
    | add => exact ⟨"edge", .addEdge, by decide⟩
    | delete => exact ⟨"edge", .deleteEdge, by decide⟩
    | illuminate => exact ⟨"neighbor", .illuminate .neighbor, by decide⟩
  rw [readLine, Route.read, bind_assoc]
  refine .bind (verbs.under .verbs) fun verb => ?_
  exact .bind ((objectives verb).under (.objectives verb)) fun route =>
    (decisive_read route).under (.command route)

/-- What a list of tokens is read as. -/
def ofTokens (tokens : List String) : Except SyntaxError Command :=
  (readLine.run (.ofTokens tokens)).1

/-- Further tokens make a command of the tokens. -/
def Completable (tokens : List String) : Prop :=
  ∃ more command, ofTokens (tokens ++ more) = .ok command

theorem Completable.of_prefix {front tokens : List String} (completable : Completable tokens)
    (starts : front <+: tokens)
    : Completable front := by
  obtain ⟨behind, rfl⟩ := starts
  obtain ⟨more, command, read⟩ := completable
  exact ⟨behind ++ more, command, by rw [← List.append_assoc, read]⟩

/-- Tokens that are no command are too short or final. If they end too early, further ones make them
a command. Otherwise any further ones leave the refusal as it is, and the refusal is about the first
token that rules all of them out: what is in front of it can be completed, and with it nothing can.
-/
theorem refusal_short_or_final {tokens : List String} {error : SyntaxError}
    (refused : ofTokens tokens = .error error)
    : (error.cause = .outOfRange → Completable tokens)
      ∧ (error.cause ≠ .outOfRange
        → (∀ more, ofTokens (tokens ++ more) = .error error)
          ∧ ∃ before token behind,
              tokens = before ++ token :: behind
              ∧ error.cause.IsAbout token
              ∧ (∀ front, front <+: before → Completable front)
              ∧ ¬ Completable (before ++ [token])) := by
  cases decisive_readLine tokens with
  | accepted accepts =>
      obtain ⟨command, read⟩ := accepts []
      exact absurd (refused.symm.trans read) nofun
  | @short other more refuses ends completed =>
      have same : error = other := Except.error.inj (refused.symm.trans (refuses []))
      subst same
      obtain ⟨command, read⟩ := completed []
      exact ⟨fun _ => ⟨more, command, read⟩, absurd ends⟩
  | @final other token behind before more split about completed refuses =>
      subst split
      have same : error = other := Except.error.inj (refused.symm.trans (refuses behind []))
      subst same
      refine ⟨?_, ?_⟩
      · intro ends
        rw [ends] at about
        cases about
      · intro _
        refine ⟨?_, before, token, behind, rfl, about, ?_, ?_⟩
        · intro more
          rw [List.append_assoc]
          exact refuses (behind ++ more) []
        · intro front starts
          obtain ⟨command, read⟩ := completed []
          exact Completable.of_prefix ⟨more, command, read⟩ starts
        · intro completable
          obtain ⟨more, command, read⟩ := completable
          rw [List.append_assoc] at read
          exact absurd ((refuses more []).symm.trans read) nofun

/-- A vertex without its value is short of a token. A negative time to live is refused for good,
before the token behind it is looked at.
-/
theorem refusal_short_or_final_of_put
    : let short := ["put", "vertex", "k"]
      let final := ["put", "vertex", "k", "v", "-5", "x"]
      let error : SyntaxError := ⟨.command .putVertex, .negativeTtl (-5)⟩
      ofTokens short = .error ⟨.command .putVertex, .outOfRange⟩
      ∧ Completable short
      ∧ ofTokens final = .error error
      ∧ (∀ more, ofTokens (final ++ more) = .error error)
      ∧ ∃ before token behind,
          final = before ++ token :: behind
          ∧ error.cause.IsAbout token
          ∧ (∀ front, front <+: before → Completable front)
          ∧ ¬ Completable (before ++ [token]) := by
  intro short final error
  have tooShort : ofTokens short = .error ⟨.command .putVertex, .outOfRange⟩ := rfl
  have negative : ofTokens final = .error error := rfl
  exact ⟨tooShort, (refusal_short_or_final tooShort).1 rfl, negative,
    (refusal_short_or_final negative).2 nofun⟩

end Command

end GraphShell
