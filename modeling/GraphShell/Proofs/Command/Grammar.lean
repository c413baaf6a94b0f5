import GraphShell.Proofs.Command.Steps
import GraphShell.Proofs.Text.Numerals
import GraphShell.Proofs.Text.Words

/-! The language of command lines, stated token by token and apart from the readers, and the
proof that reading a line accepts this language and nothing else.
-/

namespace GraphShell

-----------------------------------------------------------------------------------------
-- The language
-----------------------------------------------------------------------------------------

/-- The tokens that may stand where an entry's time to live does: none for a year of 365 days,
or one that stands for a number of seconds.
-/
inductive Lifetime : Duration → List String → Prop
  | year : Lifetime (.ofSeconds (365 * 24 * 60 * 60)) []
  | seconds {token} {n : Int64} (integer : Text.IsInteger token.toList n.toInt)
    (nonnegative : 0 ≤ n.toInt)
    : Lifetime (.ofSeconds n.toInt.toNat) [token]

/-- The token is a number whose nearest double is finite and, rounded to single precision,
is the finite weight.
-/
def IsWeight (token : String) (weight : Weight) : Prop :=
  ∃ reading : Double,
    Decimal.readNumber? .double token.toList = some reading
    ∧ reading.isFinite = true
    ∧ reading.convert .single = weight
    ∧ weight.isFinite = true

/-- The token is the word of the truth value. -/
def IsTruth (token : String) (flag : Bool) : Prop :=
  token = "true" ∧ flag = true ∨ token = "false" ∧ flag = false

namespace Command

/-- The tokens behind the two words of a command, one for each field. -/
inductive Fields : Command → List String → Prop
  | getVertex {key} : Fields (.getVertex key) [key]
  | getEdge {tail head} : Fields (.getEdge tail head) [tail, head]
  | putVertex {key token value ttl rest} (coerced : Token.coerce token = value)
    (lives : Lifetime ttl rest)
    : Fields (.putVertex key value ttl) (key :: token :: rest)
  | putEdge {tail head token weight ttl rest} (weighs : IsWeight token weight)
    (lives : Lifetime ttl rest)
    : Fields (.putEdge tail head weight ttl) (tail :: head :: token :: rest)
  | addEdge {tail head token weight ttl rest} (weighs : IsWeight token weight)
    (lives : Lifetime ttl rest)
    : Fields (.addEdge tail head weight ttl) (tail :: head :: token :: rest)
  | deleteVertex {key} : Fields (.deleteVertex key) [key]
  | deleteEdge {tail head} : Fields (.deleteEdge tail head) [tail, head]
  | illuminate {view seed stepToken kToken flagToken tfidf} {step k : Int64}
    (steps : Text.IsInteger stepToken.toList step.toInt)
    (limit : Text.IsInteger kToken.toList k.toInt) (flag : IsTruth flagToken tfidf)
    : Fields (.illuminate view seed step k tfidf) [seed, stepToken, kToken, flagToken]

/-- The tokens of a command: the verb and the objective of its route, and its fields. -/
def Spelled (command : Command) (tokens : List String) : Prop :=
  ∃ fields,
    tokens = command.route.verb.word :: command.route.objective.word :: fields
    ∧ command.Fields fields

end Command

/-- How far tokens get: to no verb, to a verb and none of its objectives, or to the fields behind
the two words of a route.
-/
inductive Usage.Reached : Usage → List String → Prop
  | verbs {tokens} (unknown : ∀ verb : Verb, tokens.head? ≠ some verb.word) : Reached .verbs tokens
  | objectives {verb : Verb} {rest}
    (unknown : ∀ objective ∈ verb.objectives, rest.head? ≠ some objective.word)
    : Reached (.objectives verb) (verb.word :: rest)
  | command {route : Route} {fields}
    : Reached (.command route) (route.verb.word :: route.objective.word :: fields)

-----------------------------------------------------------------------------------------
-- Fields
-----------------------------------------------------------------------------------------

namespace Token

theorem weight?_eq_some_iff {token : String} {weight : Weight}
    : weight? token = some weight ↔ IsWeight token weight := by
  simp only [weight?, float?, IsWeight, Option.filter_eq_some_iff, Option.map_eq_some_iff]
  constructor
  · rintro ⟨⟨reading, ⟨read, finite⟩, rounds⟩, representable⟩
    exact ⟨reading, read, finite, rounds, representable⟩
  · rintro ⟨reading, read, finite, rounds, representable⟩
    exact ⟨⟨reading, ⟨read, finite⟩, rounds⟩, representable⟩

theorem bool?_eq_some_iff {token : String} {flag : Bool}
    : bool? token = some flag ↔ IsTruth token flag := by
  unfold bool? IsTruth
  split
  · next yes => simp [yes, eq_comm]
  · split
    · next no => simp [no, eq_comm]
    · next notTrue notFalse => simp [notTrue, notFalse]

end Token

namespace Reader

variable {cursor : Cursor}

theorem ttlOf_eq_ok_iff {found : String} {span : Duration}
    : ttlOf found = .ok span ↔ Lifetime span [found] := by
  unfold ttlOf
  constructor
  · intro read
    split at read
    · cases read
    · next seconds integer =>
        split at read
        · cases read
        · next nonnegative =>
            cases read
            exact .seconds (Token.int?_eq_some_iff.mp integer) (by omega)
  · rintro (_ | ⟨integer, nonnegative⟩)
    rw [Token.int?_eq_some_iff.mpr integer]
    simp only [if_neg (Int.not_lt.mpr nonnegative)]

/-- What is ahead ends an entry's line if it is a time to live or nothing. -/
theorem outcome_optionalTtl_ok {span : Duration}
    : (outcome optionalTtl cursor).1 = .ok span ↔ Lifetime span cursor.ahead := by
  obtain ⟨passed, ahead⟩ := cursor
  rw [optionalTtl, outcome_bind, outcome_hasNext]
  cases ahead with
  | nil =>
      change Except.ok Duration.default = Except.ok span ↔ _
      constructor
      · rintro ⟨⟩
        exact .year
      · rintro ⟨⟩
        rfl
  | cons found rest =>
      change (outcome (ttl >>= fun span => expectEnd >>= fun _ => pure span) _).1 = _ ↔ _
      rw [ttl_eq_token, outcome_token_bind_ok]
      simp only [outcome_expectEnd_bind_ok, outcome_pure, Except.ok.injEq, ttlOf_eq_ok_iff]
      constructor
      · rintro ⟨_, _, _, same, lives, rfl, rfl⟩
        obtain ⟨rfl, rfl⟩ := List.cons.inj same
        exact lives
      · intro lives
        cases lives with
        | seconds integer nonnegative =>
            exact ⟨found, [], _, rfl, .seconds integer nonnegative, rfl, rfl⟩

theorem outcome_lastKey_ok {key : String}
    : (outcome lastKey cursor).1 = .ok key ↔ cursor.ahead = [key] := by
  simp only [lastKey, string, outcome_token_bind_ok, outcome_expectEnd_bind_ok, outcome_pure,
    Except.ok.injEq]
  grind

theorem outcome_lastEnds_ok {tail head : String}
    : (outcome lastEnds cursor).1 = .ok (tail, head) ↔ cursor.ahead = [tail, head] := by
  simp only [lastEnds, string, outcome_token_bind_ok, outcome_expectEnd_bind_ok, outcome_pure,
    Except.ok.injEq]
  grind

/-- A weighted edge is four fields, whatever is made of them. -/
theorem outcome_weightedEdge_ok {α : Type} {make : String → String → Weight → Duration → α}
    {made : α}
    : (outcome (do return make (← string) (← string) (← weight) (← optionalTtl)) cursor).1
        = .ok made
      ↔ ∃ tail head token found ttl rest,
          cursor.ahead = tail :: head :: token :: rest
          ∧ IsWeight token found
          ∧ Lifetime ttl rest
          ∧ make tail head found ttl = made := by
  simp only [string, weight, outcome_token_bind_ok, outcome_ofOption_bind_ok, outcome_map_ok,
    outcome_optionalTtl_ok, Token.weight?_eq_some_iff, Except.ok.injEq]
  constructor
  · rintro ⟨tail, _, _, ahead, rfl, head, _, _, rfl, rfl, token, rest, found, rfl, weighs, ttl,
      lives, same⟩
    exact ⟨tail, head, token, found, ttl, rest, ahead, weighs, lives, same⟩
  · rintro ⟨tail, head, token, found, ttl, rest, ahead, weighs, lives, same⟩
    exact ⟨tail, _, _, ahead, rfl, head, _, _, rfl, rfl, token, rest, found, rfl, weighs, ttl,
      lives, same⟩

end Reader

-----------------------------------------------------------------------------------------
-- Commands
-----------------------------------------------------------------------------------------

namespace Command

variable {cursor : Cursor} {command : Command}

/-- A vertex to put is read from its key, any token for its value, and its time to live. -/
theorem outcome_read_putVertex_ok
    : (outcome (read .putVertex) cursor).1 = .ok command
      ↔ ∃ key token ttl rest,
          cursor.ahead = key :: token :: rest
          ∧ Lifetime ttl rest
          ∧ .putVertex key (Token.coerce token) ttl = command := by
  simp only [read, Reader.string, Reader.scalar, Reader.outcome_token_bind_ok, outcome_map_ok,
    Reader.outcome_optionalTtl_ok, Except.ok.injEq]
  constructor
  · rintro ⟨key, _, _, ahead, rfl, token, rest, _, rfl, rfl, ttl, lives, same⟩
    exact ⟨key, token, ttl, rest, ahead, lives, same⟩
  · rintro ⟨key, token, ttl, rest, ahead, lives, same⟩
    exact ⟨key, _, _, ahead, rfl, token, rest, _, rfl, rfl, ttl, lives, same⟩

/-- A traversal is read from four tokens and no more. -/
theorem outcome_read_illuminate_ok {view : View}
    : (outcome (read (.illuminate view)) cursor).1 = .ok command
      ↔ ∃ seed stepToken kToken flagToken step k tfidf,
          cursor.ahead = [seed, stepToken, kToken, flagToken]
          ∧ Text.IsInteger stepToken.toList (Int64.toInt step)
          ∧ Text.IsInteger kToken.toList (Int64.toInt k)
          ∧ IsTruth flagToken tfidf
          ∧ .illuminate view seed step k tfidf = command := by
  simp only [read, Reader.string, Reader.int, Reader.bool, Reader.outcome_token_bind_ok,
    Reader.outcome_ofOption_bind_ok, Reader.outcome_expectEnd_bind_ok, outcome_pure,
    Token.int?_eq_some_iff, Token.bool?_eq_some_iff, Except.ok.injEq]
  constructor
  · rintro ⟨seed, _, _, ahead, rfl, stepToken, _, step, rfl, steps, kToken, _, k, rfl, limit,
      flagToken, _, tfidf, rfl, flag, rfl, same⟩
    exact ⟨seed, stepToken, kToken, flagToken, step, k, tfidf, ahead, steps, limit, flag, same⟩
  · rintro ⟨seed, stepToken, kToken, flagToken, step, k, tfidf, ahead, steps, limit, flag, same⟩
    exact ⟨seed, _, _, ahead, rfl, stepToken, _, step, rfl, steps, kToken, _, k, rfl, limit,
      flagToken, _, tfidf, rfl, flag, rfl, same⟩

/-- The fields behind the words of a route are read as the command that they make up. -/
theorem outcome_read_ok {route : Route}
    : (outcome (read route) cursor).1 = .ok command
      ↔ command.route = route ∧ command.Fields cursor.ahead := by
  constructor
  · intro accepted
    cases route with
    | getVertex | deleteVertex =>
        obtain ⟨key, found, rfl⟩ := outcome_map_ok.mp accepted
        rw [Reader.outcome_lastKey_ok.mp found]
        exact ⟨rfl, by constructor⟩
    | getEdge | deleteEdge =>
        obtain ⟨⟨tail, head⟩, found, rfl⟩ := outcome_map_ok.mp accepted
        rw [Reader.outcome_lastEnds_ok.mp found]
        exact ⟨rfl, by constructor⟩
    | putVertex =>
        obtain ⟨key, token, ttl, rest, ahead, lives, rfl⟩ := outcome_read_putVertex_ok.mp accepted
        rw [ahead]
        exact ⟨rfl, .putVertex rfl lives⟩
    | putEdge | addEdge =>
        obtain ⟨tail, head, token, weight, ttl, rest, ahead, weighs, lives, rfl⟩ :=
          Reader.outcome_weightedEdge_ok.mp accepted
        rw [ahead]
        exact ⟨rfl, by constructor <;> assumption⟩
    | illuminate view =>
        obtain ⟨seed, _, _, _, step, k, tfidf, ahead, steps, limit, flag, rfl⟩ :=
          outcome_read_illuminate_ok.mp accepted
        rw [ahead]
        exact ⟨rfl, .illuminate steps limit flag⟩
  · -- the constructor of the fields names the route
    rintro ⟨rfl, fields⟩
    generalize ahead : cursor.ahead = tokens at fields
    cases fields with
    | getVertex | deleteVertex =>
        exact outcome_map_ok.mpr ⟨_, Reader.outcome_lastKey_ok.mpr ahead, rfl⟩
    | getEdge | deleteEdge =>
        exact outcome_map_ok.mpr ⟨_, Reader.outcome_lastEnds_ok.mpr ahead, rfl⟩
    | putVertex coerced lives =>
        refine outcome_read_putVertex_ok.mpr ⟨_, _, _, _, ahead, lives, ?_⟩
        rw [coerced]
    | putEdge weighs lives | addEdge weighs lives =>
        exact Reader.outcome_weightedEdge_ok.mpr ⟨_, _, _, _, _, _, ahead, weighs, lives, rfl⟩
    | illuminate steps limit flag =>
        exact outcome_read_illuminate_ok.mpr
          ⟨_, _, _, _, _, _, _, ahead, steps, limit, flag, rfl⟩

end Command

-----------------------------------------------------------------------------------------
-- Lines
-----------------------------------------------------------------------------------------

theorem Verb.ofWord?_eq_some_iff {word : String} {verb : Verb}
    : ofWord? word = some verb ↔ word = verb.word := by
  constructor
  · intro found
    have same := List.find?_some found
    exact (decide_eq_true_eq.mp same).symm
  · rintro rfl
    cases verb <;> rfl

theorem Objective.ofWord?_eq_some_iff {word : String} {objective : Objective}
    : ofWord? word = some objective ↔ word = objective.word := by
  constructor
  · intro found
    have same := List.find?_some found
    exact (decide_eq_true_eq.mp same).symm
  · rintro rfl
    cases objective with
    | view view => cases view <;> rfl
    | _ => rfl

theorem Verb.mem_all (verb : Verb) : verb ∈ Verb.all := by
  cases verb <;> decide

theorem Route.mem_all (route : Route) : route ∈ Route.all := by
  cases route with
  | illuminate view => cases view <;> decide
  | _ => decide

/-- The objectives of a verb are those of its routes. -/
theorem Verb.mem_objectives_iff {verb : Verb} {objective : Objective}
    : objective ∈ verb.objectives
      ↔ ∃ route : Route, route.verb = verb ∧ route.objective = objective := by
  simp [Verb.objectives, Route.mem_all]

/-- Behind a verb, a word selects a route if it is the word of the route's objective. -/
theorem Route.find?_ofWord?_eq_some_iff {word : String} {verb : Verb} {route : Route}
    : (Objective.ofWord? word >>= find? verb) = some route
      ↔ verb = route.verb ∧ word = route.objective.word := by
  simp only [Option.bind_eq_bind, Option.bind_eq_some_iff, Objective.ofWord?_eq_some_iff]
  constructor
  · rintro ⟨objective, rfl, found⟩
    obtain ⟨rfl, rfl⟩ := eq_of_find? found
    exact ⟨rfl, rfl⟩
  · rintro ⟨rfl, rfl⟩
    exact ⟨route.objective, rfl, find?_self route⟩

variable {cursor : Cursor}

/-- A route is read from its two words, and the cursor ends behind them. -/
theorem Route.outcome_read_ok {route : Route} {after : Cursor}
    : outcome read cursor = (.ok route, after)
      ↔ ∃ rest,
          cursor.ahead = route.verb.word :: route.objective.word :: rest
          ∧ after = ⟨route.objective.word :: route.verb.word :: cursor.passed, rest⟩ := by
  simp only [read, outcome_bind_eq_ok, Reader.outcome_under_ofOption_eq_ok,
    Verb.ofWord?_eq_some_iff, find?_ofWord?_eq_some_iff]
  constructor
  · rintro ⟨_, _, ⟨_, _, ahead, rfl, rfl⟩, _, rest, rfl, ⟨rfl, rfl⟩, rfl⟩
    exact ⟨rest, ahead, rfl⟩
  · rintro ⟨rest, ahead, rfl⟩
    exact ⟨_, _, ⟨_, _, ahead, rfl, rfl⟩, _, rest, rfl, ⟨rfl, rfl⟩, rfl⟩

theorem Verb.word_inj {verb other : Verb} (same : verb.word = other.word) : verb = other :=
  Option.some.inj ((ofWord?_eq_some_iff.mpr rfl).symm.trans (ofWord?_eq_some_iff.mpr same))

/-- A route is told by its two words. -/
theorem Route.word_inj {route other : Route} (verbs : route.verb.word = other.verb.word)
    (objectives : route.objective.word = other.objective.word)
    : route = other :=
  Option.some.inj ((find?_ofWord?_eq_some_iff.mpr ⟨rfl, rfl⟩).symm.trans
    (find?_ofWord?_eq_some_iff.mpr ⟨Verb.word_inj verbs, objectives⟩))

theorem Route.objective_mem {route : Route} {verb : Verb} (same : route.verb.word = verb.word)
    : route.objective ∈ verb.objectives :=
  Verb.mem_objectives_iff.mpr ⟨route, Verb.word_inj same, rfl⟩

/-- Tokens get so far in one way only. -/
theorem Usage.Reached.unique {usage other : Usage} {tokens : List String}
    (first : usage.Reached tokens) (second : other.Reached tokens)
    : usage = other := by
  cases first with
  | verbs unknown =>
      cases second with
      | verbs => rfl
      | objectives | command => exact absurd rfl (unknown _)
  | @objectives verb rest unknown =>
      -- under a name of their own, the tokens can be split once more by the second way
      generalize split : verb.word :: rest = tokens at second
      cases second with
      | verbs none => exact absurd (split ▸ rfl) (none verb)
      | objectives => rw [Verb.word_inj (List.cons.inj split).1]
      | command =>
          obtain ⟨same, rfl⟩ := List.cons.inj split
          exact absurd rfl (unknown _ (Route.objective_mem same.symm))
  | @command route fields =>
      generalize split : route.verb.word :: route.objective.word :: fields = tokens at second
      cases second with
      | verbs none => exact absurd (split ▸ rfl) (none route.verb)
      | objectives unknown =>
          obtain ⟨same, rfl⟩ := List.cons.inj split
          exact absurd rfl (unknown _ (Route.objective_mem same))
      | command =>
          obtain ⟨verbs, rest⟩ := List.cons.inj split
          rw [Route.word_inj verbs (List.cons.inj rest).1]

/-- Where the words of a route are missing, it is known how far the tokens get. -/
theorem Route.reached_of_outcome_read {cause : SyntaxError}
    (failed : (outcome read cursor).1 = .error cause)
    : cause.usage.Reached cursor.ahead := by
  rw [read, outcome_bind_error] at failed
  rcases failed with failed | ⟨verb, middle, reached, failed⟩
  · rw [usage_of_outcome_under failed]
    refine .verbs fun verb ahead => ?_
    have unknown := Reader.eq_none_of_outcome_under_ofOption failed ahead
    rw [Verb.ofWord?_eq_some_iff.mpr rfl] at unknown
    cases unknown
  · obtain ⟨word, rest, ahead, known, rfl⟩ := Reader.outcome_under_ofOption_eq_ok.mp reached
    rw [usage_of_outcome_under failed, ahead, Verb.ofWord?_eq_some_iff.mp known]
    refine .objectives fun objective member next => ?_
    -- a word of an objective of the verb would select a route
    obtain ⟨route, rfl, rfl⟩ := Verb.mem_objectives_iff.mp member
    have unknown := Reader.eq_none_of_outcome_under_ofOption failed next
    rw [find?_ofWord?_eq_some_iff.mpr ⟨rfl, rfl⟩] at unknown
    cases unknown

namespace Command

variable {command : Command}

/-- The hint for a line that is no command tells how far its tokens get. -/
theorem reached_of_outcome_readLine {cause : SyntaxError}
    (failed : (outcome readLine cursor).1 = .error cause)
    : cause.usage.Reached cursor.ahead := by
  rw [readLine, outcome_bind_error] at failed
  rcases failed with failed | ⟨route, middle, reached, failed⟩
  · exact Route.reached_of_outcome_read failed
  · obtain ⟨fields, ahead, -⟩ := Route.outcome_read_ok.mp reached
    rw [usage_of_outcome_under failed, ahead]
    exact .command

/-- What is ahead of a cursor is read as the command that it spells. -/
theorem outcome_readLine_ok
    : (outcome readLine cursor).1 = .ok command ↔ command.Spelled cursor.ahead := by
  rw [readLine, outcome_bind_ok]
  simp only [outcome_under_ok, outcome_read_ok, Route.outcome_read_ok]
  constructor
  · rintro ⟨_, _, ⟨rest, ahead, rfl⟩, rfl, fields⟩
    exact ⟨rest, ahead, fields⟩
  · rintro ⟨rest, ahead, fields⟩
    exact ⟨_, _, ⟨rest, ahead, rfl⟩, rfl, fields⟩

/-- A line is accepted as a command exactly if its words spell the command, and it is refused
exactly if they spell none.
-/
theorem accepted_iff_spelled (line : String)
    : (∀ command,
        ofLine line = .ok command ↔ ∃ tokens, Text.AreWords line tokens ∧ command.Spelled tokens)
      ∧ ((∃ cause, ofLine line = .error cause)
        ↔ ¬ ∃ command tokens, Text.AreWords line tokens ∧ Spelled command tokens) := by
  have accepts (command : Command)
      : ofLine line = .ok command
        ↔ ∃ tokens, Text.AreWords line tokens ∧ command.Spelled tokens := by
    change (outcome readLine (.ofLine line)).1 = .ok command ↔ _
    simp only [outcome_readLine_ok, Text.areWords_iff, exists_eq_left']
    rfl
  refine ⟨accepts, ?_⟩
  simp only [← accepts]
  cases ofLine line <;> simp

end Command

end GraphShell
