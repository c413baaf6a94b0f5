import GraphShell.Graph.Basic
import GraphShell.Scalar.Basic
import GraphShell.Text.Splitting
import GraphShell.Vocabulary

/-! Commands and the grammar of their lines: a verb, an objective that it takes, and one token for
each field. The time to live is the only field that a line may leave out. The tokens are read one
by one from a position among them: a reader takes the token at the position and moves behind it,
whether or not the token suits it.
-/

namespace GraphShell

-----------------------------------------------------------------------------------------
-- Cursors
-----------------------------------------------------------------------------------------

/-- Tokens already passed, the latest first, and the tokens ahead. -/
structure Cursor where
  passed : List String
  ahead : List String
deriving DecidableEq, Repr

namespace Cursor

/-- The cursor in front of the first token. -/
def ofTokens (tokens : List String) : Cursor :=
  ⟨[], tokens⟩

/-- The cursor in front of the first word of a line. -/
def ofLine (line : String) : Cursor :=
  ofTokens (Text.words line)

/-- All tokens in order. -/
def tokens (cursor : Cursor) : List String :=
  cursor.passed.reverse ++ cursor.ahead

/-- The number of tokens in front of the cursor. -/
def position (cursor : Cursor) : Nat :=
  cursor.passed.length

/-- Whether a token is ahead. -/
def hasNext (cursor : Cursor) : Bool :=
  !cursor.ahead.isEmpty

/-- The token at the cursor. -/
def peek (cursor : Cursor) : Except ParseError String :=
  match cursor.ahead with
  | [] => .error .outOfRange
  | token :: _ => .ok token

/-- Moves behind the token at the cursor; at the end nothing moves. -/
def advance (cursor : Cursor) : Cursor :=
  match cursor.ahead with
  | [] => cursor
  | token :: rest => ⟨token :: cursor.passed, rest⟩

/-- Moves in front of the first token. -/
def reset (cursor : Cursor) : Cursor :=
  ofTokens cursor.tokens

/-- Fails with the token at the cursor if there is one. -/
def expectEnd (cursor : Cursor) : Except ParseError Unit :=
  match cursor.ahead with
  | [] => .ok ()
  | token :: _ => .error (.notAtEnd token)

@[simp] theorem tokens_ofTokens (tokens : List String) : (ofTokens tokens).tokens = tokens := rfl

@[simp] theorem tokens_advance (cursor : Cursor) : cursor.advance.tokens = cursor.tokens := by
  unfold advance
  split
  · rfl
  · simp_all [tokens]

@[simp] theorem tokens_reset (cursor : Cursor) : cursor.reset.tokens = cursor.tokens := rfl

end Cursor

/-- A step that reads from a cursor: it ends in a value or a cause, and in either case with
the cursor that it reached.
-/
abbrev Reader := ExceptT ParseError (StateM Cursor)

namespace Reader

/-- Takes the token at the cursor, passes it, and gives what `read` makes of it. -/
def token {α : Type} (read : String → Except ParseError α) : Reader α := do
  let cursor ← get
  set cursor.advance
  MonadExcept.ofExcept (cursor.peek >>= read)

/-- Whether a token is ahead. -/
def hasNext : Reader Bool := do
  return (← get).hasNext

/-- Fails if a token is ahead. -/
def expectEnd : Reader Unit := do
  MonadExcept.ofExcept (← get).expectEnd

end Reader

-----------------------------------------------------------------------------------------
-- Commands
-----------------------------------------------------------------------------------------

/-- A span of time. -/
structure Duration where
  nanoseconds : Nat
deriving DecidableEq, Repr

namespace Duration

/-- A span of whole seconds. -/
def ofSeconds (seconds : Nat) : Duration :=
  ⟨seconds * 1000000000⟩

/-- The whole seconds of a span. -/
def seconds (span : Duration) : Nat :=
  span.nanoseconds / 1000000000

end Duration

/-- What a line asks for. -/
inductive Command
  | getVertex (key : String)
  | getEdge (tail head : String)
  | putVertex (key : String) (value : Scalar) (ttl : Duration)
  | putEdge (tail head : String) (weight : Weight) (ttl : Duration)
  | addEdge (tail head : String) (weight : Weight) (ttl : Duration)
  | deleteVertex (key : String)
  | deleteEdge (tail head : String)
  | illuminate (view : View) (seed : String) (step k : Int64) (tfidf : Bool)
deriving DecidableEq, Repr

/-- The route of a command. -/
def Command.route : Command → Route
  | getVertex .. => .getVertex
  | getEdge .. => .getEdge
  | putVertex .. => .putVertex
  | putEdge .. => .putEdge
  | addEdge .. => .addEdge
  | deleteVertex .. => .deleteVertex
  | deleteEdge .. => .deleteEdge
  | illuminate view .. => .illuminate view

/-- The time to live of an entry whose line names none: 365 days. -/
def Duration.default : Duration :=
  .ofSeconds (365 * 24 * 60 * 60)

namespace Reader

/-- A token that a reader for one kind accepts, or the cause that names the token. -/
def ofOption {α : Type} (read : String → Option α) (cause : String → ParseError)
    : Reader α :=
  token fun found => (read found).elim (.error (cause found)) .ok

/-- Any token, as it is. -/
def string : Reader String :=
  token .ok

/-- An integer. -/
def int : Reader Int64 :=
  ofOption Token.int? .invalidInteger

/-- A finite float, in double precision. No route has such a field: it is one of the kinds of scalar
that a caller may ask a token for by itself, with the cause of its refusal.
-/
def float : Reader Double :=
  ofOption Token.float? .invalidFloat

/-- A truth value. -/
def bool : Reader Bool :=
  ofOption Token.bool? .invalidBool

/-- A timestamp, which is such a kind as well. -/
def timestamp : Reader Timestamp :=
  ofOption Token.timestamp? .invalidTimestamp

/-- A weight, finite in single precision. -/
def weight : Reader Weight :=
  ofOption Token.weight? .invalidFloat

/-- Any scalar. -/
def scalar : Reader Scalar :=
  token fun found => .ok (Token.coerce found)

/-- A count of seconds that is not negative. -/
def ttl : Reader Duration := do
  let seconds ← int
  if seconds.toInt < 0 then throw (.negativeTtl seconds)
  return .ofSeconds seconds.toInt.toNat

/-- The time to live as the last token, or the default one if no token is ahead. -/
def optionalTtl : Reader Duration := do
  if ← hasNext then
    let span ← ttl
    expectEnd
    return span
  else return .default

/-- A key as the last token. -/
def lastKey : Reader String := do
  let key ← string
  expectEnd
  return key

/-- Two keys as the last tokens. -/
def lastEnds : Reader (String × String) := do
  let tail ← string
  let head ← string
  expectEnd
  return (tail, head)

end Reader

/-- Reads the fields behind the two words of a route. -/
def Command.read : Route → Reader Command
  | .getVertex => return .getVertex (← Reader.lastKey)
  | .getEdge => do
      let (tail, head) ← Reader.lastEnds
      return .getEdge tail head
  | .putVertex => return .putVertex (← Reader.string) (← Reader.scalar) (← Reader.optionalTtl)
  | .putEdge =>
      return .putEdge (← Reader.string) (← Reader.string) (← Reader.weight)
        (← Reader.optionalTtl)
  | .addEdge =>
      return .addEdge (← Reader.string) (← Reader.string) (← Reader.weight)
        (← Reader.optionalTtl)
  | .deleteVertex => return .deleteVertex (← Reader.lastKey)
  | .deleteEdge => do
      let (tail, head) ← Reader.lastEnds
      return .deleteEdge tail head
  | .illuminate view => do
      let seed ← Reader.string
      let step ← Reader.int
      let k ← Reader.int
      let tfidf ← Reader.bool
      Reader.expectEnd
      return .illuminate view seed step k tfidf

/-- A step over a cursor whose failures carry the hint for the point they arose at. -/
abbrev LineReader := ExceptT SyntaxError (StateM Cursor)

/-- The step with its failures under a hint. -/
def Reader.under {α : Type} (usage : Usage) (reader : Reader α) : LineReader α :=
  ExceptT.adapt (SyntaxError.mk usage) reader

/-- Reads the verb and the objective of a line. -/
def Route.read : LineReader Route := do
  let verb ← Reader.under .verbs (.ofOption Verb.ofWord? .unknownVerb)
  Reader.under (.objectives verb)
    (.ofOption (fun word => Objective.ofWord? word >>= find? verb) (.unknownObjective verb))

/-- Reads a whole line. -/
def Command.readLine : LineReader Command := do
  let route ← Route.read
  Reader.under (.command route) (read route)

/-- The command of a line, or why the line is none. -/
def Command.ofLine (line : String) : Except SyntaxError Command :=
  (readLine.run (.ofLine line)).1

/-- What a valid line asks for. -/
inductive Line
  | exit
  | command (command : Command)
deriving DecidableEq, Repr

/-- Reads the line under a cursor from its first token on, or gives the hint for the deepest
point reached. The word that ends a session stands alone on its line.
-/
def Line.read : ExceptT Usage (StateM Cursor) Line := do
  modify Cursor.reset
  if (← get).ahead = [exitWord] then return .exit
  else return .command (← ExceptT.adapt SyntaxError.usage Command.readLine)

/-- What a line asks for, or the hint for the deepest point it reached. -/
def Line.ofText (line : String) : Except Usage Line :=
  (Line.read.run (.ofLine line)).1

end GraphShell
