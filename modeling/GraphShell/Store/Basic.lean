import GraphShell.Command

/-! The boundary between commands and whatever keeps the graph: requests, their answers, and
a store as a machine that answers requests one at a time. The clock of a store has a last reading,
and a span that leads past it leads to no reading at all.
-/

namespace GraphShell

/-- A clock reading. -/
structure Instant where
  nanoseconds : Nat
deriving DecidableEq, Repr

namespace Instant

/-- Readings stay below this number of nanoseconds. -/
def limit : Nat := Nat.pow 2 63 * 1000000000

/-- The reading after a span, unless it lies past the last one. -/
def after? (now : Instant) (span : Duration) : Option Instant :=
  if now.nanoseconds + span.nanoseconds < limit then
    some ⟨now.nanoseconds + span.nanoseconds⟩
  else none

/-- Whether a reading comes before another one. -/
def before (a b : Instant) : Bool :=
  a.nanoseconds < b.nanoseconds

end Instant

/-- A key with its value. -/
structure Vertex where
  key : String
  value : Scalar
deriving DecidableEq, Repr

/-- What a store can be asked. -/
inductive Request
  | getVertex (key : String)
  | putVertex (key : String) (value : Scalar) (ttl : Duration)
  | getEdge (tail head : String)
  | addEdge (tail head : String) (weight : Weight) (ttl : Duration)
  | illuminate (seed : String) (step k : Int64) (tfidf : Bool)
deriving DecidableEq, Repr

/-- What an accepted request is answered with. -/
abbrev Request.Reply : Request → Type
  | getVertex .. => Vertex
  | putVertex .. => Unit
  | getEdge .. => Weight
  | addEdge .. => Unit
  | illuminate .. => Graph

/-- An edge as messages name it. -/
def edgeName (tail head : String) : String :=
  tail ++ " -> " ++ head

/-- What a request is about, as messages name it. -/
def Request.subject : Request → String
  | getVertex key | putVertex key .. => key
  | getEdge tail head | addEdge tail head .. => edgeName tail head
  | illuminate seed .. => seed

/-- Why a request failed. -/
inductive StoreError
  | notFound (subject : String)
  | timeout
  | cancelled
  | transport (detail : String)
  | rejected (status : Nat) (message : String)
  | decode (detail : String)
deriving DecidableEq, Repr

/-- The text of a failure. -/
def StoreError.message : StoreError → String
  | notFound subject => "not found: " ++ subject
  | timeout => "request timed out"
  | cancelled => "request cancelled"
  | transport detail => "transport failure: " ++ detail
  | rejected status message =>
      "rejected by store (" ++ Nat.repr status ++ "): " ++ message
  | decode detail => "malformed response: " ++ detail

/-- A store whose states are `σ`: it answers a request and goes to its next state. -/
structure Store (σ : Type) where
  answer (request : Request) (state : σ) : Except StoreError request.Reply × σ

/-- The store that answers alike and also keeps the requests it was asked, the latest first. -/
def Store.recorded {σ : Type} (store : Store σ) : Store (σ × List Request) where
  answer request state :=
    let (answer, next) := store.answer request state.1
    (answer, next, request :: state.2)

end GraphShell
