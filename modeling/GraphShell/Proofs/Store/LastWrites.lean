import GraphShell.Proofs.Graph.Edges
import GraphShell.Store.Basic
import GraphShell.Store.Snapshot
import Mathlib.Data.Finset.Card

/-! What a volatile store answers, told from the calls made on it and not from what it keeps:
the last write of a key, or of a pair, counts for as long as its time to live lasts.
-/

namespace GraphShell

-----------------------------------------------------------------------------------------
-- Calls
-----------------------------------------------------------------------------------------

/-- A call on a volatile store: a request, or one of the two counts. -/
inductive Call
  | request (request : Request)
  | countVertices
  | countEdges
deriving DecidableEq

/-- What a call is answered with. -/
abbrev Call.Reply : Call → Type
  | request asked => Except StoreError asked.Reply
  | countVertices | countEdges => Nat

/-- A call with the clock reading at which it is made. -/
structure TimedCall where
  now : Instant
  call : Call
deriving DecidableEq

/-- The calls made on a store, the earliest first. -/
abbrev Calls := List TimedCall

/-- Readings of a clock that never goes backwards. -/
def Forward (readings : List Instant) : Prop :=
  readings.Pairwise fun earlier later => earlier.nanoseconds ≤ later.nanoseconds

instance (readings : List Instant) : Decidable (Forward readings) :=
  inferInstanceAs (Decidable (readings.Pairwise _))

theorem forward_append_singleton {readings : List Instant} {now : Instant}
    : Forward (readings ++ [now])
      ↔ Forward readings
        ∧ ∀ earlier ∈ readings, earlier.nanoseconds ≤ now.nanoseconds := by
  simp [Forward, List.pairwise_append]

/-- Readings that go forward to the last one also do without the last but one. -/
theorem Forward.of_append_append_singleton {readings : List Instant} {last now : Instant}
    (forward : Forward (readings ++ [last] ++ [now]))
    : Forward (readings ++ [now]) ∧ last.nanoseconds ≤ now.nanoseconds := by
  obtain ⟨within, ends⟩ := forward_append_singleton.mp forward
  refine ⟨forward_append_singleton.mpr ⟨(List.pairwise_append.mp within).1, ?_⟩, ?_⟩
  · intro earlier member
    exact ends earlier (List.mem_append_left _ member)
  · exact ends last (List.mem_append_right _ List.mem_cons_self)

-----------------------------------------------------------------------------------------
-- Writes
-----------------------------------------------------------------------------------------

/-- What was written under a key or a pair, when, and to live for how long. -/
structure Write (α : Type) where
  value : α
  ttl : Duration
  writtenAt : Instant

variable {α : Type}

/-- The write lives at readings before its time and its time to live together. If the clock
does not get that far it lives for ever.
-/
def Write.lives (now : Instant) (write : Write α) : Bool :=
  let expiry := write.writtenAt.nanoseconds + write.ttl.nanoseconds
  Instant.limit ≤ expiry || now.nanoseconds < expiry

/-- The value of a write while the write lives. -/
def Write.value? (now : Instant) (write : Option (Write α)) : Option α :=
  (write.filter (lives now)).map value

namespace TimedCall

/-- The write of a vertex under a key, if the call is one. -/
def put? (key : String) (timed : TimedCall) : Option (Write Scalar) :=
  match timed.call with
  | .request (.putVertex other value ttl) =>
      if other = key then some ⟨value, ttl, timed.now⟩ else none
  | _ => none

/-- The write of an edge between two keys, if the call is one. -/
def add? (tail head : String) (timed : TimedCall) : Option (Write Weight) :=
  match timed.call with
  | .request (.addEdge otherTail otherHead weight ttl) =>
      if otherTail = tail ∧ otherHead = head then some ⟨weight, ttl, timed.now⟩ else none
  | _ => none

/-- Whether the call writes. -/
def writes (timed : TimedCall) : Bool :=
  match timed.call with
  | .request (.putVertex ..) | .request (.addEdge ..) => true
  | _ => false

end TimedCall

namespace Calls

/-- The last write among those that a function picks. -/
def last? (pick : TimedCall → Option (Write α)) (calls : Calls) : Option (Write α) :=
  calls.reverse.findSome? pick

/-- The value that a key has at a reading. -/
def vertex? (now : Instant) (key : String) (calls : Calls) : Option Scalar :=
  Write.value? now (calls.last? (TimedCall.put? key))

/-- The weight that an edge has at a reading. -/
def edge? (now : Instant) (tail head : String) (calls : Calls) : Option Weight :=
  Write.value? now (calls.last? (TimedCall.add? tail head))

/-- A later write goes before all earlier ones. -/
theorem last?_append_singleton (pick : TimedCall → Option (Write α)) (calls : Calls)
    (timed : TimedCall)
    : last? pick (calls ++ [timed]) = (pick timed).or (calls.last? pick) := by
  cases picked : pick timed <;> simp [last?, picked]

end Calls

-----------------------------------------------------------------------------------------
-- Graphs of what is live
-----------------------------------------------------------------------------------------

/-- The graph has exactly these values and weights, and no tail without an edge. -/
structure Graph.MadeOf (graph : Graph) (valued : String → Scalar → Prop)
    (weighed : String → String → Weight → Prop)
    : Prop where
  values : ∀ key value, graph.vertices.get? key = some value ↔ valued key value
  weights : ∀ tail head weight, graph.weight? tail head = some weight ↔ weighed tail head weight
  tails : ∀ tail, graph.heads.contains tail = true → ∃ head weight, weighed tail head weight

/-- There is one graph of given values and weights: its heads are told by its weights, since
no tail is empty.
-/
theorem Graph.MadeOf.unique {left right : Graph} {valued : String → Scalar → Prop}
    {weighed : String → String → Weight → Prop} (hl : left.MadeOf valued weighed)
    (hr : right.MadeOf valued weighed)
    : left = right := by
  have vertices : left.vertices = right.vertices :=
    KeyMap.ext_get? fun key => Option.ext fun value =>
      (hl.values key value).trans (hr.values key value).symm
  have included {first second : Graph} (hf : first.MadeOf valued weighed)
      (hs : second.MadeOf valued weighed) (tail : String) (heads : KeyMap Weight)
      (found : first.heads.get? tail = some heads)
      : second.heads.get? tail = some heads := by
    have contained : first.heads.contains tail = true :=
      KeyMap.contains_iff.mpr ⟨heads, found⟩
    obtain ⟨head, weight, present⟩ := hf.tails tail contained
    replace present := (hs.weights tail head weight).mpr present
    cases other : second.heads.get? tail with
    | none => simp [Graph.weight?, other] at present
    | some others =>
        have same : heads = others := by
          refine KeyMap.ext_get? fun head => Option.ext fun weight => ?_
          have equal := (hf.weights tail head weight).trans (hs.weights tail head weight).symm
          simpa [Graph.weight?, found, other] using equal
        rw [same]
  have heads : left.heads = right.heads := by
    refine KeyMap.ext_get? fun tail => Option.ext fun heads => ?_
    exact ⟨included hl hr tail heads, included hr hl tail heads⟩
  cases left
  cases right
  congr

-----------------------------------------------------------------------------------------
-- Replies
-----------------------------------------------------------------------------------------

/-- The reply to a call that the last writes among earlier calls ask for. A traversal sees the
graph of all that is live, and a count is the number of keys or of pairs that are.
-/
def Calls.Explain (calls : Calls) (now : Instant) : (call : Call) → call.Reply → Prop
  | .request (.getVertex key), reply =>
      reply = (calls.vertex? now key).elim (.error (.notFound key)) fun value => .ok ⟨key, value⟩
  | .request (.putVertex ..), reply => reply = .ok ()
  | .request (.getEdge tail head), reply =>
      reply
        = (calls.edge? now tail head).elim (.error (.notFound (tail ++ " -> " ++ head))) .ok
  | .request (.addEdge ..), reply => reply = .ok ()
  | .request (.illuminate seed step k tfidf), reply =>
      ∃ graph : Graph,
        graph.MadeOf (fun key value => calls.vertex? now key = some value)
            (fun tail head weight => calls.edge? now tail head = some weight)
        ∧ reply
          = (graph.illuminate? seed step.toInt k.toInt tfidf).elim (.error (.notFound seed)) .ok
  | .countVertices, reply =>
      ∃ keys : Finset String,
        (∀ key, key ∈ keys ↔ ∃ value, calls.vertex? now key = some value) ∧ reply = keys.card
  | .countEdges, reply =>
      ∃ pairs : Finset (String × String),
        (∀ tail head, (tail, head) ∈ pairs ↔ ∃ weight, calls.edge? now tail head = some weight)
        ∧ reply = pairs.card

end GraphShell
