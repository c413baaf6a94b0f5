import GraphShell.Store.Basic
import GraphShell.Store.Snapshot

/-! A volatile store. Every entry has a time to live; what has expired is invisible at once
and removed by the next write.
-/

namespace GraphShell

/-- A kept value with the reading at which it expires; none for one that never does. -/
structure Entry (α : Type) where
  value : α
  expires : Option Instant
deriving DecidableEq

namespace Entry

variable {α : Type}

/-- The entry of a value written at a reading, to live for a span. -/
def written (value : α) (ttl : Duration) (now : Instant) : Entry α :=
  ⟨value, now.after? ttl⟩

/-- Whether the entry has not expired. -/
def isLive (now : Instant) (entry : Entry α) : Bool :=
  entry.expires.all fun expires => now.before expires

end Entry

/-- The kept vertices, and for each tail its edges by their heads. -/
structure Memory where
  vertices : KeyMap (Entry Scalar)
  heads : KeyMap (KeyMap (Entry Weight))
deriving DecidableEq

namespace Memory

/-- The store that keeps nothing. -/
def empty : Memory :=
  ⟨.empty, .empty⟩

/-- The store without what has expired, and without tails that have no edge left. -/
def prune (now : Instant) (memory : Memory) : Memory where
  vertices := memory.vertices.filter fun _ entry => entry.isLive now
  heads :=
    (memory.heads.mapValues fun heads => heads.filter fun _ entry => entry.isLive now).filter
      fun _ heads => !heads.isEmpty

/-- Keeps the value of a key. -/
def putVertex (now : Instant) (key : String) (value : Scalar) (ttl : Duration)
    (memory : Memory)
    : Memory :=
  let pruned := memory.prune now
  { pruned with vertices := pruned.vertices.insert key (.written value ttl now) }

/-- Keeps the weight of an edge. -/
def addEdge (now : Instant) (tail head : String) (weight : Weight) (ttl : Duration)
    (memory : Memory)
    : Memory :=
  let pruned := memory.prune now
  let heads := (pruned.heads.get? tail).getD .empty
  { pruned with heads := pruned.heads.insert tail (heads.insert head (.written weight ttl now)) }

/-- The live value of a key. -/
def vertex? (now : Instant) (key : String) (memory : Memory) : Option Scalar :=
  ((memory.vertices.get? key).filter (Entry.isLive now)).map Entry.value

/-- The live weight of an edge. -/
def edge? (now : Instant) (tail head : String) (memory : Memory) : Option Weight :=
  ((memory.heads.get? tail >>= fun heads => heads.get? head).filter (Entry.isLive now)).map
    Entry.value

/-- The number of live values. -/
def vertexCount (now : Instant) (memory : Memory) : Nat :=
  (memory.vertices.values.filter (Entry.isLive now)).length

/-- The number of live edges. -/
def edgeCount (now : Instant) (memory : Memory) : Nat :=
  ((memory.heads.values.flatMap KeyMap.values).filter (Entry.isLive now)).length

/-- The graph of all that is live. Tails without a live edge do not show. -/
def liveGraph (now : Instant) (memory : Memory) : Graph :=
  let pruned := memory.prune now
  ⟨pruned.vertices.mapValues Entry.value,
    pruned.heads.mapValues fun heads => heads.mapValues Entry.value⟩

/-- The store at a clock reading. -/
def store (now : Instant) : Store Memory where
  answer
    | .getVertex key, memory =>
        ((memory.vertex? now key).elim (.error (.notFound key)) fun value => .ok ⟨key, value⟩,
          memory)
    | .putVertex key value ttl, memory => (.ok (), memory.putVertex now key value ttl)
    | .getEdge tail head, memory =>
        ((memory.edge? now tail head).elim (.error (.notFound (edgeName tail head))) .ok, memory)
    | .addEdge tail head weight ttl, memory => (.ok (), memory.addEdge now tail head weight ttl)
    | .illuminate seed step k tfidf, memory =>
        (((memory.liveGraph now).illuminate? seed step.toInt k.toInt tfidf).elim
          (.error (.notFound seed)) .ok, memory)

end Memory

end GraphShell
