import GraphShell.Binary.Arithmetic
import GraphShell.Graph.Basic
import GraphShell.Store.Basic

/-! What is answered from a graph that stands still. The neighbourhood of a seed is the graph within
a number of steps, where each key keeps only its best edges; these are scored by weight, or by how
much of their tail's weight they carry and how rare their head is. Two stores have no memory: one
answers from a graph that never changes, the other fails every request for the same reason.
-/

namespace GraphShell.Graph

-----------------------------------------------------------------------------------------
-- Neighbourhoods
-----------------------------------------------------------------------------------------

open Binary

/-- The number of edges into a key. -/
def inDegree (graph : Graph) (key : String) : Nat :=
  (graph.edges.filter fun edge => edge.head = key).length

/-- The sum of the weights of the edges out of a key, added in the order of their heads. -/
def outWeight (graph : Graph) (key : String) : Double :=
  (graph.neighbors key).foldl (fun sum (_, weight) => sum + weight.convert .double)
    (.zero false)

/-- The rarity of a key: the logarithm of one and the quotient of the number of keys and one
more than the number of edges into the key.
-/
def rarity (graph : Graph) (key : String) : Double :=
  (1 + (.ofNat graph.keys.length : Double) / (1 + .ofNat (graph.inDegree key))).ln

/-- The share that an edge has in the weight of its tail; zero if that weight is zero. -/
def share (graph : Graph) (tail : String) (weight : Weight) : Double :=
  let sum := graph.outWeight tail
  if sum.isZero then .zero false else weight.convert .double / sum

/-- The score of an edge. -/
def score (graph : Graph) (tfidf : Bool) (edge : Edge) : Weight :=
  if tfidf then
    (graph.share edge.tail edge.weight * graph.rarity edge.head).convert .single
  else edge.weight

/-- A score without shares is the weight itself. -/
@[simp]
theorem score_false (graph : Graph) (edge : Edge) : graph.score false edge = edge.weight := rfl

/-- A score with shares is the edge's share in the weight of its tail times the rarity of its head,
rounded to the precision of weights.
-/
@[simp]
theorem score_true (graph : Graph) (edge : Edge)
    : graph.score true edge
      = (graph.share edge.tail edge.weight * graph.rarity edge.head).convert .single := rfl

/-- Whether a head is at least as good as another: a higher score, or the smaller key of two
equal scores.
-/
def better (a b : String × Weight) : Bool :=
  b.2.rank < a.2.rank || (b.2.rank == a.2.rank && a.1 ≤ b.1)

/-- The heads of a key with their scores, the best ones first, no more than the limit. -/
def bestHeads (graph : Graph) (tfidf : Bool) (limit : Option Nat) (tail : String)
    : List (String × Weight) :=
  let scored := (graph.neighbors tail).map fun (head, weight) =>
    (head, graph.score tfidf ⟨tail, head, weight⟩)
  let ranked := scored.mergeSort better
  limit.elim ranked ranked.take

/-- The keys first reached after each number of steps, from the frontier on, that many steps
deep. A key in `seen` is not reached again.
-/
def layers (next : String → List String) : Nat → List String → List String → List (List String)
  | 0, _, frontier => [frontier]
  | depth + 1, seen, frontier =>
      let fresh := ((frontier.flatMap next).filter fun key => !seen.contains key).eraseDups
      frontier :: layers next depth (seen ++ fresh) fresh

/-- The neighbourhood of a seed, or nothing for a seed outside the graph. No walk that meets
each key once is longer than the number of keys, so a greater number of steps changes
nothing. A limit of zero or less is none, and a negative number of steps is zero.
-/
def illuminate? (graph : Graph) (seed : String) (step k : Int) (tfidf : Bool)
    : Option Graph :=
  if !graph.contains seed then none
  else
    let depth := min step.toNat graph.keys.length
    let limit := if k ≤ 0 then none else some k.toNat
    let best := graph.bestHeads tfidf limit
    let reached := layers (fun key => (best key).map Prod.fst) depth [seed] [seed]
    let withValues := reached.flatten.foldl (fun result key => result.carryVertex graph key) .empty
    some <| (reached.take depth).flatten.foldl
      (fun result tail => (best tail).foldl
        (fun result (head, score) => result.insertEdge tail head score) result)
      withValues

end GraphShell.Graph

namespace GraphShell.Store

-----------------------------------------------------------------------------------------
-- Stores without a memory
-----------------------------------------------------------------------------------------

/-- The store of one graph: reading looks things up, writing is accepted without effect, and
every neighbourhood is the whole graph.
-/
def snapshot (graph : Graph) : Store Unit where
  answer
    | .getVertex key, state =>
        ((graph.vertices.get? key).elim (.error (.notFound key)) fun value => .ok ⟨key, value⟩,
          state)
    | .putVertex .., state => (.ok (), state)
    | .getEdge tail head, state =>
        ((graph.weight? tail head).elim (.error (.notFound (edgeName tail head))) .ok, state)
    | .addEdge .., state => (.ok (), state)
    | .illuminate .., state => (.ok graph, state)

/-- The store that fails every request. -/
def failing (error : StoreError) : Store Unit where
  answer _ state := (.error error, state)

end GraphShell.Store
