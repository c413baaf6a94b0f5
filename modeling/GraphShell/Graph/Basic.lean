import GraphShell.KeyMap
import GraphShell.Scalar.Basic

/-! Directed graphs with weighted edges, where some keys carry a value. A key belongs to a
graph if it has a value or is an end of an edge.
-/

namespace GraphShell

/-- The weight of an edge. -/
abbrev Weight := Single

/-- An edge between two keys. -/
structure Edge where
  tail : String
  head : String
  weight : Weight
deriving DecidableEq, Repr

/-- Values of keys, and for each tail the weights of the edges to its heads. A tail may be
present without heads.
-/
structure Graph where
  vertices : KeyMap Scalar
  heads : KeyMap (KeyMap Weight)
deriving DecidableEq

namespace Graph

/-- The graph without keys. -/
def empty : Graph :=
  ⟨.empty, .empty⟩

/-- The graph with the value of a key set. -/
def insertVertex (graph : Graph) (key : String) (value : Scalar) : Graph :=
  { graph with vertices := graph.vertices.insert key value }

/-- The graph with the weight of an edge set. -/
def insertEdge (graph : Graph) (tail head : String) (weight : Weight) : Graph :=
  let heads := (graph.heads.get? tail).getD .empty
  { graph with heads := graph.heads.insert tail (heads.insert head weight) }

/-- The weight of an edge, if the graph has the edge. -/
def weight? (graph : Graph) (tail head : String) : Option Weight :=
  graph.heads.get? tail >>= fun heads => heads.get? head

/-- The heads of the edges out of a key with their weights, in key order. -/
def neighbors (graph : Graph) (tail : String) : List (String × Weight) :=
  (graph.heads.get? tail).elim [] KeyMap.entries

/-- All edges, by tail and then by head. -/
def edges (graph : Graph) : List Edge :=
  graph.heads.entries.flatMap fun (tail, heads) =>
    heads.entries.map fun (head, weight) => ⟨tail, head, weight⟩

/-- The keys with a value and the ends of edges, as a map without content. -/
def keySet (graph : Graph) : KeyMap Unit :=
  let ends := graph.edges.flatMap fun edge => [edge.tail, edge.head]
  .ofList ((graph.vertices.keys ++ ends).map fun key => (key, ()))

/-- The keys with a value and the ends of edges, in order. -/
def keys (graph : Graph) : List String :=
  graph.keySet.keys

/-- Whether a key has a value, is listed as a tail, or is the head of an edge. -/
def contains (graph : Graph) (key : String) : Bool :=
  graph.vertices.contains key || graph.heads.contains key
    || graph.heads.values.any fun heads => heads.contains key

/-- The number of edges. -/
def edgeCount (graph : Graph) : Nat :=
  graph.edges.length

/-- The graph with the value that `key` has in `source`, if it has one there. -/
def carryVertex (graph source : Graph) (key : String) : Graph :=
  (source.vertices.get? key).elim graph (graph.insertVertex key)

/-- The JSON text of a graph in a layout. -/
def json (layout : Json.Layout) (graph : Graph) : String :=
  let vertices := graph.vertices.entries.map fun (key, value) => (key, value.json)
  let heads := fun (tail, heads) =>
    (tail, layout.inner.inner.object (KeyMap.entries heads |>.map fun (head, weight) =>
      (head, Json.single weight)))
  layout.object
    [("vertices", layout.inner.object vertices),
      ("edges", layout.inner.object (graph.heads.entries.map heads))]

end Graph

end GraphShell
