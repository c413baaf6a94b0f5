import GraphShell.Binary.Arithmetic
import GraphShell.Graph.Basic

/-! The two trees of a graph. An edge costs its weight where weights are costs, and the reciprocal
of its weight where heavy edges are near; costs are finite and never negative. The tree of
cheapest paths settles in each round the open key with the least cost, the first in key order
among equals, and offers its heads a path through it. The spanning tree takes edges in either
direction and grows by the cheapest one with one end inside, the first in order among equals.
-/

namespace GraphShell

-----------------------------------------------------------------------------------------
-- Costs
-----------------------------------------------------------------------------------------

/-- The reading of weights as costs. -/
inductive WeightMap
  | identity
  | reciprocal
deriving DecidableEq, Repr

namespace WeightMap

open Binary

/-- The weight that a tree shows: a result that is not finite becomes the greatest weight. -/
def apply (map : WeightMap) (weight : Weight) : Weight :=
  let mapped := match map with
    | identity => weight
    | reciprocal => 1 / weight
  if mapped.isFinite then mapped else .greatest .single

/-- The cost that the searches compare: the shown weight, or zero if that is negative. -/
def cost (map : WeightMap) (weight : Weight) : Double :=
  ((map.apply weight).max (.zero false)).convert .double

end WeightMap

end GraphShell

namespace GraphShell.Graph

-----------------------------------------------------------------------------------------
-- Cheapest paths
-----------------------------------------------------------------------------------------

open Binary

/-- What a search knows of a key it has met: the cost of the best path found, the key in
front of it on that path, and whether the cost is final.
-/
structure Label where
  cost : Double
  parent : Option String
  settled : Bool
deriving DecidableEq

/-- The keys met so far. -/
abbrev Labels := KeyMap Label

/-- The first entry of the least rank, which a later one replaces only if it is less. -/
def leastBy {α : Type} (rank : α → Int) : List α → Option α
  | [] => none
  | first :: rest =>
      some (rest.foldl (fun best next => if rank next < rank best then next else best) first)

/-- The open key that is settled next, with its cost. -/
def nextOpen (labels : Labels) : Option (String × Double) :=
  let opened := labels.entries.filter fun entry => !entry.2.settled
  (leastBy (fun entry => entry.2.cost.rank) opened).map fun entry => (entry.1, entry.2.cost)

/-- Offers a key a path of the given cost through `parent`; a settled key keeps its own, and
so does a key whose own path costs no more.
-/
def offer (parent head : String) (cost : Double) (labels : Labels) : Labels :=
  match labels.get? head with
  | none => labels.insert head ⟨cost, some parent, false⟩
  | some known =>
      if !known.settled && cost.lt known.cost then
        labels.insert head ⟨cost, some parent, false⟩
      else labels

/-- Makes the cost of a key final. -/
def settle (key : String) (labels : Labels) : Labels :=
  match labels.get? key with
  | none => labels
  | some known => labels.insert key { known with settled := true }

/-- One round of the search: settles a key and offers its heads the paths through it. -/
def settleNext (graph : Graph) (map : WeightMap) (key : String) (cost : Double)
    (labels : Labels)
    : Labels :=
  (graph.neighbors key).foldl
    (fun labels (head, weight) => offer key head (cost + map.cost weight) labels)
    (settle key labels)

/-- Rounds until no key is open; `rounds` bounds their number, and there are no more than
keys.
-/
def search (graph : Graph) (map : WeightMap) : Nat → Labels → Labels
  | 0, labels => labels
  | rounds + 1, labels =>
      match nextOpen labels with
      | none => labels
      | some (key, cost) => search graph map rounds (settleNext graph map key cost labels)

/-- The labels of all keys that edges lead to from the seed. -/
def pathLabels (graph : Graph) (map : WeightMap) (seed : String) : Labels :=
  search graph map (graph.keys.length + 1) (KeyMap.empty.insert seed ⟨.zero false, none, false⟩)

/-- The shortest-path tree: the values of the keys reached, and for each of them but the
seed the last edge of its path with the weight that the map shows. A seed outside the graph
has an empty tree.
-/
def shortestPathTree (graph : Graph) (map : WeightMap) (seed : String) : Graph :=
  if !graph.contains seed then .empty
  else
    (graph.pathLabels map seed).entries.foldl
      (fun tree (key, label) =>
        let tree := tree.carryVertex graph key
        match label.parent with
        | none => tree
        | some parent =>
            match graph.weight? parent key with
            | none => tree
            | some weight => tree.insertEdge parent key (map.apply weight))
      .empty

-----------------------------------------------------------------------------------------
-- Spanning trees
-----------------------------------------------------------------------------------------

/-- Whether exactly one end of an edge is among the keys. -/
def crosses (inside : List String) (edge : Edge) : Bool :=
  inside.contains edge.tail != inside.contains edge.head

/-- The cheapest edge with exactly one end among the keys. -/
def crossing (graph : Graph) (map : WeightMap) (inside : List String) : Option Edge :=
  leastBy (fun edge => (map.cost edge.weight).rank) (graph.edges.filter (crosses inside))

/-- The end of a crossing edge that is not among the keys. -/
def outerEnd (inside : List String) (edge : Edge) : String :=
  if inside.contains edge.tail then edge.head else edge.tail

/-- Takes crossing edges until there is none: the keys inside, the latest first, and the
edges taken. `rounds` bounds their number, and there are fewer than keys.
-/
def grow (graph : Graph) (map : WeightMap)
    : Nat → List String → List Edge → List String × List Edge
  | 0, inside, taken => (inside, taken)
  | rounds + 1, inside, taken =>
      match graph.crossing map inside with
      | none => (inside, taken)
      | some edge => grow graph map rounds (outerEnd inside edge :: inside) (edge :: taken)

/-- The minimum spanning tree: the values of the keys in the seed's component, and the edges
taken, in their own direction and with the weight that the map shows. A seed outside the
graph has an empty tree.
-/
def minimumSpanningTree (graph : Graph) (map : WeightMap) (seed : String) : Graph :=
  if !graph.contains seed then .empty
  else
    let (inside, taken) := graph.grow map graph.keys.length [seed] []
    let tree := inside.foldl (fun tree key => tree.carryVertex graph key) .empty
    taken.foldl
      (fun tree edge => tree.insertEdge edge.tail edge.head (map.apply edge.weight)) tree

/-- A neighbourhood as a view shows it. -/
def derive (graph : Graph) (view : View) (seed : String) : Graph :=
  match view with
  | .neighbor => graph
  | .sptCost => graph.shortestPathTree .identity seed
  | .sptRelevance => graph.shortestPathTree .reciprocal seed
  | .mstCost => graph.minimumSpanningTree .identity seed
  | .mstRelevance => graph.minimumSpanningTree .reciprocal seed

end GraphShell.Graph
