import GraphShell.Graph.Trees
import GraphShell.Proofs.Graph.Costs
import GraphShell.Proofs.Graph.Descent
import GraphShell.Proofs.Graph.FiniteWeights
import GraphShell.Proofs.Json.Literals

/-! The views of the cheapest paths by cost and by relevance differ, and so do their texts, as
soon as the first of them has an edge whose weight is not its own reciprocal. Graphs with the same
values and with finite weights are told apart by their texts: in whatever layout, each weight is
the only one with its literal.
-/

namespace GraphShell

open Binary Json

-----------------------------------------------------------------------------------------
-- Literals as they are spelled
-----------------------------------------------------------------------------------------

/-- Reads a number and keeps its literal. -/
def Json.Decoder.literal : Decoder String := fun _ text =>
  let text := skipSpace text
  (readNumber text).map fun read =>
    (String.ofList (text.take (text.length - read.2.length)), read.2)

/-- The literal of a finite weight is what is kept of it. -/
theorem reads_literal {weight : Weight} (finite : weight.isFinite = true) (levels : Nat)
    : Decoder.literal.Reads levels (Json.single weight) (.ok (Json.single weight)) where
  plain rest ends := by
    obtain ⟨ahead, read⟩ :=
      Scalar.readNumber_literal readable_single singleStyle (by decide) finite ends
    obtain ⟨double, scaled, _⟩ := exists_scaleByTen_single finite
    have taken : ((Json.single weight).toList ++ rest).take
        (((Json.single weight).toList ++ rest).length - rest.length)
        = (Json.single weight).toList := by
      rw [List.length_append, Nat.add_sub_cancel, List.take_left]
    rw [← Json.single] at ahead read
    rw [Decoder.literal, Scalar.skipSpace_of_numberAhead ahead, read, scaledNumber, scaled]
    simp only [Except.map, taken, String.ofList_toList]
  blank _ := rfl

-----------------------------------------------------------------------------------------
-- Maps and graphs
-----------------------------------------------------------------------------------------

theorem KeyMap.mapValues_injective {α β : Type} {change : α → β} {left right : KeyMap α}
    (injective : ∀ first ∈ left.values, ∀ second ∈ right.values,
      change first = change second → first = second)
    (same : left.mapValues change = right.mapValues change)
    : left = right := by
  ext1 key
  have at_ := congrArg (fun map => map.get? key) same
  simp only [KeyMap.get?_mapValues] at at_
  cases found : left.get? key with
  | none =>
      rw [found] at at_
      exact (Option.map_eq_none_iff.mp at_.symm).symm
  | some first =>
      rw [found] at at_
      obtain ⟨second, known, equal⟩ := Option.map_eq_some_iff.mp at_.symm
      rw [known, injective first (KeyMap.mem_values_iff.mpr ⟨key, found⟩) second
        (KeyMap.mem_values_iff.mpr ⟨key, known⟩) equal.symm]

namespace Graph

variable {graph other : Graph}

/-- What is written for all edges. -/
def edgesJson (layout : Layout) (graph : Graph) : String :=
  layout.object
    (graph.heads.entries.map fun entry => (entry.1, headsJson layout.inner entry.2))

/-- The edges are read as the literals of their weights. -/
theorem reads_literals (finite : graph.FiniteWeights) (layout : Layout)
    : (Decoder.keyMap (Decoder.keyMap Decoder.literal)).Reads 3 (graph.edgesJson layout)
        (.ok (graph.heads.mapValues fun heads => heads.mapValues Json.single)) := by
  have each (heads : KeyMap Weight) (listed : heads ∈ graph.heads.values)
      : heads.traverse (fun weight => (.ok (Json.single weight) : Except Fault String))
        = .ok (heads.mapValues Json.single) :=
    KeyMap.traverse_eq_ok fun _ _ => rfl
  rw [← KeyMap.traverse_eq_ok each]
  apply reads_keyMap _ (by decide)
  intro heads listed
  apply reads_keyMap _ (by decide)
  intro weight member
  exact reads_literal (finiteWeights_iff.mp finite heads listed weight member) 1

/-- The texts of all edges are the same only if the edges are. -/
theorem heads_eq_of_edgesJson_eq (finite : graph.FiniteWeights) (finite' : other.FiniteWeights)
    {layout : Layout} (same : graph.edgesJson layout = other.edgesJson layout)
    : graph.heads = other.heads := by
  have left := (reads_literals finite layout).plain [] nofun
  have right := (reads_literals finite' layout).plain [] nofun
  rw [same, right] at left
  have literals := congrArg Prod.fst (Except.ok.inj left)
  apply KeyMap.mapValues_injective _ literals.symm
  intro heads listed heads' listed' same
  apply KeyMap.mapValues_injective _ same
  intro weight member weight' member' same
  exact number_injective singleStyle (finiteWeights_iff.mp finite heads listed weight member)
    (finiteWeights_iff.mp finite' heads' listed' weight' member') same

/-- Graphs with the same values and with finite weights have the same text only if they are the
same.
-/
theorem eq_of_json_eq (finite : graph.FiniteWeights) (finite' : other.FiniteWeights)
    (vertices : graph.vertices = other.vertices) {layout : Layout}
    (same : graph.json layout = other.json layout)
    : graph = other := by
  have edges : graph.edgesJson layout.inner = other.edgesJson layout.inner := by
    have texts := congrArg String.toList same
    apply String.toList_inj.mp
    simpa [json_eq, written, vertices, toList_object, Layout.body, edgesJson, shape] using texts
  have heads := heads_eq_of_edgesJson_eq finite finite' edges
  calc graph
      = ⟨graph.vertices, graph.heads⟩ := rfl
    _ = ⟨other.vertices, other.heads⟩ := by rw [vertices, heads]
    _ = other := rfl

end Graph

end GraphShell

namespace GraphShell.Graph

-----------------------------------------------------------------------------------------
-- Views
-----------------------------------------------------------------------------------------

open Binary

variable {graph : Graph} {seed : String} {edge : Edge}

/-- A tree with an edge is that of a seed in the graph. -/
theorem contains_of_adjacent {map : WeightMap} {tail head : String}
    (inTree : (graph.shortestPathTree map seed).Adjacent tail head)
    : graph.contains seed = true := by
  cases contained : graph.contains seed with
  | true => rfl
  | false =>
      rw [shortestPathTree_of_not_contains contained] at inTree
      obtain ⟨_, found⟩ := inTree
      cases found

/-- The trees of a seed have the same values, whatever the costs are. -/
theorem vertices_shortestPathTree_eq (map map' : WeightMap) (contained : graph.contains seed = true)
    : (graph.shortestPathTree map seed).vertices = (graph.shortestPathTree map' seed).vertices := by
  ext1 key
  apply Option.ext
  intro value
  rw [get?_vertices_shortestPathTree contained, get?_vertices_shortestPathTree contained]

/-- A tree shows finite weights only. -/
theorem finiteWeights_shortestPathTree (map : WeightMap) (contained : graph.contains seed = true)
    : (graph.shortestPathTree map seed).FiniteWeights := by
  intro edge member
  obtain ⟨_, weight, _, shown⟩ := (weight?_shortestPathTree contained).mp (mem_edges.mp member)
  exact shown ▸ map.isFinite_apply weight

/-- The weight that a tree shows for one of its edges. -/
theorem weight?_of_adjacent {map : WeightMap} (stored : edge ∈ graph.edges)
    (inTree : (graph.shortestPathTree map seed).Adjacent edge.tail edge.head)
    : (graph.shortestPathTree map seed).weight? edge.tail edge.head
      = some (map.apply edge.weight) := by
  obtain ⟨shown, found⟩ := inTree
  obtain ⟨_, weight, known, applied⟩ :=
    (weight?_shortestPathTree (contains_of_adjacent ⟨shown, found⟩)).mp found
  rw [mem_edges.mp stored] at known
  obtain rfl := Option.some.inj known
  rw [found, applied]

/-- The tree by relevance has no edge with a finite weight other than one and minus one as the tree
by cost has it: the edge is missing there, or it shows another weight.
-/
theorem shortestPathTree_ne (stored : edge ∈ graph.edges)
    (inTree : (graph.shortestPathTree .identity seed).Adjacent edge.tail edge.head)
    (finite : edge.weight.isFinite = true) (notOne : edge.weight ≠ 1)
    (notMinusOne : edge.weight ≠ .ofInt (-1))
    : graph.shortestPathTree .identity seed ≠ graph.shortestPathTree .reciprocal seed := by
  intro same
  have cost := weight?_of_adjacent stored inTree
  have relevance := weight?_of_adjacent stored (same ▸ inTree)
  rw [← same, cost, WeightMap.apply_identity finite] at relevance
  exact WeightMap.apply_reciprocal_ne finite notOne notMinusOne (Option.some.inj relevance).symm

/-- If the view of the cheapest paths by cost has an edge with a finite weight other than one and
minus one, the view by relevance is another graph, and its text in any layout is another.
-/
theorem derive_sptCost_ne_sptRelevance (stored : edge ∈ graph.edges)
    (inTree : (graph.shortestPathTree .identity seed).Adjacent edge.tail edge.head)
    (finite : edge.weight.isFinite = true) (notOne : edge.weight ≠ 1)
    (notMinusOne : edge.weight ≠ .ofInt (-1))
    : graph.derive .sptCost seed ≠ graph.derive .sptRelevance seed
      ∧ ∀ layout,
          (graph.derive .sptCost seed).json layout
          ≠ (graph.derive .sptRelevance seed).json layout := by
  have differ := shortestPathTree_ne stored inTree finite notOne notMinusOne
  refine ⟨differ, ?_⟩
  intro layout same
  have contained := contains_of_adjacent inTree
  exact differ (eq_of_json_eq (finiteWeights_shortestPathTree .identity contained)
    (finiteWeights_shortestPathTree .reciprocal contained)
    (vertices_shortestPathTree_eq .identity .reciprocal contained) same)

/-- A light edge is the cheapest path by cost, and two edges of weight one are by relevance. -/
theorem derive_sptCost_ne_sptRelevance_of_triangle
    : let graph := ((empty.insertEdge "a" "b" 1).insertEdge "s" "a" 1).insertEdge "s" "b" (1 / 4)
      (⟨"s", "b", 1 / 4⟩ : Edge) ∈ graph.edges
      ∧ (graph.shortestPathTree .identity "s").Adjacent "s" "b"
      ∧ graph.derive .sptCost "s" ≠ graph.derive .sptRelevance "s"
      ∧ (graph.derive .sptCost "s").json .compact
        ≠ (graph.derive .sptRelevance "s").json .compact := by
  intro graph
  have stored : (⟨"s", "b", 1 / 4⟩ : Edge) ∈ graph.edges := by decide +kernel
  have inTree : (graph.shortestPathTree .identity "s").Adjacent "s" "b" :=
    ⟨1 / 4, by decide +kernel⟩
  obtain ⟨graphs, texts⟩ := derive_sptCost_ne_sptRelevance stored inTree (by decide +kernel)
    (by decide +kernel) (by decide +kernel)
  exact ⟨stored, inTree, graphs, texts .compact⟩

/-- An edge of weight minus one is shown alike in both views: that is its own reciprocal. -/
theorem derive_sptCost_eq_sptRelevance_of_minus_one
    : let graph := empty.insertEdge "s" "a" (.ofInt (-1))
      (⟨"s", "a", .ofInt (-1)⟩ : Edge) ∈ graph.edges
      ∧ (graph.shortestPathTree .identity "s").Adjacent "s" "a"
      ∧ (Number.ofInt (-1) : Weight).isFinite = true
      ∧ (Number.ofInt (-1) : Weight) ≠ 1
      ∧ graph.derive .sptCost "s" = graph.derive .sptRelevance "s" := by
  intro graph
  exact ⟨by decide +kernel, ⟨.ofInt (-1), by decide +kernel⟩, by decide +kernel, by decide +kernel,
    by decide +kernel⟩

end GraphShell.Graph
