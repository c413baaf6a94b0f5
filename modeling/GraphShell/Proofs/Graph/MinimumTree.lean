import GraphShell.Proofs.Graph.Exchange
import Mathlib.Algebra.BigOperators.Ring.Finset

/-! The spanning tree of a seed is a minimum one as long as weights count for nothing below
zero. Where a weight shown is negative, another tree can have a smaller sum.
-/

namespace GraphShell.Graph

variable {graph : Graph} {map : WeightMap} {seed : String} {inside : List String}
  {taken : List Edge}

/-- The edges are a spanning tree of the seed's component: edges of the graph in it that join
all of its keys, one fewer than there are keys.
-/
structure SpanningTree (graph : Graph) (seed : String) (tree : Finset Edge) : Prop
    extends Joins graph seed tree where
  within : ∀ edge ∈ tree, graph.Linked seed edge.tail
  count : ∃ component : Finset String,
    (∀ key, key ∈ component ↔ graph.Linked seed key) ∧ component.card = tree.card + 1

-----------------------------------------------------------------------------------------
-- The tree that is grown
-----------------------------------------------------------------------------------------

/-- A crossing edge connects its outer end to the keys inside. -/
theorem connects_take {edge : Edge} (crossed : crosses inside edge = true)
    (connects : ∀ key ∈ inside, Connects taken.toFinset seed key)
    : ∀ key ∈ outerEnd inside edge :: inside, Connects (edge :: taken).toFinset seed key := by
  have subset : taken.toFinset ⊆ (edge :: taken).toFinset := by
    rw [List.toFinset_cons]
    exact Finset.subset_insert _ _
  have direct : Connects (edge :: taken).toFinset edge.tail edge.head := .of_mem (by simp)
  refine List.forall_mem_cons.mpr ⟨?_, fun key member => (connects key member).mono subset⟩
  rcases (crosses_iff.mp crossed).2 with ⟨inner, outer⟩ | ⟨inner, outer⟩
  · exact outer ▸ ((connects _ inner).mono subset).trans direct
  · exact outer ▸ ((connects _ inner).mono subset).trans direct.symm

/-- What is spanned is the component that a spanning tree is one of. -/
theorem spanningTree_of_spanned {tree : Finset Edge} (map : WeightMap)
    (stored : ∀ edge ∈ tree, edge ∈ graph.edges)
    (within : ∀ edge ∈ tree, edge.tail ∈ (graph.spanned map seed).1)
    (connects : ∀ key ∈ (graph.spanned map seed).1, Connects tree seed key)
    (count : (graph.spanned map seed).1.length = tree.card + 1)
    : SpanningTree graph seed tree := by
  have grown := (grown_spanned graph map seed).1
  refine ⟨⟨stored, ?_⟩, ?_, (graph.spanned map seed).1.toFinset, ?_, ?_⟩
  · intro key linked
    exact connects key (mem_spanned_iff.mpr linked)
  · intro edge member
    exact mem_spanned_iff.mp (within edge member)
  · intro key
    rw [List.mem_toFinset, mem_spanned_iff]
  · rw [List.toFinset_card_of_nodup grown.distinct, count]

/-- The tree that is grown is a spanning tree. -/
theorem spanningTree_spanned (graph : Graph) (map : WeightMap) (seed : String)
    : SpanningTree graph seed (graph.spanned map seed).2.toFinset := by
  have grown := (grown_spanned graph map seed).1
  have connects : ∀ key ∈ (graph.spanned map seed).1,
      Connects (graph.spanned map seed).2.toFinset seed key := by
    apply grow_keeps fun inside taken => ∀ key ∈ inside, Connects taken.toFinset seed key
    · intro inside taken edge next connects
      exact connects_take (crossing_eq_some next).2 connects
    · intro key member
      exact List.mem_singleton.mp member ▸ .refl
  refine spanningTree_of_spanned map ?_ ?_ connects ?_
  · intro edge member
    exact grown.stored edge (List.mem_toFinset.mp member)
  · intro edge member
    exact (grown.within edge (List.mem_toFinset.mp member)).1
  · rw [List.toFinset_card_of_nodup grown.separate, grown.count]

-----------------------------------------------------------------------------------------
-- Sums
-----------------------------------------------------------------------------------------

/-- A sum over the edges that the tree lists is one over the edges taken, with the weights that
the map shows.
-/
theorem sum_edges_minimumSpanningTree (contained : graph.contains seed = true)
    (measure : Weight → Int)
    : ((graph.minimumSpanningTree map seed).edges.map fun edge => measure edge.weight).sum
      = ∑ edge ∈ (graph.spanned map seed).2.toFinset, measure (map.apply edge.weight) := by
  have separate := (grown_spanned graph map seed).1.separate
  rw [((edges_minimumSpanningTree contained).map _).sum_eq, List.map_map,
    List.sum_toFinset _ separate]
  rfl

theorem charge_eq_sum (map : WeightMap) (edges : Finset Edge)
    : (charge map edges : Int) = ∑ edge ∈ edges, max (map.apply edge.weight).units 0 := by
  rw [charge, Nat.cast_sum]
  exact Finset.sum_congr rfl fun edge _ => Int.toNat_eq_max _

/-- No spanning tree of the component has a smaller sum of what its weights show above zero.
So the sum of all that it shows is the least if nothing that the map shows is negative.
-/
theorem minimumSpanningTree_minimal (map : WeightMap) (contained : graph.contains seed = true)
    {tree : Finset Edge} (spans : SpanningTree graph seed tree)
    : let shown := (graph.minimumSpanningTree map seed).edges
      (shown.map fun edge => max edge.weight.units 0).sum
        ≤ ∑ edge ∈ tree, max (map.apply edge.weight).units 0
      ∧ ((∀ edge ∈ graph.edges,
            graph.Linked seed edge.tail → 0 ≤ (map.apply edge.weight).units)
        → (shown.map fun edge => edge.weight.units).sum
          ≤ ∑ edge ∈ tree, (map.apply edge.weight).units) := by
  have least : (charge map (graph.spanned map seed).2.toFinset : Int) ≤ charge map tree :=
    Int.ofNat_le.mpr spans.toJoins.charge_spanned_le
  rw [charge_eq_sum, charge_eq_sum] at least
  refine ⟨?_, fun positive => ?_⟩
  · rw [sum_edges_minimumSpanningTree contained fun weight => max weight.units 0]
    exact least
  · have plain {edges : Finset Edge} (spanning : SpanningTree graph seed edges)
        : ∑ edge ∈ edges, max (map.apply edge.weight).units 0
          = ∑ edge ∈ edges, (map.apply edge.weight).units := by
      refine Finset.sum_congr rfl fun edge member => max_eq_left ?_
      exact positive edge (spanning.stored edge member) (spanning.within edge member)
    rw [sum_edges_minimumSpanningTree contained Binary.Number.units,
      ← plain (spanningTree_spanned graph map seed), ← plain spans]
    exact least

/-- The two cheapest edges of a triangle are taken, one of them against its direction. -/
theorem minimumSpanningTree_minimal_of_triangle
    : let graph := ((empty.insertEdge "a" "b" 1).insertEdge "s" "a" 5).insertEdge "s" "b" 2
      let tree : Finset Edge := {⟨"s", "a", 5⟩, ⟨"s", "b", 2⟩}
      graph.contains "s" = true
      ∧ SpanningTree graph "s" tree
      ∧ ((graph.minimumSpanningTree .identity "s").edges.map fun edge => edge.weight.units).sum
        ≤ ∑ edge ∈ tree, (WeightMap.identity.apply edge.weight).units := by
  intro graph tree
  have contained : graph.contains "s" = true := by decide +kernel
  have spans : SpanningTree graph "s" tree := by
    refine spanningTree_of_spanned .identity (by decide +kernel) (by decide +kernel) ?_
      (by decide +kernel)
    have keys : (graph.spanned .identity "s").1 = ["a", "b", "s"] := by decide +kernel
    have toA : Connects tree "s" "a" :=
      .single ⟨⟨"s", "a", 5⟩, by decide +kernel, .inl ⟨rfl, rfl⟩⟩
    have toB : Connects tree "s" "b" :=
      .single ⟨⟨"s", "b", 2⟩, by decide +kernel, .inl ⟨rfl, rfl⟩⟩
    rw [keys]
    simp only [List.forall_mem_cons, List.not_mem_nil, false_imp_iff, implies_true, and_true]
    exact ⟨toA, toB, .refl⟩
  have positive
      : ∀ edge ∈ graph.edges,
          graph.Linked "s" edge.tail → 0 ≤ (WeightMap.identity.apply edge.weight).units := by
    have each : ∀ edge ∈ graph.edges, 0 ≤ (WeightMap.identity.apply edge.weight).units := by
      decide +kernel
    exact fun edge member _ => each edge member
  exact ⟨contained, spans, (minimumSpanningTree_minimal .identity contained spans).2 positive⟩

/-- Where weights are negative the tree need not have the least sum: all of them count for
nothing, so that the first edge in order is taken and not the cheapest.
-/
theorem minimumSpanningTree_exceeds_of_negative
    : let graph := ((empty.insertEdge "a" "b" (.ofInt (-5))).insertEdge "s" "a"
        (.ofInt (-1))).insertEdge "s" "b" (.ofInt (-2))
      let tree : Finset Edge := {⟨"a", "b", .ofInt (-5)⟩, ⟨"s", "b", .ofInt (-2)⟩}
      graph.contains "s" = true
      ∧ (∀ edge ∈ graph.edges, edge.weight.isFinite = true)
      ∧ SpanningTree graph "s" tree
      ∧ ∑ edge ∈ tree, (WeightMap.identity.apply edge.weight).units
        < ((graph.minimumSpanningTree .identity "s").edges.map fun edge => edge.weight.units).sum
      := by
  intro graph tree
  have spans : SpanningTree graph "s" tree := by
    refine spanningTree_of_spanned .identity (by decide +kernel) (by decide +kernel) ?_
      (by decide +kernel)
    have keys : (graph.spanned .identity "s").1 = ["b", "a", "s"] := by decide +kernel
    have toB : Connects tree "s" "b" :=
      .single ⟨⟨"s", "b", .ofInt (-2)⟩, by decide +kernel, .inl ⟨rfl, rfl⟩⟩
    have toA : Connects tree "s" "a" :=
      toB.tail ⟨⟨"a", "b", .ofInt (-5)⟩, by decide +kernel, .inr ⟨rfl, rfl⟩⟩
    rw [keys]
    simp only [List.forall_mem_cons, List.not_mem_nil, false_imp_iff, implies_true, and_true]
    exact ⟨toB, toA, .refl⟩
  exact ⟨by decide +kernel, by decide +kernel, spans, by decide +kernel⟩

end GraphShell.Graph
