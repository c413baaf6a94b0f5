import GraphShell.Proofs.Graph.Growth
import GraphShell.Proofs.Graph.PathTree
import GraphShell.Proofs.Store.BestEdges
import GraphShell.Proofs.Store.Neighbourhood
import GraphShell.Store.Memory

/-! No view loses part of a neighbourhood: each tree keeps the values, and spans the keys
with edges of the neighbourhood, one fewer than there are keys.
-/

namespace GraphShell

/-- The reading of weights that a tree view shows; the plain view is no tree. -/
def View.weightMap? : View → Option WeightMap
  | neighbor => none
  | sptCost | mstCost => some .identity
  | sptRelevance | mstRelevance => some .reciprocal

namespace Graph

/-- The tree keeps all values of a graph, and spans its keys and the seed: its edges are
edges of the graph with their weights mapped, they touch every key but the seed, and they are
one fewer than the keys with the seed added.
-/
structure SpannedBy (graph : Graph) (map : WeightMap) (seed : String) (tree : Graph)
    : Prop where
  vertices : tree.vertices = graph.vertices
  edges
    : ∀ edge ∈ tree.edges,
        ∃ weight,
          graph.weight? edge.tail edge.head = some weight ∧ edge.weight = map.apply weight
  touched
    : ∀ key ∈ graph.keys, key ≠ seed → ∃ edge ∈ tree.edges, key = edge.tail ∨ key = edge.head
  count : tree.edgeCount + 1 = (insert seed graph.keys.toFinset).card

variable {graph : Graph} {map : WeightMap} {seed : String}

/-- A rooted graph without its seed is empty, since no walk leaves a key without edges. -/
theorem Rooted.eq_nil_of_not_contains (rooted : graph.Rooted seed)
    (absent : graph.contains seed = false)
    : graph.keys = [] := by
  have notKey : seed ∉ graph.keys := fun member => by
    simp [contains_of_mem_keys member] at absent
  refine List.eq_nil_iff_forall_not_mem.mpr fun key member => ?_
  rcases (rooted key member).cases_head with same | ⟨_, ⟨_, edge⟩, _⟩
  · exact notKey (same ▸ member)
  · exact notKey (ends_mem_keys edge).1

/-- What a rooted graph's seed reaches is its keys and the seed. -/
theorem Rooted.reaches_iff (rooted : graph.Rooted seed) {key : String}
    : graph.Reaches seed key ↔ key ∈ insert seed graph.keys.toFinset := by
  rw [Finset.mem_insert, List.mem_toFinset]
  refine ⟨Reaches.mem_keys, ?_⟩
  rintro (rfl | member)
  · exact .refl
  · exact rooted key member

/-- Taking edges backwards too, a rooted graph's seed is linked to no other keys. -/
theorem Rooted.linked_iff (rooted : graph.Rooted seed) {key : String}
    : graph.Linked seed key ↔ key ∈ insert seed graph.keys.toFinset := by
  refine ⟨fun linked => ?_, fun member => (rooted.reaches_iff.mpr member).linked⟩
  simpa using linked.mem_keys

/-- A list that holds a finite set of keys without repetition is as long as the set. -/
theorem length_eq_card {keys : List String} {set : Finset String} (distinct : keys.Nodup)
    (same : ∀ key, key ∈ keys ↔ key ∈ set)
    : keys.length = set.card := by
  rw [← List.toFinset_card_of_nodup distinct]
  exact congrArg Finset.card (Finset.ext fun key => List.mem_toFinset.trans (same key))

/-- Values under a condition that all of them meet are all values. -/
theorem vertices_eq_of_rooted {tree : Graph} {condition : String → Prop}
    (values
      : ∀ key value,
          tree.vertices.get? key = some value
          ↔ condition key ∧ graph.vertices.get? key = some value)
    (met : ∀ key ∈ graph.keys, condition key)
    : tree.vertices = graph.vertices := by
  refine KeyMap.ext_get? fun key => Option.ext fun value => (values key value).trans ?_
  exact and_iff_right_of_imp fun found => met key (mem_keys.mpr (.inl ⟨value, found⟩))

/-- The shortest-path tree of a rooted graph spans it: each key but the seed hangs on the
one edge from its parent.
-/
theorem Rooted.spannedBy_shortestPathTree (rooted : graph.Rooted seed)
    (contained : graph.contains seed = true)
    : graph.SpannedBy map seed (graph.shortestPathTree map seed) := by
  have heads := heads_shortestPathTree_perm map contained
  have labelled (key : String)
      : key ∈ (graph.pathLabels map seed).keys ↔ key ∈ insert seed graph.keys.toFinset := by
    rw [← rooted.reaches_iff, ← contains_pathLabels_iff map, KeyMap.contains_iff,
      KeyMap.mem_keys_iff]
  refine ⟨?_, ?_, ?_, ?_⟩
  · exact vertices_eq_of_rooted (fun _ _ => get?_vertices_shortestPathTree contained) rooted
  · intro edge member
    obtain ⟨_, weight, stored, shown⟩ :=
      (weight?_shortestPathTree contained).mp (mem_edges.mp member)
    exact ⟨weight, stored, shown.symm⟩
  · intro key member differs
    have listed : key ∈ (graph.pathLabels map seed).keys.erase seed :=
      (KeyMap.nodup_keys _).mem_erase_iff.mpr ⟨differs, (labelled key).mpr (by simp [member])⟩
    obtain ⟨edge, stored, rfl⟩ := List.mem_map.mp (heads.mem_iff.mpr listed)
    exact ⟨edge, stored, .inr rfl⟩
  · have seeded : seed ∈ (graph.pathLabels map seed).keys := (labelled seed).mpr (by simp)
    rw [← length_eq_card (KeyMap.nodup_keys _) labelled, edgeCount, ← List.length_map Edge.head,
      heads.length_eq, List.length_erase_add_one seeded]

/-- The spanning tree of a rooted graph spans it: it grows to all that is linked to the
seed, an edge for each key.
-/
theorem Rooted.spannedBy_minimumSpanningTree (rooted : graph.Rooted seed)
    (contained : graph.contains seed = true)
    : graph.SpannedBy map seed (graph.minimumSpanningTree map seed) := by
  have grown := (grown_spanned graph map seed).1
  have inside (key : String)
      : key ∈ (graph.spanned map seed).1 ↔ key ∈ insert seed graph.keys.toFinset :=
    mem_spanned_iff.trans rooted.linked_iff
  refine ⟨?_, ?_, ?_, ?_⟩
  · exact vertices_eq_of_rooted (fun _ _ => get?_vertices_minimumSpanningTree contained)
      fun key member => (rooted key member).linked
  · intro edge member
    obtain ⟨taken, chosen, tails, heads, shown⟩ :=
      (weight?_minimumSpanningTree contained).mp (mem_edges.mp member)
    exact ⟨taken.weight, tails ▸ heads ▸ mem_edges.mp (grown.stored taken chosen), shown.symm⟩
  · intro key member differs
    obtain ⟨edge, chosen, touch⟩ :=
      (grown.touched key ((inside key).mpr (by simp [member]))).resolve_left differs
    refine ⟨⟨edge.tail, edge.head, map.apply edge.weight⟩, ?_, touch⟩
    exact mem_edges.mpr
      ((weight?_minimumSpanningTree contained).mpr ⟨edge, chosen, rfl, rfl, rfl⟩)
  · rw [edgeCount_minimumSpanningTree contained]
    exact length_eq_card grown.distinct inside

/-- Every tree view of a rooted graph spans it. A seed that is not contained has an empty
tree, and the rooted graph is empty as well.
-/
theorem Rooted.spannedBy_derive (rooted : graph.Rooted seed) {view : View}
    (shown : view.weightMap? = some map)
    : graph.SpannedBy map seed (graph.derive view seed) := by
  cases contained : graph.contains seed with
  | true =>
      cases view with
      | neighbor => cases shown
      | sptCost | sptRelevance =>
          obtain rfl := Option.some.inj shown
          exact rooted.spannedBy_shortestPathTree contained
      | mstCost | mstRelevance =>
          obtain rfl := Option.some.inj shown
          exact rooted.spannedBy_minimumSpanningTree contained
  | false =>
      -- both sides are empty, and the seed is the one key that is counted
      have noKeys := rooted.eq_nil_of_not_contains contained
      have noTree : graph.derive view seed = empty := by
        cases view with
        | neighbor => cases shown
        | sptCost | sptRelevance => simp [derive, shortestPathTree, contained]
        | mstCost | mstRelevance => simp [derive, minimumSpanningTree, contained]
      rw [noTree]
      refine ⟨?_, by simp [edges, empty, KeyMap.empty], by simp [noKeys], by simp [noKeys]; rfl⟩
      refine KeyMap.ext_get? fun key => (Option.eq_none_iff_forall_ne_some.mpr ?_).symm
      intro value found
      have member : key ∈ graph.keys := mem_keys.mpr (.inl ⟨value, found⟩)
      simp [noKeys] at member

end Graph

/-- The four tree views lose no part of a neighbourhood that the store answers, whatever it
keeps: each tree has the neighbourhood's values and spans its keys with its own edges.
-/
theorem illuminate_views_span {memory after : Memory} {now : Instant} {seed : String}
    {step k : Int64} {tfidf : Bool} {neighbourhood : Graph}
    (answered
      : (Memory.store now).answer (.illuminate seed step k tfidf) memory
        = (.ok neighbourhood, after))
    {view : View} {map : WeightMap} (shown : view.weightMap? = some map)
    : neighbourhood.SpannedBy map seed (neighbourhood.derive view seed) := by
  have found : (memory.liveGraph now).illuminate? seed step.toInt k.toInt tfidf
      = some neighbourhood := by
    cases hf : (memory.liveGraph now).illuminate? seed step.toInt k.toInt tfidf with
    | none => simp [Memory.store, hf] at answered
    | some other =>
        simp only [Memory.store, hf, Option.elim_some, Prod.mk.injEq, Except.ok.injEq] at answered
        rw [answered.1]
  exact (Graph.rooted_of_illuminate found).spannedBy_derive shown

/-- A limit of one head drops an edge and leaves a cycle through the seed, which the tree
view then breaks.
-/
theorem illuminate_views_span_of_cycle
    : let hour := Duration.ofSeconds 3600
      let memory := ((Memory.empty.addEdge ⟨0⟩ "s" "a" 3 hour).addEdge ⟨0⟩ "s" "b" 1 hour).addEdge
        ⟨0⟩ "a" "s" 2 hour
      let cycle := (Graph.empty.insertEdge "s" "a" 3).insertEdge "a" "s" 2
      (Memory.store ⟨0⟩).answer (.illuminate "s" 2 1 false) memory = (.ok cycle, memory)
      ∧ View.sptRelevance.weightMap? = some .reciprocal
      ∧ cycle.SpannedBy .reciprocal "s" (cycle.derive .sptRelevance "s") := by
  intro hour memory cycle
  have answered : (Memory.store ⟨0⟩).answer (.illuminate "s" 2 1 false) memory
      = (.ok cycle, memory) := by
    simp only [Memory.store, Graph.illuminate?, Graph.bestHeads, Graph.mergeSort_better, memory,
      hour, cycle]
    decide +kernel
  exact ⟨answered, rfl, illuminate_views_span answered rfl⟩

end GraphShell
