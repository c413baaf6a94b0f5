import GraphShell.Proofs.Graph.MinimumTree

/-! The spanning tree of a seed has no cycle and touches the whole component, and no other edges
of the graph that join the component cost less. Edges are taken in either direction here.
-/

namespace GraphShell.Graph

variable {graph : Graph} {map : WeightMap} {seed key first second : String}
  {edges : Finset Edge} {edge : Edge} {inside : List String}

-----------------------------------------------------------------------------------------
-- Connections that stay inside
-----------------------------------------------------------------------------------------

/-- Edges between keys inside connect none of these with a key outside. -/
theorem not_connects_of_within
    (within : ∀ edge ∈ edges, edge.tail ∈ inside ∧ edge.head ∈ inside)
    (inner : first ∈ inside) (outer : second ∉ inside)
    : ¬ Connects edges first second := by
  intro connects
  obtain ⟨edge, member, crossed⟩ := connects.exists_crosses inner outer
  obtain ⟨tail, head⟩ := within edge member
  simp [crosses, tail, head] at crossed

/-- A key that is connected with another one is an end of one of the edges. -/
theorem Connects.exists_end (connects : Connects edges first second) (differs : first ≠ second)
    : ∃ edge ∈ edges, first = edge.tail ∨ first = edge.head := by
  rcases Relation.ReflTransGen.cases_head connects with same | ⟨_, step, _⟩
  · exact absurd same differs
  · obtain ⟨edge, member, ⟨tail, _⟩ | ⟨_, head⟩⟩ := step
    · exact ⟨edge, member, .inl tail.symm⟩
    · exact ⟨edge, member, .inr head.symm⟩

-----------------------------------------------------------------------------------------
-- No cycle is closed
-----------------------------------------------------------------------------------------

/-- No edge has its ends connected by the others. So none is a loop, and no two edges have the
same ends.
-/
def Acyclic (edges : Finset Edge) : Prop :=
  ∀ edge ∈ edges, ¬ Connects (edges.erase edge) edge.tail edge.head

theorem ends_of_crosses (crossed : crosses inside edge = true)
    : edge.tail ∈ inside ∧ edge.head ∉ inside ∨ edge.head ∈ inside ∧ edge.tail ∉ inside := by
  obtain ⟨outside, ends⟩ := crosses_iff.mp crossed
  rcases ends with ⟨inner, outer⟩ | ⟨inner, outer⟩
  · exact .inl ⟨inner, outer ▸ outside⟩
  · exact .inr ⟨inner, outer ▸ outside⟩

/-- The ends of a crossing edge are not connected by edges between keys inside. -/
theorem not_connects_ends (within : ∀ edge ∈ edges, edge.tail ∈ inside ∧ edge.head ∈ inside)
    (crossed : crosses inside edge = true)
    : ¬ Connects edges edge.tail edge.head := by
  intro connects
  rcases ends_of_crosses crossed with ⟨inner, outer⟩ | ⟨inner, outer⟩
  · exact not_connects_of_within within inner outer connects
  · exact not_connects_of_within within inner outer connects.symm

/-- A crossing edge closes no cycle: nothing else leads to its outer end. -/
theorem Acyclic.insert (acyclic : Acyclic edges)
    (within : ∀ edge ∈ edges, edge.tail ∈ inside ∧ edge.head ∈ inside)
    (crossed : crosses inside edge = true)
    : Acyclic (insert edge edges) := by
  intro other member connects
  by_cases same : other = edge
  · subst same
    apply not_connects_ends within crossed
    apply connects.mono
    exact Finset.erase_insert_subset other edges
  · have old : other ∈ edges := Finset.mem_of_mem_insert_of_ne member same
    have rest : ∀ edge ∈ edges.erase other, edge.tail ∈ inside ∧ edge.head ∈ inside := by
      intro edge member
      exact within edge (Finset.mem_of_mem_erase member)
    obtain ⟨tail, head⟩ := within other old
    rw [Finset.erase_insert_of_ne (Ne.symm same)] at connects
    -- a way over the crossing edge would have to come back from its outer end
    have ends := ends_of_crosses crossed
    rcases connects_insert connects with direct | ⟨before, behind⟩ | ⟨before, behind⟩
    · exact acyclic other old direct
    · rcases ends with ⟨_, outer⟩ | ⟨_, outer⟩
      · exact not_connects_of_within rest head outer behind.symm
      · exact not_connects_of_within rest tail outer before
    · rcases ends with ⟨_, outer⟩ | ⟨_, outer⟩
      · exact not_connects_of_within rest tail outer before
      · exact not_connects_of_within rest head outer behind.symm

/-- The edges of the grown tree have no cycle, since each edge taken closes none. -/
theorem acyclic_spanned (graph : Graph) (map : WeightMap) (seed : String)
    : Acyclic (graph.spanned map seed).2.toFinset := by
  suffices both : Grown graph seed (graph.spanned map seed).1 (graph.spanned map seed).2
      ∧ Acyclic (graph.spanned map seed).2.toFinset from both.2
  apply grow_keeps fun inside taken => Grown graph seed inside taken ∧ Acyclic taken.toFinset
  · intro inside taken edge next before
    obtain ⟨stored, crossed⟩ := crossing_eq_some next
    refine ⟨before.1.take stored crossed, ?_⟩
    rw [List.toFinset_cons]
    apply before.2.insert _ crossed
    intro other member
    exact before.1.within other (List.mem_toFinset.mp member)
  · exact ⟨Grown.start graph seed, nofun⟩

-----------------------------------------------------------------------------------------
-- Other weights on the same edges
-----------------------------------------------------------------------------------------

/-- The edge with the weight that the map shows. -/
def shown (map : WeightMap) (edge : Edge) : Edge :=
  { edge with weight := map.apply edge.weight }

/-- What connects keys are the ends of the edges, not their weights. -/
theorem connects_image_shown (map : WeightMap)
    : Connects (edges.image (shown map)) first second ↔ Connects edges first second := by
  simp [Connects, shown]

theorem Acyclic.image_shown (acyclic : Acyclic edges) (map : WeightMap)
    : Acyclic (edges.image (shown map)) := by
  intro edge member connects
  obtain ⟨stored, listed, rfl⟩ := Finset.mem_image.mp member
  apply acyclic stored listed
  apply (connects_image_shown map).mp
  apply connects.mono
  intro other rest
  obtain ⟨differs, member⟩ := Finset.mem_erase.mp rest
  obtain ⟨source, found, rfl⟩ := Finset.mem_image.mp member
  have apart : source ≠ stored := fun same => differs (congrArg (shown map) same)
  exact Finset.mem_image_of_mem _ (Finset.mem_erase.mpr ⟨apart, found⟩)

theorem edges_minimumSpanningTree_toFinset (map : WeightMap)
    (contained : graph.contains seed = true)
    : (graph.minimumSpanningTree map seed).edges.toFinset
      = (graph.spanned map seed).2.toFinset.image (shown map) := by
  rw [List.toFinset_eq_of_perm _ _ (edges_minimumSpanningTree contained)]
  ext edge
  simp [shown]

-----------------------------------------------------------------------------------------
-- The minimum spanning tree
-----------------------------------------------------------------------------------------

/-- The edges of the graph that the tree has, with the weights they have in the graph. -/
def chosen (graph tree : Graph) : Finset Edge :=
  graph.edges.toFinset.filter fun edge => (tree.weight? edge.tail edge.head).isSome

/-- The tree has the edges that were taken. -/
theorem chosen_minimumSpanningTree (contained : graph.contains seed = true)
    : graph.chosen (graph.minimumSpanningTree map seed) = (graph.spanned map seed).2.toFinset := by
  have stored := (grown_spanned graph map seed).1.stored
  ext edge
  simp only [chosen, Finset.mem_filter, List.mem_toFinset, Option.isSome_iff_exists,
    weight?_minimumSpanningTree contained]
  constructor
  · intro found
    obtain ⟨listed, _, other, member, tail, head, _⟩ := found
    exact edge_unique (stored other member) listed tail head ▸ member
  · intro member
    exact ⟨stored edge member, _, edge, member, rfl, rfl, rfl⟩

/-- What edges cost in sum, exactly. -/
def exactCost (map : WeightMap) (edges : Finset Edge) : Int :=
  ∑ edge ∈ edges, (map.cost edge.weight).units

theorem exactCost_eq_charge (map : WeightMap) (edges : Finset Edge)
    : exactCost map edges
      = charge map edges
        * 2 ^ (Binary.Format.double.scale - Binary.Format.single.scale) := by
  rw [exactCost, charge, Nat.cast_sum, Finset.sum_mul]
  exact Finset.sum_congr rfl fun edge _ => map.units_cost edge.weight

/-- The tree has the values of the component's keys and edges of the graph in their own direction,
with their weights mapped. Its edges connect the component without a cycle, touch each of its
keys if there is more than one, and are one fewer than the keys. The edges of the graph that it
has cost no more than any others that join the component.
-/
structure LeastTree (graph : Graph) (map : WeightMap) (seed : String) (tree : Graph) : Prop where
  edges
    : ∀ edge ∈ tree.edges,
        ∃ weight,
          graph.weight? edge.tail edge.head = some weight ∧ edge.weight = map.apply weight
  connects : ∀ key, graph.Linked seed key → Connects tree.edges.toFinset seed key
  acyclic : Acyclic tree.edges.toFinset
  touches
    : ∀ key,
        (∃ edge ∈ tree.edges, key = edge.tail ∨ key = edge.head)
        ↔ graph.Linked seed key ∧ ∃ other, other ≠ key ∧ graph.Linked seed other
  count : ∃ component : Finset String,
    (∀ key, key ∈ component ↔ graph.Linked seed key)
    ∧ tree.edgeCount = component.card - 1
  values
    : ∀ key value,
        tree.vertices.get? key = some value
        ↔ graph.Linked seed key ∧ graph.vertices.get? key = some value
  least
    : ∀ edges, Joins graph seed edges → exactCost map (graph.chosen tree) ≤ exactCost map edges

/-- The ends of the tree's edges are the keys of the component, unless there is only one. -/
theorem touched_minimumSpanningTree_iff (map : WeightMap) (contained : graph.contains seed = true)
    : (∃ edge ∈ (graph.minimumSpanningTree map seed).edges, key = edge.tail ∨ key = edge.head)
      ↔ graph.Linked seed key ∧ ∃ other, other ≠ key ∧ graph.Linked seed other := by
  have grown := (grown_spanned graph map seed).1
  have spans := spanningTree_spanned graph map seed
  have listed {edge : Edge} : edge ∈ (graph.minimumSpanningTree map seed).edges
      ↔ ∃ stored ∈ (graph.spanned map seed).2, shown map stored = edge := by
    rw [(edges_minimumSpanningTree contained).mem_iff, List.mem_map]
    rfl
  constructor
  · intro touched
    obtain ⟨_, member, ends⟩ := touched
    obtain ⟨edge, taken, rfl⟩ := listed.mp member
    obtain ⟨tail, head⟩ := grown.within edge taken
    have apart : edge.tail ≠ edge.head := by
      intro same
      apply acyclic_spanned graph map seed edge (List.mem_toFinset.mpr taken)
      exact same ▸ .refl
    rcases ends with rfl | rfl
    · exact ⟨mem_spanned_iff.mp tail, edge.head, apart.symm, mem_spanned_iff.mp head⟩
    · exact ⟨mem_spanned_iff.mp head, edge.tail, apart, mem_spanned_iff.mp tail⟩
  · intro several
    obtain ⟨linked, other, differs, also⟩ := several
    have connects : Connects (graph.spanned map seed).2.toFinset key other :=
      (spans.connects key linked).symm.trans (spans.connects other also)
    obtain ⟨edge, member, ends⟩ := connects.exists_end differs.symm
    exact ⟨shown map edge, listed.mpr ⟨edge, List.mem_toFinset.mp member, rfl⟩, ends⟩

/-- The spanning tree of a seed in the graph is a least one, and that of any other is empty. -/
theorem leastTree_minimumSpanningTree (graph : Graph) (map : WeightMap) (seed : String)
    : if graph.contains seed then
        graph.LeastTree map seed (graph.minimumSpanningTree map seed)
      else graph.minimumSpanningTree map seed = empty := by
  split
  · next contained =>
      have grown := (grown_spanned graph map seed).1
      have spans := spanningTree_spanned graph map seed
      have listed := edges_minimumSpanningTree_toFinset map contained
      refine ⟨?_, ?_, ?_, ?_, ?_, ?_, ?_⟩
      · intro edge member
        obtain ⟨stored, taken, tail, head, weight⟩ :=
          (weight?_minimumSpanningTree contained).mp (mem_edges.mp member)
        refine ⟨stored.weight, ?_, weight.symm⟩
        rw [← tail, ← head]
        exact mem_edges.mp (grown.stored stored taken)
      · intro key linked
        rw [listed, connects_image_shown]
        exact spans.connects key linked
      · rw [listed]
        exact (acyclic_spanned graph map seed).image_shown map
      · intro key
        exact touched_minimumSpanningTree_iff map contained
      · refine ⟨(graph.spanned map seed).1.toFinset, ?_, ?_⟩
        · intro key
          rw [List.mem_toFinset, mem_spanned_iff]
        · rw [List.toFinset_card_of_nodup grown.distinct,
            ← edgeCount_minimumSpanningTree contained, Nat.add_sub_cancel]
      · intro key value
        exact get?_vertices_minimumSpanningTree contained
      · intro edges joins
        rw [chosen_minimumSpanningTree contained, exactCost_eq_charge, exactCost_eq_charge]
        apply Int.mul_le_mul_of_nonneg_right _ (Int.pow_nonneg (by decide))
        exact Int.ofNat_le.mpr joins.charge_spanned_le
  · next absent =>
      simp [minimumSpanningTree, absent]

end GraphShell.Graph
