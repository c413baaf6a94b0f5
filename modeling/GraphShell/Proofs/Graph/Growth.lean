import GraphShell.Graph.Trees
import GraphShell.Proofs.Graph.Search

/-! The spanning tree of a seed grows to the whole component of the seed, edges taken in
either direction. Each edge taken brings in one key, so there is one edge fewer than keys.
-/

namespace GraphShell.Graph

variable {graph : Graph} {map : WeightMap} {seed : String}

/-- An edge joins the two keys, in one direction or the other. -/
def Joined (graph : Graph) (first second : String) : Prop :=
  graph.Adjacent first second ∨ graph.Adjacent second first

/-- Edges lead from the first key to the second if each may be taken in either direction. -/
def Linked (graph : Graph) : String → String → Prop :=
  Relation.ReflTransGen graph.Joined

/-- What edges reach in their own direction they link. -/
theorem Reaches.linked {first second : String} (reached : graph.Reaches first second)
    : graph.Linked first second :=
  Relation.ReflTransGen.mono (fun _ _ edge => Or.inl edge) _ _ reached

theorem Linked.mem_keys {key : String} (linked : graph.Linked seed key)
    : key = seed ∨ key ∈ graph.keys := by
  cases linked with
  | refl => exact .inl rfl
  | tail _ joined =>
      rcases joined with ⟨weight, found⟩ | ⟨weight, found⟩
      · exact .inr (ends_mem_keys found).2
      · exact .inr (ends_mem_keys found).1

-----------------------------------------------------------------------------------------
-- Crossing edges
-----------------------------------------------------------------------------------------

/-- An edge crosses if its outer end lies outside and its other end inside. -/
theorem crosses_iff {inside : List String} {edge : Edge}
    : crosses inside edge = true
      ↔ outerEnd inside edge ∉ inside
        ∧ (edge.tail ∈ inside ∧ outerEnd inside edge = edge.head
          ∨ edge.head ∈ inside ∧ outerEnd inside edge = edge.tail) := by
  by_cases ht : edge.tail ∈ inside <;> by_cases hh : edge.head ∈ inside <;>
    simp [crosses, outerEnd, ht, hh]

theorem crossing_eq_some {inside : List String} {edge : Edge}
    (next : graph.crossing map inside = some edge)
    : edge ∈ graph.edges ∧ crosses inside edge = true :=
  List.mem_filter.mp (mem_of_leastBy next)

theorem crossing_eq_none_iff {inside : List String}
    : graph.crossing map inside = none ↔ ∀ edge ∈ graph.edges, ¬ crosses inside edge = true :=
  leastBy_eq_none_iff.trans List.filter_eq_nil_iff

/-- What holds of the keys inside and the edges taken, and goes on to hold when the next edge is
taken, holds where the growth ends. By induction on the rounds.
-/
theorem grow_keeps (kept : List String → List Edge → Prop)
    (take
      : ∀ inside taken edge,
          graph.crossing map inside = some edge
          → kept inside taken
          → kept (outerEnd inside edge :: inside) (edge :: taken))
    (rounds : Nat) {inside : List String} {taken : List Edge} (start : kept inside taken)
    : kept (graph.grow map rounds inside taken).1 (graph.grow map rounds inside taken).2 := by
  induction rounds generalizing inside taken with
  | zero => exact start
  | succ rounds ih =>
      cases next : graph.crossing map inside with
      | none =>
          simp only [grow, next]
          exact start
      | some edge =>
          simp only [grow, next]
          exact ih (take inside taken edge next start)

-----------------------------------------------------------------------------------------
-- The invariant of the growth
-----------------------------------------------------------------------------------------

/-- The keys inside are distinct and linked to the seed; the edges taken are distinct edges
of the graph between keys inside, they touch all of those but the seed, and they are one
fewer.
-/
structure Grown (graph : Graph) (seed : String) (inside : List String) (taken : List Edge)
    : Prop where
  distinct : inside.Nodup
  seeded : seed ∈ inside
  linked : ∀ key ∈ inside, graph.Linked seed key
  separate : taken.Nodup
  stored : ∀ edge ∈ taken, edge ∈ graph.edges
  within : ∀ edge ∈ taken, edge.tail ∈ inside ∧ edge.head ∈ inside
  touched : ∀ key ∈ inside, key = seed ∨ ∃ edge ∈ taken, key = edge.tail ∨ key = edge.head
  count : inside.length = taken.length + 1

theorem Grown.start (graph : Graph) (seed : String) : Grown graph seed [seed] [] where
  distinct := List.nodup_singleton seed
  seeded := List.mem_singleton_self seed
  linked := fun _ member => List.mem_singleton.mp member ▸ .refl
  separate := List.nodup_nil
  stored := by simp
  within := by simp
  touched := fun _ member => .inl (List.mem_singleton.mp member)
  count := rfl

/-- Taking a crossing edge brings in its outer end, which was outside, so the edge was not
taken before.
-/
theorem Grown.take {inside : List String} {taken : List Edge} {edge : Edge}
    (grown : Grown graph seed inside taken) (stored : edge ∈ graph.edges)
    (crossed : crosses inside edge = true)
    : Grown graph seed (outerEnd inside edge :: inside) (edge :: taken) := by
  obtain ⟨outside, ends⟩ := crosses_iff.mp crossed
  have adjacent : graph.Adjacent edge.tail edge.head := ⟨edge.weight, mem_edges.mp stored⟩
  refine {
    distinct := List.nodup_cons.mpr ⟨outside, grown.distinct⟩
    seeded := List.mem_cons_of_mem _ grown.seeded
    linked := ?_
    separate := List.nodup_cons.mpr ⟨?_, grown.separate⟩
    stored := List.forall_mem_cons.mpr ⟨stored, grown.stored⟩
    within := List.forall_mem_cons.mpr ⟨?_, ?_⟩
    touched := List.forall_mem_cons.mpr ⟨?_, ?_⟩
    count := by simp [grown.count]
  }
  · refine List.forall_mem_cons.mpr ⟨?_, grown.linked⟩
    rcases ends with ⟨inner, outer⟩ | ⟨inner, outer⟩
    · exact outer ▸ (grown.linked _ inner).tail (.inl adjacent)
    · exact outer ▸ (grown.linked _ inner).tail (.inr adjacent)
  · -- an edge taken before lies inside with both ends
    intro member
    have both := grown.within edge member
    rcases ends with ⟨_, outer⟩ | ⟨_, outer⟩
    · exact outside (outer ▸ both.2)
    · exact outside (outer ▸ both.1)
  · rcases ends with ⟨inner, outer⟩ | ⟨inner, outer⟩ <;> simp [inner, outer]
  · intro other member
    have both := grown.within other member
    exact ⟨List.mem_cons_of_mem _ both.1, List.mem_cons_of_mem _ both.2⟩
  · exact .inr ⟨edge, List.mem_cons_self, ends.elim (fun h => .inr h.2) (fun h => .inl h.2)⟩
  · intro key member
    refine (grown.touched key member).imp_right ?_
    rintro ⟨other, old, touch⟩
    exact ⟨other, List.mem_cons_of_mem _ old, touch⟩

/-- Once as many edges are taken as the graph has keys, every key is inside, so no edge
crosses.
-/
theorem Grown.crossing_eq_none {inside : List String} {taken : List Edge}
    (grown : Grown graph seed inside taken) (enough : graph.keys.length ≤ taken.length)
    : graph.crossing map inside = none := by
  have subset : inside.toFinset ⊆ insert seed graph.keys.toFinset := by
    intro key member
    simpa using (grown.linked key (List.mem_toFinset.mp member)).mem_keys
  have card : (insert seed graph.keys.toFinset).card ≤ inside.toFinset.card := by
    rw [List.toFinset_card_of_nodup grown.distinct, grown.count]
    exact (Finset.card_insert_le _ _).trans
      (Nat.succ_le_succ ((List.toFinset_card_le _).trans enough))
  have all (key : String) (member : key ∈ graph.keys) : key ∈ inside := by
    have equal := Finset.eq_of_subset_of_card_le subset card
    rw [← List.mem_toFinset, equal]
    simp [member]
  rw [crossing_eq_none_iff]
  intro edge member
  have ends := ends_mem_keys (mem_edges.mp member)
  simp [crosses, all _ ends.1, all _ ends.2]

/-- The growth keeps its invariant and ends when no edge crosses, by induction on the
rounds.
-/
theorem Grown.grow {rounds : Nat} {inside : List String} {taken : List Edge}
    (grown : Grown graph seed inside taken)
    (enough : graph.keys.length ≤ rounds + taken.length)
    : Grown graph seed (graph.grow map rounds inside taken).1 (graph.grow map rounds inside taken).2
      ∧ graph.crossing map (graph.grow map rounds inside taken).1 = none := by
  induction rounds generalizing inside taken with
  | zero => exact ⟨grown, grown.crossing_eq_none (by simpa using enough)⟩
  | succ rounds ih =>
      cases next : graph.crossing map inside with
      | none =>
          simp only [Graph.grow, next]
          exact ⟨grown, trivial⟩
      | some edge =>
          obtain ⟨stored, crossed⟩ := crossing_eq_some next
          simp only [Graph.grow, next]
          exact ih (grown.take stored crossed) (by simp only [List.length_cons]; omega)

-----------------------------------------------------------------------------------------
-- The spanning tree
-----------------------------------------------------------------------------------------

/-- The keys and the edges that the spanning tree of a seed ends with. -/
def spanned (graph : Graph) (map : WeightMap) (seed : String) : List String × List Edge :=
  graph.grow map graph.keys.length [seed] []

/-- The spanning tree is grown, and no edge leads out of it: there are enough rounds. -/
theorem grown_spanned (graph : Graph) (map : WeightMap) (seed : String)
    : Grown graph seed (graph.spanned map seed).1 (graph.spanned map seed).2
      ∧ graph.crossing map (graph.spanned map seed).1 = none :=
  (Grown.start graph seed).grow (by simp)

/-- The keys spanned are exactly those linked to the seed: no edge leads out of them. -/
theorem mem_spanned_iff {key : String}
    : key ∈ (graph.spanned map seed).1 ↔ graph.Linked seed key := by
  obtain ⟨grown, done⟩ := grown_spanned graph map seed
  have closed (first second : String) (joined : graph.Joined first second)
      (inside : first ∈ (graph.spanned map seed).1)
      : second ∈ (graph.spanned map seed).1 := by
    have notCrossing (tail head : String) (edge : graph.Adjacent tail head)
        : ¬ crosses (graph.spanned map seed).1 ⟨tail, head, edge.choose⟩ = true :=
      crossing_eq_none_iff.mp done ⟨tail, head, edge.choose⟩ (mem_edges.mpr edge.choose_spec)
    rcases joined with edge | edge
    · simpa [crosses, inside] using notCrossing first second edge
    · simpa [crosses, inside] using notCrossing second first edge
  refine ⟨grown.linked key, fun linked => ?_⟩
  induction linked with
  | refl => exact grown.seeded
  | tail _ joined ih => exact closed _ _ joined ih

/-- The tree of a seed in the graph is built from what is spanned. -/
theorem minimumSpanningTree_eq (contained : graph.contains seed = true)
    : graph.minimumSpanningTree map seed
      = (graph.spanned map seed).2.foldl
          (fun tree edge => tree.insertEdge edge.tail edge.head (map.apply edge.weight))
          ((graph.spanned map seed).1.foldl (fun tree key => tree.carryVertex graph key)
            empty) := by
  rw [minimumSpanningTree, contained]
  rfl

/-- The values of the tree are those that the graph has at the keys linked to the seed. -/
theorem get?_vertices_minimumSpanningTree (contained : graph.contains seed = true)
    {key : String} {value : Scalar}
    : (graph.minimumSpanningTree map seed).vertices.get? key = some value
      ↔ graph.Linked seed key ∧ graph.vertices.get? key = some value := by
  have keeps (tree : Graph) (edge : Edge)
      : (tree.insertEdge edge.tail edge.head (map.apply edge.weight)).vertices = tree.vertices :=
    vertices_insertEdge tree edge.tail edge.head (map.apply edge.weight)
  rw [minimumSpanningTree_eq contained, lookup_foldl_of_keeps Graph.vertices keeps,
    get?_vertices_foldl_carryVertex]
  by_cases linked : graph.Linked seed key <;> simp [mem_spanned_iff, linked]

/-- The edges of the tree are the edges taken, in their own direction and with the weight
that the map shows.
-/
theorem weight?_minimumSpanningTree (contained : graph.contains seed = true)
    {tail head : String} {shown : Weight}
    : (graph.minimumSpanningTree map seed).weight? tail head = some shown
      ↔ ∃ edge ∈ (graph.spanned map seed).2,
          edge.tail = tail ∧ edge.head = head ∧ map.apply edge.weight = shown := by
  have stored := (grown_spanned graph map seed).1.stored
  rw [minimumSpanningTree_eq contained, lookup_foldl (fun tree : Graph => tree.weight? tail head)
    (fun edge : Edge => edge.tail = tail ∧ edge.head = head)
    ((graph.weight? tail head).map map.apply)]
  · constructor
    · intro found
      split at found
      · next set =>
          obtain ⟨edge, member, rfl, rfl⟩ := set
          rw [mem_edges.mp (stored edge member)] at found
          exact ⟨edge, member, rfl, rfl, Option.some.inj found⟩
      · simp at found
    · rintro ⟨edge, member, rfl, rfl, rfl⟩
      rw [if_pos ⟨edge, member, rfl, rfl⟩, mem_edges.mp (stored edge member)]
      rfl
  · intro edge member tree
    by_cases same : edge.tail = tail ∧ edge.head = head
    · obtain ⟨rfl, rfl⟩ := same
      simp [mem_edges.mp (stored edge member)]
    · have other : ¬ (tail = edge.tail ∧ head = edge.head) := fun h => same ⟨h.1.symm, h.2.symm⟩
      simp [same, other]

/-- The edges listed in the tree are the edges taken, with the weights that the map shows. -/
theorem edges_minimumSpanningTree (contained : graph.contains seed = true)
    : ((graph.minimumSpanningTree map seed).edges).Perm
        ((graph.spanned map seed).2.map fun edge =>
          { edge with weight := map.apply edge.weight }) := by
  have grown := (grown_spanned graph map seed).1
  refine (List.perm_ext_iff_of_nodup (nodup_edges _) ?_).mpr ?_
  · refine grown.separate.map_on ?_
    intro left hl right hr same
    simp only [Edge.mk.injEq] at same
    exact edge_unique (grown.stored left hl) (grown.stored right hr) same.1 same.2.1
  · intro edge
    rw [mem_edges, weight?_minimumSpanningTree contained, List.mem_map]
    refine exists_congr fun other => and_congr_right fun _ => ?_
    cases edge
    simp

/-- The tree has one edge fewer than there are keys linked to the seed. -/
theorem edgeCount_minimumSpanningTree (contained : graph.contains seed = true)
    : (graph.minimumSpanningTree map seed).edgeCount + 1 = (graph.spanned map seed).1.length := by
  rw [(grown_spanned graph map seed).1.count, edgeCount,
    (edges_minimumSpanningTree contained).length_eq, List.length_map]

end GraphShell.Graph
