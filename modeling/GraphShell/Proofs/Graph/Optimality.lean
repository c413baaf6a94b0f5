import GraphShell.Proofs.Graph.PathCosts

/-! No walk from the seed costs less than the one inside the shortest-path tree, whatever the
weights are. The tree has exactly one walk to each key in reach, and it costs what the key's
label says.
-/

namespace GraphShell.Graph

open Binary

variable {graph tree : Graph} {map : WeightMap} {seed key : String} {path other : List Edge}

-----------------------------------------------------------------------------------------
-- Walks
-----------------------------------------------------------------------------------------

/-- Edges of the graph that lead from the first key to the last, each from where the one before
it ends.
-/
inductive Walk (graph : Graph) (first : String) : List Edge → String → Prop
  | start : graph.Walk first [] first
  | step {path edge} (walk : graph.Walk first path edge.tail) (stored : edge ∈ graph.edges)
    : graph.Walk first (path ++ [edge]) edge.head

/-- The tree has all edges of the path, with whatever weights it shows. -/
def Inside (tree : Graph) (path : List Edge) : Prop :=
  ∀ edge ∈ path, tree.Adjacent edge.tail edge.head

/-- The costs of a path's edges summed up in their order, each sum rounded. -/
def pathCost (map : WeightMap) (path : List Edge) : Double :=
  path.foldl (fun total edge => total + map.cost edge.weight) (.zero false)

theorem pathCost_append_singleton (map : WeightMap) (path : List Edge) (edge : Edge)
    : pathCost map (path ++ [edge]) = pathCost map path + map.cost edge.weight := by
  simp [pathCost]

theorem inside_append_singleton {edge : Edge}
    : tree.Inside (path ++ [edge]) ↔ tree.Inside path ∧ tree.Adjacent edge.tail edge.head := by
  simp [Inside, or_imp, forall_and]

/-- A path costs a number from zero up, by induction from its end. -/
theorem unsigned_pathCost (map : WeightMap) (path : List Edge)
    : (pathCost map path).Unsigned := by
  induction path using List.reverseRecOn with
  | nil => exact Number.unsigned_zero
  | append_singleton path edge ih =>
      rw [pathCost_append_singleton]
      exact (ih.add (map.unsigned_cost edge.weight) (map.isFinite_cost edge.weight)).1

-----------------------------------------------------------------------------------------
-- Walks against labels
-----------------------------------------------------------------------------------------

/-- A key is labelled with at most what any walk to it costs: each edge of the walk is relaxed,
and a sum that starts lower stays lower. By induction on the walk.
-/
theorem Walk.within_pathLabels (walk : graph.Walk seed path key)
    : Within (graph.pathLabels map seed) key (pathCost map path) := by
  obtain ⟨explored, _, done⟩ := explored_pathLabels graph map seed
  have balanced := balanced_pathLabels graph map seed
  induction walk with
  | start =>
      obtain ⟨root, found, orphan⟩ := explored.root
      refine ⟨root, found, ?_⟩
      rw [balanced.priced.free seed root found orphan]
      exact Nat.zero_le _
  | @step path edge walk stored ih =>
      obtain ⟨origin, found, low⟩ := ih
      have final := settled_of_nextOpen_eq_none done found
      obtain ⟨label, labelled, offered⟩ := balanced.relaxed edge.tail edge.head origin edge.weight
        found final (mem_edges.mp stored)
      refine ⟨label, labelled, offered.trans ?_⟩
      rw [pathCost_append_singleton]
      exact (balanced.priced.unsigned edge.tail origin found).add_mono (unsigned_pathCost map path)
        (map.unsigned_cost edge.weight) (map.isFinite_cost edge.weight) low

/-- Back along the parents there is a walk inside the tree that costs what the key is labelled
with, by induction on the parents.
-/
theorem exists_walk_of_hangs (contained : graph.contains seed = true)
    (hangs : Relation.ReflTransGen (Hangs (graph.pathLabels map seed)) seed key)
    : ∃ path label,
        graph.Walk seed path key
        ∧ (graph.shortestPathTree map seed).Inside path
        ∧ (graph.pathLabels map seed).get? key = some label
        ∧ label.cost = pathCost map path := by
  have priced := (balanced_pathLabels graph map seed).priced
  induction hangs with
  | refl =>
      obtain ⟨root, found, orphan⟩ := (explored_pathLabels graph map seed).1.root
      exact ⟨[], root, .start, nofun, found, priced.free seed root found orphan⟩
  | @tail parent key _ hangs ih =>
      obtain ⟨path, origin, walk, inside, found, cost⟩ := ih
      have edge := (adjacent_shortestPathTree_iff contained).mpr hangs
      obtain ⟨label, labelled, _, named⟩ := hangs
      obtain ⟨source, weight, known, _, stored, sum⟩ :=
        priced.summed key label parent labelled named
      obtain rfl := Option.some.inj (found.symm.trans known)
      have listed : (⟨parent, key, weight⟩ : Edge) ∈ graph.edges := mem_edges.mpr stored
      refine ⟨path ++ [⟨parent, key, weight⟩], label, .step walk listed, ?_, labelled, ?_⟩
      · exact inside_append_singleton.mpr ⟨inside, edge⟩
      · rw [sum, cost, pathCost_append_singleton]

-----------------------------------------------------------------------------------------
-- Walks inside the tree
-----------------------------------------------------------------------------------------

/-- No edge of the tree leads to the seed. -/
theorem not_adjacent_seed (map : WeightMap) (contained : graph.contains seed = true)
    (tail : String)
    : ¬ (graph.shortestPathTree map seed).Adjacent tail seed := by
  intro edge
  obtain ⟨label, found, _, named⟩ := (adjacent_shortestPathTree_iff contained).mp edge
  exact (explored_pathLabels graph map seed).1.ne_seed found named rfl

/-- Edges of the tree with the same head have the same tail, the parent of that head. -/
theorem tail_unique {tail tail' head : String} (contained : graph.contains seed = true)
    (left : (graph.shortestPathTree map seed).Adjacent tail head)
    (right : (graph.shortestPathTree map seed).Adjacent tail' head)
    : tail = tail' := by
  obtain ⟨label, found, _, named⟩ := (adjacent_shortestPathTree_iff contained).mp left
  obtain ⟨label', found', _, named'⟩ := (adjacent_shortestPathTree_iff contained).mp right
  obtain rfl := Option.some.inj (found.symm.trans found')
  exact Option.some.inj (named.symm.trans named')

/-- The tree has only one walk from the seed to a key: its last edge is the one with that head, by
induction on the walk.
-/
theorem Walk.unique (contained : graph.contains seed = true)
    (walk : graph.Walk seed path key) (walk' : graph.Walk seed other key)
    (inside : (graph.shortestPathTree map seed).Inside path)
    (inside' : (graph.shortestPathTree map seed).Inside other)
    : path = other := by
  induction walk generalizing other with
  | start =>
      cases walk' with
      | start => rfl
      | step _ _ =>
          exact absurd (inside_append_singleton.mp inside').2 (not_adjacent_seed map contained _)
  | @step path edge walk stored ih =>
      obtain ⟨before, last⟩ := inside_append_singleton.mp inside
      generalize ends : edge.head = head at walk'
      cases walk' with
      | start =>
          rw [ends] at last
          exact absurd last (not_adjacent_seed map contained _)
      | @step path' edge' walk' stored' =>
          obtain ⟨before', last'⟩ := inside_append_singleton.mp inside'
          have tails : edge.tail = edge'.tail := tail_unique contained last (ends ▸ last')
          obtain rfl := edge_unique stored stored' tails ends
          rw [ih walk' before before']

/-- The shortest-path tree has exactly one walk to every key that edges lead to from the seed, and
no walk of the graph to that key costs less. Costs are from zero up, and sums are rounded.
-/
theorem shortestPathTree_optimal (map : WeightMap) (contained : graph.contains seed = true)
    (reached : graph.Reaches seed key)
    : ∃ path,
        graph.Walk seed path key
        ∧ (graph.shortestPathTree map seed).Inside path
        ∧ (∀ other,
            graph.Walk seed other key
            → (graph.shortestPathTree map seed).Inside other
            → other = path)
        ∧ ∀ other,
            graph.Walk seed other key → (pathCost map path).le (pathCost map other) = true := by
  have hangs := descends_pathLabels graph map seed key (settled_pathLabels map reached)
  obtain ⟨path, label, walk, inside, known, cost⟩ := exists_walk_of_hangs contained hangs
  refine ⟨path, walk, inside,
    fun other walk' inside' => walk'.unique contained walk inside' inside, ?_⟩
  intro other walk'
  obtain ⟨least, labelled, low⟩ := walk'.within_pathLabels
  obtain rfl := Option.some.inj (known.symm.trans labelled)
  rw [cost] at low
  exact ((unsigned_pathCost map path).le_iff (unsigned_pathCost map other)).mpr low

/-- The edge that leads straight to a key costs more than the detour, which has an edge of negative
weight and so of no cost.
-/
theorem shortestPathTree_optimal_of_detour
    : let graph := (((empty.insertEdge "s" "b" 5).insertEdge "s" "a" (.ofInt (-1))).insertEdge
        "a" "b" 2).insertEdge "b" "s" (.infinite true)
      let detour : List Edge := [⟨"s", "a", .ofInt (-1)⟩, ⟨"a", "b", 2⟩]
      graph.contains "s" = true
      ∧ graph.Reaches "s" "b"
      ∧ graph.Walk "s" detour "b"
      ∧ (graph.shortestPathTree .identity "s").Inside detour
      ∧ ∀ other,
          graph.Walk "s" other "b"
          → (pathCost .identity detour).le (pathCost .identity other) = true := by
  intro graph detour
  have contained : graph.contains "s" = true := by decide +kernel
  have reached : graph.Reaches "s" "b" := .single ⟨5, by decide +kernel⟩
  have first : (⟨"s", "a", .ofInt (-1)⟩ : Edge) ∈ graph.edges := by decide +kernel
  have second : (⟨"a", "b", 2⟩ : Edge) ∈ graph.edges := by decide +kernel
  have walk : graph.Walk "s" detour "b" := .step (.step .start first) second
  have inside : (graph.shortestPathTree .identity "s").Inside detour := by
    have toA : (graph.shortestPathTree .identity "s").Adjacent "s" "a" :=
      ⟨.ofInt (-1), by decide +kernel⟩
    have toB : (graph.shortestPathTree .identity "s").Adjacent "a" "b" :=
      ⟨2, by decide +kernel⟩
    exact List.forall_mem_cons.mpr ⟨toA, List.forall_mem_singleton.mpr toB⟩
  obtain ⟨path, _, _, only, least⟩ := shortestPathTree_optimal .identity contained reached
  obtain rfl := only detour walk inside
  exact ⟨contained, reached, walk, inside, least⟩

end GraphShell.Graph
