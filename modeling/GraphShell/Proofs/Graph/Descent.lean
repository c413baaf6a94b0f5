import GraphShell.Proofs.Graph.PathTree

/-! The parents of the settled keys lead back to the seed. So the shortest-path tree is a tree:
each key in reach but the seed is the head of one of its edges, and its edges taken backwards
end at the seed.
-/

namespace GraphShell.Graph

variable {graph : Graph} {map : WeightMap} {seed key : String} {labels before after : Labels}

-----------------------------------------------------------------------------------------
-- What every round keeps
-----------------------------------------------------------------------------------------

/-- What each round of a search keeps is kept by the search, by induction on the rounds. -/
theorem search_keeps (kept : Labels → Prop)
    (round
      : ∀ labels key cost,
          nextOpen labels = some (key, cost)
          → kept labels
          → kept (settleNext graph map key cost labels))
    (rounds : Nat) (start : kept labels)
    : kept (search graph map rounds labels) := by
  induction rounds generalizing labels with
  | zero => exact start
  | succ rounds ih =>
      cases next : nextOpen labels with
      | none =>
          simp only [search, next]
          exact start
      | some entry =>
          simp only [search, next]
          exact ih (round labels entry.1 entry.2 next start)

/-- After a key is settled, the rest of its round refines the labels. -/
theorem refines_settleNext (graph : Graph) (map : WeightMap) (key : String) (cost : Double)
    (labels : Labels)
    : Refines (settle key labels) (settleNext graph map key cost labels) := by
  unfold settleNext
  generalize settle key labels = start
  induction graph.neighbors key generalizing start with
  | nil => exact .refl start
  | cons entry rest ih =>
      exact (refines_offer key entry.1 (cost + map.cost entry.2) start).trans (ih _)

-----------------------------------------------------------------------------------------
-- Parents of settled keys
-----------------------------------------------------------------------------------------

/-- The second key is settled with the first as its parent. -/
def Hangs (labels : Labels) (parent key : String) : Prop :=
  ∃ label, labels.get? key = some label ∧ label.settled = true ∧ label.parent = some parent

/-- The parents of every settled key lead back to the seed. -/
def Descends (labels : Labels) (seed : String) : Prop :=
  ∀ key, Settled labels key → Relation.ReflTransGen (Hangs labels) seed key

theorem Refines.hangs (refines : Refines before after) {parent : String}
    (hangs : Hangs before parent key)
    : Hangs after parent key := by
  obtain ⟨label, found, final, named⟩ := hangs
  exact ⟨label, (refines.settled key label final).mpr found, final, named⟩

/-- Refined labels lead back as the earlier ones did, since they settle no other key. -/
theorem Descends.refine (descends : Descends before seed) (refines : Refines before after)
    : Descends after seed := by
  intro key settled
  apply Relation.ReflTransGen.mono (fun _ _ => refines.hangs)
  exact descends key (refines.settled_iff.mp settled)

theorem Hangs.settle {parent other : String} (hangs : Hangs labels parent other)
    : Hangs (settle key labels) parent other := by
  obtain ⟨label, found, final, named⟩ := hangs
  by_cases same : other = key
  · subst same
    exact ⟨{ label with settled := true }, by simp [get?_settle, found], rfl, named⟩
  · exact ⟨label, by simp [get?_settle, same, found], final, named⟩

/-- A key that gets settled leads back as its parent does, which has been settled before. -/
theorem Descends.settle (descends : Descends labels seed) (explored : Explored graph seed labels)
    (present : labels.contains key = true)
    : Descends (settle key labels) seed := by
  have earlier (other : String) (settled : Settled labels other)
      : Relation.ReflTransGen (Hangs (Graph.settle key labels)) seed other :=
    Relation.ReflTransGen.mono (fun _ _ => Hangs.settle) _ _ (descends other settled)
  intro other settled
  rcases (settled_settle_iff present).mp settled with rfl | before
  · by_cases atSeed : other = seed
    · exact atSeed ▸ .refl
    · obtain ⟨label, found⟩ := KeyMap.contains_iff.mp present
      obtain ⟨parent, named, _, final⟩ := explored.parented other label found atSeed
      apply (earlier parent final).tail
      exact ⟨{ label with settled := true }, by simp [get?_settle, found], rfl, named⟩
  · exact earlier other before

/-- The labels of the whole search lead back to the seed, as every round keeps this. -/
theorem descends_pathLabels (graph : Graph) (map : WeightMap) (seed : String)
    : Descends (graph.pathLabels map seed) seed := by
  suffices both : Explored graph seed (graph.pathLabels map seed)
      ∧ Descends (graph.pathLabels map seed) seed from both.2
  apply search_keeps fun labels => Explored graph seed labels ∧ Descends labels seed
  · intro labels key cost next before
    obtain ⟨label, found, _, _⟩ := nextOpen_eq_some next
    have present : labels.contains key = true := KeyMap.contains_iff.mpr ⟨label, found⟩
    refine ⟨(before.1.settleNext map cost present).1, ?_⟩
    exact (before.2.settle before.1 present).refine (refines_settleNext graph map key cost labels)
  · refine ⟨explored_startLabels graph seed, ?_⟩
    intro key settled
    exact absurd settled (not_settled_startLabels key)

-----------------------------------------------------------------------------------------
-- The shape of the tree
-----------------------------------------------------------------------------------------

/-- The edges of the tree are those from parents to their keys: all keys get settled. -/
theorem adjacent_shortestPathTree_iff (contained : graph.contains seed = true)
    {tail head : String}
    : (graph.shortestPathTree map seed).Adjacent tail head
      ↔ Hangs (graph.pathLabels map seed) tail head := by
  obtain ⟨explored, _, done⟩ := explored_pathLabels graph map seed
  constructor
  · intro edge
    obtain ⟨shown, stored⟩ := edge
    obtain ⟨⟨label, found, named⟩, _⟩ := (weight?_shortestPathTree contained).mp stored
    exact ⟨label, found, settled_of_nextOpen_eq_none done found, named⟩
  · intro hangs
    obtain ⟨label, found, _, named⟩ := hangs
    obtain ⟨parent, other, ⟨weight, stored⟩, _⟩ :=
      explored.parented head label found (explored.ne_seed found named)
    obtain rfl := Option.some.inj (named.symm.trans other)
    exact ⟨map.apply weight,
      (weight?_shortestPathTree contained).mpr ⟨⟨label, found, named⟩, weight, stored, rfl⟩⟩

/-- Edges lead to the key from a seed that the graph contains. -/
def InReach (graph : Graph) (seed key : String) : Prop :=
  graph.contains seed = true ∧ graph.Reaches seed key

/-- The tree has the values of the keys in reach, and edges of the graph with their weights
mapped. Every key in reach but the seed is the head of one edge and no other key is the head of
any, and edges taken backwards lead from all keys in reach to the seed.
-/
structure TreeOfPaths (graph : Graph) (map : WeightMap) (seed : String) (tree : Graph)
    : Prop where
  edges
    : ∀ edge ∈ tree.edges,
        ∃ weight,
          graph.weight? edge.tail edge.head = some weight ∧ edge.weight = map.apply weight
  headed : ∀ key, graph.InReach seed key → key ≠ seed → ∃! edge, edge ∈ tree.edges ∧ edge.head = key
  heads : ∀ edge ∈ tree.edges, graph.InReach seed edge.head ∧ edge.head ≠ seed
  back
    : ∀ key,
        graph.InReach seed key
        → Relation.ReflTransGen (fun later earlier => tree.Adjacent earlier later) key seed
  values
    : ∀ key value,
        tree.vertices.get? key = some value
        ↔ graph.InReach seed key ∧ graph.vertices.get? key = some value

theorem shortestPathTree_of_not_contains (absent : graph.contains seed = false)
    : graph.shortestPathTree map seed = empty := by
  simp [shortestPathTree, absent]

/-- The shortest-path tree of a seed in the graph leads back from all keys in reach. -/
theorem reaches_shortestPathTree (map : WeightMap) (contained : graph.contains seed = true)
    (reached : graph.Reaches seed key)
    : (graph.shortestPathTree map seed).Reaches seed key := by
  apply Relation.ReflTransGen.mono (fun _ _ => (adjacent_shortestPathTree_iff contained).mpr)
  exact descends_pathLabels graph map seed key (settled_pathLabels map reached)

/-- The heads of the tree's edges are the keys in reach but the seed. -/
theorem mem_heads_shortestPathTree_iff (map : WeightMap) (contained : graph.contains seed = true)
    : key ∈ (graph.shortestPathTree map seed).edges.map Edge.head
      ↔ key ≠ seed ∧ graph.Reaches seed key := by
  rw [(heads_shortestPathTree_perm map contained).mem_iff, (KeyMap.nodup_keys _).mem_erase_iff,
    ← contains_pathLabels_iff map, KeyMap.contains_iff, KeyMap.mem_keys_iff]

/-- The shortest-path tree is a tree of paths from the seed to all keys in reach, and empty if
the graph does not contain the seed.
-/
theorem treeOfPaths_shortestPathTree (graph : Graph) (map : WeightMap) (seed : String)
    : graph.TreeOfPaths map seed (graph.shortestPathTree map seed) := by
  cases contained : graph.contains seed with
  | true =>
      have distinct : ((graph.shortestPathTree map seed).edges.map Edge.head).Nodup :=
        (heads_shortestPathTree_perm map contained).nodup_iff.mpr
          ((KeyMap.nodup_keys _).erase seed)
      refine ⟨?_, ?_, ?_, ?_, ?_⟩
      · intro edge member
        obtain ⟨_, weight, stored, shown⟩ :=
          (weight?_shortestPathTree contained).mp (mem_edges.mp member)
        exact ⟨weight, stored, shown.symm⟩
      · intro key reached differs
        obtain ⟨edge, member, same⟩ := List.mem_map.mp
          ((mem_heads_shortestPathTree_iff map contained).mpr ⟨differs, reached.2⟩)
        refine ⟨edge, ⟨member, same⟩, ?_⟩
        intro other both
        exact List.inj_on_of_nodup_map distinct both.1 member (both.2.trans same.symm)
      · intro edge member
        obtain ⟨differs, reached⟩ :=
          (mem_heads_shortestPathTree_iff map contained).mp (List.mem_map_of_mem member)
        exact ⟨⟨contained, reached⟩, differs⟩
      · intro key reached
        exact (reaches_shortestPathTree map contained reached.2).swap
      · intro key value
        rw [get?_vertices_shortestPathTree contained, InReach, and_iff_right contained]
  | false =>
      rw [shortestPathTree_of_not_contains contained]
      have unreached (key : String) : ¬ graph.InReach seed key := by
        simp [InReach, contained]
      refine ⟨nofun, ?_, nofun, ?_, ?_⟩
      · intro key reached
        exact absurd reached (unreached key)
      · intro key reached
        exact absurd reached (unreached key)
      · intro key value
        simp [empty, unreached]

end GraphShell.Graph
