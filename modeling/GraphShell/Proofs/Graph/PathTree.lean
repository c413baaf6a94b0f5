import GraphShell.Proofs.Graph.Search

/-! The shortest-path tree of a seed, read off the labels of its search: it keeps the values
of the keys reached, and each key reached but the seed hangs on one edge of the graph.
-/

namespace GraphShell.Graph

variable {graph : Graph} {map : WeightMap} {seed : String}

/-- The tree with the key of a label carried over, and the edge from the label's parent. -/
def addLabel (graph : Graph) (map : WeightMap) (tree : Graph) (entry : String × Label) : Graph :=
  let tree := tree.carryVertex graph entry.1
  match entry.2.parent with
  | none => tree
  | some parent =>
      match graph.weight? parent entry.1 with
      | none => tree
      | some weight => tree.insertEdge parent entry.1 (map.apply weight)

theorem shortestPathTree_eq (contained : graph.contains seed = true)
    : graph.shortestPathTree map seed
      = (graph.pathLabels map seed).entries.foldl (addLabel graph map) empty := by
  rw [shortestPathTree, contained]
  rfl

/-- A label carries its key over, with or without an edge. -/
theorem vertices_addLabel (tree : Graph) (entry : String × Label)
    : (addLabel graph map tree entry).vertices = (tree.carryVertex graph entry.1).vertices := by
  unfold addLabel
  cases entry.2.parent with
  | none => rfl
  | some parent => cases hw : graph.weight? parent entry.1 <;> simp [hw]

/-- A label sets the edge from its parent, if the graph has that edge, and no other one. -/
theorem weight?_addLabel (tree : Graph) (entry : String × Label) (tail head : String)
    : (addLabel graph map tree entry).weight? tail head
      = if entry.1 = head ∧ entry.2.parent = some tail then
          ((graph.weight? tail head).map map.apply).or (tree.weight? tail head)
        else tree.weight? tail head := by
  unfold addLabel
  cases hp : entry.2.parent with
  | none => simp
  | some parent =>
      by_cases same : entry.1 = head ∧ parent = tail
      · obtain ⟨rfl, rfl⟩ := same
        cases hw : graph.weight? parent entry.1 <;> simp [hw]
      · have other : ¬ (tail = parent ∧ head = entry.1) := fun h => same ⟨h.2.symm, h.1.symm⟩
        cases hw : graph.weight? parent entry.1 <;> simp [hw, same, other]

/-- The values of the tree are those that the graph has at the keys reached. -/
theorem get?_vertices_shortestPathTree (contained : graph.contains seed = true) {key : String}
    {value : Scalar}
    : (graph.shortestPathTree map seed).vertices.get? key = some value
      ↔ graph.Reaches seed key ∧ graph.vertices.get? key = some value := by
  have labelled : (∃ entry ∈ (graph.pathLabels map seed).entries, key = entry.1)
      ↔ graph.Reaches seed key := by
    rw [← contains_pathLabels_iff map]
    simp only [KeyMap.contains, List.any_eq_true, decide_eq_true_eq]
    exact exists_congr fun _ => and_congr_right fun _ => eq_comm
  rw [shortestPathTree_eq contained,
    lookup_foldl (fun tree : Graph => tree.vertices.get? key)
      (fun entry : String × Label => key = entry.1) (graph.vertices.get? key)]
  · by_cases reached : graph.Reaches seed key <;> simp [labelled, reached, empty]
  · intro entry _ tree
    by_cases hk : key = entry.1 <;> simp [vertices_addLabel, hk]

/-- The edges of the tree are those from the parent of a label to its key, with the weight
that the map shows.
-/
theorem weight?_shortestPathTree (contained : graph.contains seed = true)
    {tail head : String} {shown : Weight}
    : (graph.shortestPathTree map seed).weight? tail head = some shown
      ↔ (∃ label, (graph.pathLabels map seed).get? head = some label ∧ label.parent = some tail)
        ∧ ∃ weight, graph.weight? tail head = some weight ∧ map.apply weight = shown := by
  have labelled : (∃ entry ∈ (graph.pathLabels map seed).entries,
        entry.1 = head ∧ entry.2.parent = some tail)
      ↔ ∃ label, (graph.pathLabels map seed).get? head = some label
          ∧ label.parent = some tail := by
    simp only [KeyMap.get?_eq_some_iff]
    constructor
    · rintro ⟨⟨key, label⟩, member, rfl, parent⟩
      exact ⟨label, member, parent⟩
    · rintro ⟨label, member, parent⟩
      exact ⟨(head, label), member, rfl, parent⟩
  rw [shortestPathTree_eq contained,
    lookup_foldl (fun tree : Graph => tree.weight? tail head)
      (fun entry : String × Label => entry.1 = head ∧ entry.2.parent = some tail)
      ((graph.weight? tail head).map map.apply) _
      (fun entry _ tree => weight?_addLabel tree entry tail head)]
  by_cases present : ∃ label, (graph.pathLabels map seed).get? head = some label
      ∧ label.parent = some tail
  · simp [labelled.mpr present, present, Option.map_eq_some_iff]
  · simp [labelled, present]

/-- The heads of the tree's edges are the keys reached but the seed, each once: every label
but the seed's names one parent.
-/
theorem heads_shortestPathTree_perm (map : WeightMap) (contained : graph.contains seed = true)
    : ((graph.shortestPathTree map seed).edges.map Edge.head).Perm
        ((graph.pathLabels map seed).keys.erase seed) := by
  obtain ⟨explored, _, _⟩ := explored_pathLabels graph map seed
  refine (List.perm_ext_iff_of_nodup ?_ ?_).mpr ?_
  · refine (nodup_edges _).map_on ?_
    intro left hl right hr same
    obtain ⟨⟨label, found, parent⟩, _⟩ :=
      (weight?_shortestPathTree contained).mp (mem_edges.mp hl)
    obtain ⟨⟨other, otherFound, otherParent⟩, _⟩ :=
      (weight?_shortestPathTree contained).mp (mem_edges.mp hr)
    rw [same, otherFound] at found
    obtain rfl := Option.some.inj found
    exact edge_unique hl hr (Option.some.inj (parent.symm.trans otherParent)) same
  · exact (KeyMap.nodup_keys _).erase seed
  · intro key
    rw [(KeyMap.nodup_keys _).mem_erase_iff, KeyMap.mem_keys_iff, List.mem_map]
    constructor
    · rintro ⟨edge, member, rfl⟩
      obtain ⟨⟨label, found, parent⟩, _⟩ :=
        (weight?_shortestPathTree contained).mp (mem_edges.mp member)
      exact ⟨explored.ne_seed found parent, label, found⟩
    · rintro ⟨differs, label, found⟩
      obtain ⟨parent, named, ⟨weight, stored⟩, _⟩ := explored.parented key label found differs
      exact ⟨
        ⟨parent, key, map.apply weight⟩,
        mem_edges.mpr ((weight?_shortestPathTree contained).mpr
          ⟨⟨label, found, named⟩, weight, stored, rfl⟩),
        rfl
      ⟩

end GraphShell.Graph
