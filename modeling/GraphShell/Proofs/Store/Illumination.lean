import GraphShell.Proofs.Graph.Membership
import GraphShell.Proofs.Store.Answers
import GraphShell.Proofs.Store.BestEdges
import GraphShell.Proofs.Store.Distances

/-! A traversal answers the best edges of the keys that are near enough to the seed, and the values
of the keys that these lead to. How near a key is depends on the kept edges alone, so what a limit
drops is no way to it.
-/

namespace GraphShell

namespace Graph

variable {graph neighbourhood : Graph} {seed key : String} {step k : Int} {tfidf : Bool}

-----------------------------------------------------------------------------------------
-- Tails without edges
-----------------------------------------------------------------------------------------

/-- Every tail that is present has an edge. -/
def NoBareTail (graph : Graph) : Prop :=
  ∀ tail, graph.heads.contains tail = true → ∃ head weight, graph.weight? tail head = some weight

theorem noBareTail_iff : graph.NoBareTail ↔ ∀ tail, ¬ graph.BareTail tail := by
  constructor
  · intro noBare tail bare
    obtain ⟨head, weight, stored⟩ := noBare tail (KeyMap.contains_iff.mpr ⟨_, bare⟩)
    rw [bare.weight?_eq_none head] at stored
    cases stored
  · intro noBare tail present
    obtain ⟨heads, found⟩ := KeyMap.contains_iff.mp present
    exact (exists_edge_of_heads found).resolve_right (noBare tail)

theorem NoBareTail.insertEdge (noBare : graph.NoBareTail) (tail head : String) (weight : Weight)
    : (graph.insertEdge tail head weight).NoBareTail :=
  noBareTail_iff.mpr (not_bareTail_insertEdge (noBareTail_iff.mp noBare) tail head weight)

theorem NoBareTail.carryVertex (noBare : graph.NoBareTail) (source : Graph) (key : String)
    : (graph.carryVertex source key).NoBareTail := by
  unfold Graph.carryVertex
  cases source.vertices.get? key with
  | none => exact noBare
  | some value => exact noBare

/-- A neighbourhood has no tail without an edge, since it is built edge by edge. -/
theorem noBareTail_of_illuminate
    (answered : graph.illuminate? seed step k tfidf = some neighbourhood)
    : neighbourhood.NoBareTail := by
  rw [(illuminate?_eq_some answered).2]
  refine List.foldlRecOn (motive := NoBareTail) _ _ ?_ ?_
  · refine List.foldlRecOn (motive := NoBareTail) _ _ (noBareTail_iff.mpr not_bareTail_empty) ?_
    intro result noBare key _
    exact noBare.carryVertex graph key
  · intro result noBare tail _
    refine List.foldlRecOn (motive := NoBareTail) _ _ noBare ?_
    intro result noBare entry _
    exact noBare.insertEdge tail entry.1 entry.2

/-- Without bare tails, what is contained is what is listed. -/
theorem NoBareTail.contains_iff (noBare : graph.NoBareTail)
    : graph.contains key = true ↔ key ∈ graph.keys := by
  rw [Graph.contains_iff, or_iff_left (noBareTail_iff.mp noBare key)]

-----------------------------------------------------------------------------------------
-- Keys within a number of steps
-----------------------------------------------------------------------------------------

/-- An edge that the limit keeps leads from the first key to the second. -/
def KeptStep (graph : Graph) (k : Int) (tfidf : Bool) (tail head : String) : Prop :=
  ∃ weight, graph.Keeps k tfidf ⟨tail, head, weight⟩

theorem mem_map_limitedHeads_iff (graph : Graph) (k : Int) (tfidf : Bool) (tail head : String)
    : head ∈ (graph.limitedHeads k tfidf tail).map Prod.fst ↔ graph.KeptStep k tfidf tail head := by
  rw [List.mem_map]
  constructor
  · intro listed
    obtain ⟨⟨_, score⟩, best, rfl⟩ := listed
    obtain ⟨weight, kept, _⟩ := mem_limitedHeads.mp best
    exact ⟨weight, kept⟩
  · intro step
    obtain ⟨weight, kept⟩ := step
    exact ⟨_, mem_limitedHeads.mpr ⟨weight, kept, rfl⟩, rfl⟩

/-- Kept steps lead from a key of the graph to keys of the graph. -/
theorem Hops.mem_keys (present : seed ∈ graph.keys) {count : Nat}
    (hops : Hops (graph.KeptStep k tfidf) seed count key)
    : key ∈ graph.keys := by
  cases hops with
  | start => exact present
  | next _ edge =>
      obtain ⟨weight, stored, _⟩ := edge
      exact (ends_mem_keys (mem_edges.mp stored)).2

/-- The seed is that many kept steps away from the key, and the number suits. -/
def At (graph : Graph) (k : Int) (tfidf : Bool) (seed key : String) (suits : Nat → Prop) : Prop :=
  ∃ distance, Distance (graph.KeptStep k tfidf) seed key distance ∧ suits distance

/-- The expanded keys are those nearer than the number of steps. The bound by the number of keys
drops none, as no key is that far away.
-/
theorem mem_expandedKeys_iff (present : seed ∈ graph.keys)
    : key ∈ graph.expandedKeys seed step k tfidf
      ↔ graph.At k tfidf seed key fun distance => (distance : Int) < max step 0 := by
  rw [expandedKeys, seedLayers,
    mem_take_layers_seed_iff (graph.mem_map_limitedHeads_iff k tfidf) (Nat.le_succ _)]
  refine exists_congr fun distance => ?_
  rw [and_comm, and_congr_right_iff]
  intro least
  have short := least.lt_length fun _ _ hops => hops.mem_keys present
  rw [depthOf]
  omega

/-- The keys in the layers are those no farther than the number of steps. -/
theorem mem_seedLayers_iff (present : seed ∈ graph.keys)
    : key ∈ (graph.seedLayers seed step k tfidf).flatten
      ↔ graph.At k tfidf seed key fun distance => (distance : Int) ≤ max step 0 := by
  have all : (graph.seedLayers seed step k tfidf).take (graph.depthOf step + 1)
      = graph.seedLayers seed step k tfidf := by
    apply List.take_of_length_le
    rw [seedLayers, length_layers]
  rw [← all, seedLayers,
    mem_take_layers_seed_iff (graph.mem_map_limitedHeads_iff k tfidf) (Nat.le_refl _)]
  refine exists_congr fun distance => ?_
  rw [and_comm, and_congr_right_iff]
  intro least
  have short := least.lt_length fun _ _ hops => hops.mem_keys present
  rw [depthOf]
  omega

-----------------------------------------------------------------------------------------
-- The neighbourhood
-----------------------------------------------------------------------------------------

/-- The result has the edges that the limit keeps out of the keys nearer than the number of steps,
with their scores for weights, the values of the keys no farther than it, and nothing else. A
negative number of steps is none.
-/
def IsNeighbourhood (graph : Graph) (seed : String) (step k : Int) (tfidf : Bool)
    (result : Graph)
    : Prop :=
  result.MadeOf
    (fun key value =>
      graph.vertices.get? key = some value
      ∧ graph.At k tfidf seed key fun distance => (distance : Int) ≤ max step 0)
    (fun tail head score =>
      (∃ weight,
        graph.Keeps k tfidf ⟨tail, head, weight⟩
        ∧ score = graph.score tfidf ⟨tail, head, weight⟩)
      ∧ graph.At k tfidf seed tail fun distance => (distance : Int) < max step 0)

theorem isNeighbourhood_of_illuminate (present : seed ∈ graph.keys)
    (answered : graph.illuminate? seed step k tfidf = some neighbourhood)
    : graph.IsNeighbourhood seed step k tfidf neighbourhood := by
  have weights (tail head : String) (score : Weight)
      : neighbourhood.weight? tail head = some score
        ↔ (∃ weight,
            graph.Keeps k tfidf ⟨tail, head, weight⟩
            ∧ score = graph.score tfidf ⟨tail, head, weight⟩)
          ∧ graph.At k tfidf seed tail fun distance => (distance : Int) < max step 0 := by
    rw [weight?_illuminate answered, mem_expandedKeys_iff present, mem_limitedHeads, and_comm]
  refine ⟨?_, weights, ?_⟩
  · intro key value
    rw [get?_vertices_illuminate answered, ← mem_seedLayers_iff present]
    split <;> simp_all
  · intro tail bare
    obtain ⟨head, score, stored⟩ := noBareTail_of_illuminate answered tail bare
    exact ⟨head, score, (weights tail head score).mp stored⟩

end Graph

/-- A store answers a traversal from what is live at the reading. If the seed is neither a live
value's key nor an end of a live edge it is not found, and otherwise the answer is the seed's
neighbourhood in the graph of all that is live, ranked and weighed by the scores that
`Graph.score_false` and `Graph.score_true` spell out. Nothing is written.
-/
theorem illuminate_neighbourhood (memory : Memory) (now : Instant) (seed : String)
    (step k : Int64) (tfidf : Bool)
    : ∃ live : Graph,
        live.MadeOf (fun key value => memory.vertex? now key = some value)
          (fun tail head weight => memory.edge? now tail head = some weight)
        ∧ if seed ∈ live.keys then
            ∃ result,
              (Memory.store now).answer (.illuminate seed step k tfidf) memory
                = (.ok result, memory)
              ∧ live.IsNeighbourhood seed step.toInt k.toInt tfidf result
          else
            (Memory.store now).answer (.illuminate seed step k tfidf) memory
              = (.error (.notFound seed), memory) := by
  have made := memory.madeOf_liveGraph now
  have noBare : (memory.liveGraph now).NoBareTail := by
    intro tail bare
    obtain ⟨head, weight, found⟩ := made.tails tail bare
    exact ⟨head, weight, (made.weights tail head weight).mpr found⟩
  refine ⟨memory.liveGraph now, made, ?_⟩
  cases answered : (memory.liveGraph now).illuminate? seed step.toInt k.toInt tfidf with
  | none =>
      have absent : seed ∉ (memory.liveGraph now).keys := by
        rw [← noBare.contains_iff]
        intro contained
        simp [Graph.illuminate?, contained] at answered
      rw [if_neg absent]
      simp only [Memory.store, answered, Option.elim_none]
  | some result =>
      have present := noBare.contains_iff.mp (Graph.illuminate?_eq_some answered).1
      rw [if_pos present]
      refine ⟨result, ?_, Graph.isNeighbourhood_of_illuminate present answered⟩
      simp only [Memory.store, answered, Option.elim_some]

end GraphShell
