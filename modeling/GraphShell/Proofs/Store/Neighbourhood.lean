import GraphShell.Proofs.Graph.Edges
import GraphShell.Store.Snapshot

/-! The neighbourhood of a seed holds together: whatever number of steps and heads bounds it,
its own edges lead from the seed to every key in it.
-/

namespace GraphShell.Graph

-----------------------------------------------------------------------------------------
-- Layers
-----------------------------------------------------------------------------------------

/-- A step to a head of a key that is expanded, which the last layer is not. -/
def StepWithin (next : String → List String) (expanded : List String) (key head : String)
    : Prop :=
  key ∈ expanded ∧ head ∈ next key

/-- Every key in a layer is reached from the frontier through keys of earlier layers, by
induction on the depth.
-/
theorem walk_of_mem_layers (next : String → List String) {depth : Nat}
    {seen frontier : List String} {key : String}
    (member : key ∈ (layers next depth seen frontier).flatten)
    : ∃ start ∈ frontier,
        Relation.ReflTransGen
          (StepWithin next ((layers next depth seen frontier).take depth).flatten)
          start key := by
  induction depth generalizing seen frontier with
  | zero => exact ⟨key, by simpa [layers] using member, .refl⟩
  | succ depth ih =>
      simp only [layers, List.flatten_cons, List.mem_append, List.take_succ_cons] at member ⊢
      rcases member with here | later
      · exact ⟨key, here, .refl⟩
      · obtain ⟨start, fresh, walk⟩ := ih later
        obtain ⟨source, inFrontier, stepped⟩ : ∃ source ∈ frontier, start ∈ next source := by
          simpa using (List.mem_filter.mp (List.mem_eraseDups.mp fresh)).1
        refine ⟨source, inFrontier, .head ⟨List.mem_append_left _ inFrontier, stepped⟩ ?_⟩
        refine Relation.ReflTransGen.mono ?_ _ _ walk
        exact fun _ _ step => ⟨List.mem_append_right _ step.1, step.2⟩

-----------------------------------------------------------------------------------------
-- Edges and values of the neighbourhood
-----------------------------------------------------------------------------------------

/-- A best head is the head of an edge, with the edge's score. -/
theorem score_of_mem_bestHeads {graph : Graph} {tfidf : Bool} {limit : Option Nat}
    {tail head : String} {score : Weight}
    (member : (head, score) ∈ graph.bestHeads tfidf limit tail)
    : ∃ weight,
        graph.weight? tail head = some weight ∧ score = graph.score tfidf ⟨tail, head, weight⟩ := by
  have ranked
      : (head, score)
        ∈ ((graph.neighbors tail).map fun entry =>
            (entry.1, graph.score tfidf ⟨tail, entry.1, entry.2⟩)).mergeSort better := by
    cases limit with
    | none => exact member
    | some limit => exact List.mem_of_mem_take member
  obtain ⟨⟨_, weight⟩, neighbor, same⟩ := List.mem_map.mp (List.mem_mergeSort.mp ranked)
  obtain ⟨rfl, rfl⟩ := Prod.mk.inj same
  exact ⟨weight, mem_neighbors.mp neighbor, rfl⟩

/-- The best heads of a key under a limit, where zero and less are no limit. -/
def limitedHeads (graph : Graph) (k : Int) (tfidf : Bool) : String → List (String × Weight) :=
  graph.bestHeads tfidf (if k ≤ 0 then none else some k.toNat)

/-- The number of steps that a neighbourhood goes deep. -/
def depthOf (graph : Graph) (step : Int) : Nat :=
  min step.toNat graph.keys.length

/-- The layers of a seed's neighbourhood. -/
def seedLayers (graph : Graph) (seed : String) (step k : Int) (tfidf : Bool)
    : List (List String) :=
  layers (fun key => (graph.limitedHeads k tfidf key).map Prod.fst) (graph.depthOf step)
    [seed] [seed]

/-- The keys of a neighbourhood whose edges it holds: those of all layers but the last. -/
def expandedKeys (graph : Graph) (seed : String) (step k : Int) (tfidf : Bool) : List String :=
  ((graph.seedLayers seed step k tfidf).take (graph.depthOf step)).flatten

variable {graph neighbourhood : Graph} {seed : String} {step k : Int} {tfidf : Bool}

/-- A neighbourhood is there for the seeds in the graph, and it is built from the values in
all layers and the best heads of the expanded keys.
-/
theorem illuminate?_eq_some
    (answered : graph.illuminate? seed step k tfidf = some neighbourhood)
    : graph.contains seed = true
      ∧ neighbourhood
        = (graph.expandedKeys seed step k tfidf).foldl
            (fun result tail =>
              (graph.limitedHeads k tfidf tail).foldl
                (fun result (head, score) => result.insertEdge tail head score) result)
            ((graph.seedLayers seed step k tfidf).flatten.foldl
              (fun result key => result.carryVertex graph key) empty) := by
  unfold illuminate? at answered
  split at answered
  · cases answered
  · next contained =>
      exact ⟨by simpa using contained, (Option.some.inj answered).symm⟩

/-- The neighbourhood has an edge exactly if its tail is expanded and its head is among the
best ones, and its weight is the score.
-/
theorem weight?_illuminate (answered : graph.illuminate? seed step k tfidf = some neighbourhood)
    {tail head : String} {score : Weight}
    : neighbourhood.weight? tail head = some score
      ↔ tail ∈ graph.expandedKeys seed step k tfidf
        ∧ (head, score) ∈ graph.limitedHeads k tfidf tail := by
  -- every insertion at an edge writes the edge's score
  let answer := (graph.weight? tail head).map fun weight =>
    graph.score tfidf ⟨tail, head, weight⟩
  have answer_eq {score : Weight} (member : (head, score) ∈ graph.limitedHeads k tfidf tail)
      : answer = some score := by
    obtain ⟨weight, found, rfl⟩ := score_of_mem_bestHeads member
    simp [answer, found]
  have inner (source : String) (result : Graph)
      : ((graph.limitedHeads k tfidf source).foldl
            (fun result (head, score) => result.insertEdge source head score) result).weight?
            tail head
        = if source = tail ∧ ∃ entry ∈ graph.limitedHeads k tfidf tail, entry.1 = head then
            answer.or (result.weight? tail head)
          else result.weight? tail head := by
    rw [lookup_foldl (fun result : Graph => result.weight? tail head)
      (fun entry : String × Weight => source = tail ∧ entry.1 = head) answer]
    · by_cases hs : source = tail
      · subst hs
        simp only [true_and]
      · simp [hs]
    · rintro ⟨first, score⟩ member state
      by_cases same : source = tail ∧ first = head
      · obtain ⟨rfl, rfl⟩ := same
        simp [answer_eq member]
      · have other : ¬ (tail = source ∧ head = first) := fun h => same ⟨h.1.symm, h.2.symm⟩
        simp [same, other]
  rw [(illuminate?_eq_some answered).2,
    lookup_foldl (fun result : Graph => result.weight? tail head)
      (fun source => source = tail ∧ ∃ entry ∈ graph.limitedHeads k tfidf tail, entry.1 = head)
      answer _ (fun source _ result => inner source result)]
  constructor
  · intro found
    split at found
    · next set =>
        obtain ⟨_, expanded, rfl, ⟨_, other⟩, member, rfl⟩ := set
        rw [answer_eq member] at found
        obtain rfl := Option.some.inj found
        exact ⟨expanded, member⟩
    · simp at found
  · rintro ⟨expanded, member⟩
    rw [if_pos ⟨tail, expanded, rfl, (head, score), member, rfl⟩, answer_eq member]
    rfl

/-- The neighbourhood gives a key the value that it has in the graph if the key is in a
layer, and no value otherwise.
-/
theorem get?_vertices_illuminate
    (answered : graph.illuminate? seed step k tfidf = some neighbourhood) (key : String)
    : neighbourhood.vertices.get? key
      = if key ∈ (graph.seedLayers seed step k tfidf).flatten then graph.vertices.get? key
        else none := by
  have keeps (result : Graph) (tail : String)
      : ((graph.limitedHeads k tfidf tail).foldl
            (fun result (head, score) => result.insertEdge tail head score) result).vertices
        = result.vertices :=
    lookup_foldl_of_keeps Graph.vertices
      (fun result (entry : String × Weight) =>
        vertices_insertEdge result tail entry.1 entry.2) _ result
  rw [(illuminate?_eq_some answered).2, lookup_foldl_of_keeps Graph.vertices keeps,
    get?_vertices_foldl_carryVertex]

/-- The neighbourhood's own edges lead from the seed to each of its keys: the walk that found
a key went through expanded keys, and the neighbourhood holds their best edges.
-/
theorem rooted_of_illuminate (answered : graph.illuminate? seed step k tfidf = some neighbourhood)
    : neighbourhood.Rooted seed := by
  have inLayers (key : String) (member : key ∈ (graph.seedLayers seed step k tfidf).flatten)
      : neighbourhood.Reaches seed key := by
    obtain ⟨start, atSeed, walk⟩ := walk_of_mem_layers _ member
    obtain rfl := List.mem_singleton.mp atSeed
    refine Relation.ReflTransGen.mono ?_ _ _ walk
    rintro tail head ⟨expanded, best⟩
    obtain ⟨⟨_, score⟩, heads, rfl⟩ := List.mem_map.mp best
    exact ⟨score, (weight?_illuminate answered).mpr ⟨expanded, heads⟩⟩
  have expandedReached (tail : String) (member : tail ∈ graph.expandedKeys seed step k tfidf)
      : neighbourhood.Reaches seed tail := by
    refine inLayers tail ?_
    obtain ⟨layer, taken, inside⟩ := List.mem_flatten.mp member
    exact List.mem_flatten.mpr ⟨layer, List.mem_of_mem_take taken, inside⟩
  intro key member
  rcases mem_keys.mp member with ⟨value, found⟩ | ⟨edge, stored, ends⟩
  · rw [get?_vertices_illuminate answered] at found
    split at found
    · next present => exact inLayers key present
    · cases found
  · have edgeFound := mem_edges.mp stored
    have tailReached := expandedReached _ ((weight?_illuminate answered).mp edgeFound).1
    rcases ends with rfl | rfl
    · exact tailReached
    · exact tailReached.tail ⟨edge.weight, edgeFound⟩

end GraphShell.Graph
