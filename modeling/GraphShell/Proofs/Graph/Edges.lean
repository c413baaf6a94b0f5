import GraphShell.Graph.Basic
import GraphShell.Proofs.Lookup
import Mathlib.Data.List.Nodup
import Mathlib.Logic.Relation

/-! Graphs through the weights of their edges and the values of their keys. The listed edges
and keys are those that the look-ups answer, and none is listed twice.
-/

namespace GraphShell.Graph

-----------------------------------------------------------------------------------------
-- Edges
-----------------------------------------------------------------------------------------

@[simp]
theorem weight?_empty (tail head : String) : empty.weight? tail head = none := rfl

/-- Setting a weight changes that edge and no other. -/
@[simp]
theorem weight?_insertEdge (graph : Graph) (tail head : String) (weight : Weight)
    (otherTail otherHead : String)
    : (graph.insertEdge tail head weight).weight? otherTail otherHead
      = if otherTail = tail ∧ otherHead = head then some weight
        else graph.weight? otherTail otherHead := by
  simp only [weight?, insertEdge, KeyMap.get?_insert]
  by_cases ht : otherTail = tail
  · subst ht
    cases hf : graph.heads.get? otherTail <;> simp
  · simp [ht]

@[simp]
theorem weight?_insertVertex (graph : Graph) (key : String) (value : Scalar)
    (tail head : String)
    : (graph.insertVertex key value).weight? tail head = graph.weight? tail head := rfl

theorem mem_neighbors {graph : Graph} {tail head : String} {weight : Weight}
    : (head, weight) ∈ graph.neighbors tail ↔ graph.weight? tail head = some weight := by
  cases hf : graph.heads.get? tail with
  | none => simp [neighbors, weight?, hf]
  | some heads =>
      simp only [neighbors, weight?, hf, Option.elim_some, Option.bind_eq_bind,
        Option.bind_some, KeyMap.get?_eq_some_iff]

theorem mem_edges {graph : Graph} {edge : Edge}
    : edge ∈ graph.edges ↔ graph.weight? edge.tail edge.head = some edge.weight := by
  simp only [edges, List.mem_flatMap, List.mem_map, weight?, Option.bind_eq_bind,
    Option.bind_eq_some_iff, KeyMap.get?_eq_some_iff]
  constructor
  · rintro ⟨⟨tail, heads⟩, ht, ⟨head, weight⟩, hh, rfl⟩
    exact ⟨heads, ht, hh⟩
  · rintro ⟨heads, ht, hh⟩
    exact ⟨(edge.tail, heads), ht, (edge.head, edge.weight), hh, rfl⟩

/-- Listed edges between the same keys are the same edge, since a look-up has one answer. -/
theorem edge_unique {graph : Graph} {left right : Edge} (hl : left ∈ graph.edges)
    (hr : right ∈ graph.edges) (tails : left.tail = right.tail)
    (heads : left.head = right.head)
    : left = right := by
  obtain ⟨tail, head, weight⟩ := left
  obtain ⟨_, _, other⟩ := right
  obtain rfl := tails
  obtain rfl := heads
  have same : some weight = some other := (mem_edges.mp hl).symm.trans (mem_edges.mp hr)
  rw [Option.some.inj same]

/-- No edge is listed twice: the tails are distinct, and so are the heads of each tail. -/
theorem nodup_edges (graph : Graph) : graph.edges.Nodup := by
  refine List.nodup_flatMap.mpr ⟨?_, ?_⟩
  · rintro ⟨tail, heads⟩ _
    refine heads.nodup_keys.of_map.map ?_
    intro left right same
    simp only [Edge.mk.injEq, true_and] at same
    exact Prod.ext same.1 same.2
  · refine graph.heads.sorted.imp ?_
    rintro ⟨tail, heads⟩ ⟨other, otherHeads⟩ less edge first second
    obtain ⟨_, _, rfl⟩ := List.mem_map.mp first
    obtain ⟨_, _, same⟩ := List.mem_map.mp second
    simp only [Edge.mk.injEq] at same
    exact String.ne_of_lt less same.1.symm

-----------------------------------------------------------------------------------------
-- Keys
-----------------------------------------------------------------------------------------

/-- A key belongs to the graph exactly if it has a value or is an end of an edge. -/
theorem mem_keys {graph : Graph} {key : String}
    : key ∈ graph.keys
      ↔ (∃ value, graph.vertices.get? key = some value)
        ∨ ∃ edge ∈ graph.edges, key = edge.tail ∨ key = edge.head := by
  rw [keys, keySet, KeyMap.mem_keys_ofList, List.map_map]
  simp [Function.comp_def, KeyMap.mem_keys_iff]

theorem nodup_keys (graph : Graph) : graph.keys.Nodup :=
  graph.keySet.nodup_keys

theorem ends_mem_keys {graph : Graph} {tail head : String} {weight : Weight}
    (found : graph.weight? tail head = some weight)
    : tail ∈ graph.keys ∧ head ∈ graph.keys := by
  have member : (⟨tail, head, weight⟩ : Edge) ∈ graph.edges := mem_edges.mpr found
  exact ⟨mem_keys.mpr (.inr ⟨_, member, .inl rfl⟩), mem_keys.mpr (.inr ⟨_, member, .inr rfl⟩)⟩

/-- Every listed key is contained. The converse fails for a tail without heads, which is
contained and is no key.
-/
theorem contains_of_mem_keys {graph : Graph} {key : String} (member : key ∈ graph.keys)
    : graph.contains key = true := by
  simp only [contains, Bool.or_eq_true, List.any_eq_true, KeyMap.contains_iff]
  rcases mem_keys.mp member with found | ⟨edge, he, rfl | rfl⟩
  · exact .inl (.inl found)
  · obtain ⟨heads, ht, _⟩ := Option.bind_eq_some_iff.mp (mem_edges.mp he)
    exact .inl (.inr ⟨heads, ht⟩)
  · obtain ⟨heads, ht, hh⟩ := Option.bind_eq_some_iff.mp (mem_edges.mp he)
    exact .inr
      ⟨heads, List.mem_map.mpr ⟨_, KeyMap.get?_eq_some_iff.mp ht, rfl⟩, edge.weight, hh⟩

-----------------------------------------------------------------------------------------
-- Values carried over from another graph
-----------------------------------------------------------------------------------------

@[simp]
theorem weight?_carryVertex (graph source : Graph) (key tail head : String)
    : (graph.carryVertex source key).weight? tail head = graph.weight? tail head := by
  cases hf : source.vertices.get? key <;> simp [carryVertex, hf]

/-- Carrying a key over gives it the value of the source, if it has one there. -/
@[simp]
theorem get?_vertices_carryVertex (graph source : Graph) (key other : String)
    : (graph.carryVertex source key).vertices.get? other
      = if other = key then (source.vertices.get? key).or (graph.vertices.get? key)
        else graph.vertices.get? other := by
  cases hf : source.vertices.get? key <;> by_cases ho : other = key <;>
    simp [carryVertex, insertVertex, hf, ho]

@[simp]
theorem vertices_insertEdge (graph : Graph) (tail head : String) (weight : Weight)
    : (graph.insertEdge tail head weight).vertices = graph.vertices := rfl

/-- A fold whose steps leave a look-up alone leaves it alone, by induction on the items. -/
theorem lookup_foldl_of_keeps {γ α β : Type} (lookup : γ → β) {step : γ → α → γ}
    (keeps : ∀ state item, lookup (step state item) = lookup state) (items : List α) (state : γ)
    : lookup (items.foldl step state) = lookup state := by
  induction items generalizing state with
  | nil => rfl
  | cons first rest ih => rw [List.foldl_cons, ih, keeps]

@[simp]
theorem weight?_foldl_carryVertex (source : Graph) (keys : List String) (graph : Graph)
    (tail head : String)
    : (keys.foldl (fun tree key => tree.carryVertex source key) graph).weight? tail head
      = graph.weight? tail head :=
  lookup_foldl_of_keeps (fun tree : Graph => tree.weight? tail head)
    (fun tree key => weight?_carryVertex tree source key tail head) keys graph

/-- A fold whose steps either leave a look-up alone or set it to one and the same answer sets
it if one of the steps does, by induction on the items.
-/
theorem lookup_foldl {γ α β : Type} (lookup : γ → Option β) {step : γ → α → γ}
    (sets : α → Prop) [DecidablePred sets] (answer : Option β) (items : List α)
    (each
      : ∀ item ∈ items,
          ∀ state,
            lookup (step state item)
              = if sets item then answer.or (lookup state) else lookup state)
    (state : γ)
    : lookup (items.foldl step state)
      = if ∃ item ∈ items, sets item then answer.or (lookup state) else lookup state := by
  induction items generalizing state with
  | nil => simp
  | cons first rest ih =>
      rw [List.foldl_cons, ih (fun item member => each item (List.mem_cons_of_mem _ member)),
        each first List.mem_cons_self]
      by_cases hf : sets first <;> by_cases hr : ∃ item ∈ rest, sets item <;>
        simp [hf, hr, ← Option.or_assoc]

/-- Of a graph without values, carrying keys over gives exactly those keys their values. -/
theorem get?_vertices_foldl_carryVertex (source : Graph) (keys : List String) (key : String)
    : (keys.foldl (fun tree key => tree.carryVertex source key) empty).vertices.get? key
      = if key ∈ keys then source.vertices.get? key else none := by
  rw [lookup_foldl (fun tree : Graph => tree.vertices.get? key) (fun other => key = other)
    (source.vertices.get? key)]
  · simp [empty]
  · intro other _ tree
    by_cases ho : key = other <;> simp [ho]

-----------------------------------------------------------------------------------------
-- Reachability
-----------------------------------------------------------------------------------------

/-- An edge leads from the first key to the second. -/
def Adjacent (graph : Graph) (tail head : String) : Prop :=
  ∃ weight, graph.weight? tail head = some weight

/-- Edges lead from the first key to the second in any number of steps, none included. -/
def Reaches (graph : Graph) : String → String → Prop :=
  Relation.ReflTransGen graph.Adjacent

/-- Every key of the graph is reached from the seed. -/
def Rooted (graph : Graph) (seed : String) : Prop :=
  ∀ key ∈ graph.keys, graph.Reaches seed key

end GraphShell.Graph
