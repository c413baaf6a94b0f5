import GraphShell.Graph.Decoding
import GraphShell.Proofs.Graph.Edges

/-! Keys as they are listed and keys that are asked for. Both mean the keys with a value and the
ends of edges, but a tail that no edge leads out of is a key when it is asked for and not in the
list. Insertions leave no such tail behind, and a JSON text may name some.
-/

namespace GraphShell.Graph

variable {graph : Graph} {key : String}

-----------------------------------------------------------------------------------------
-- Tails without edges
-----------------------------------------------------------------------------------------

/-- The key is kept as a tail, and no edge leads out of it. -/
def BareTail (graph : Graph) (key : String) : Prop :=
  graph.heads.get? key = some .empty

/-- A key that is kept as a tail has an edge, unless it is bare. -/
theorem exists_edge_of_heads {heads : KeyMap Weight} (found : graph.heads.get? key = some heads)
    : (∃ head weight, graph.weight? key head = some weight) ∨ graph.BareTail key := by
  obtain ⟨entries, sorted⟩ := heads
  cases entries with
  | nil => exact .inr found
  | cons entry rest =>
      have first : KeyMap.get? ⟨entry :: rest, sorted⟩ entry.1 = some entry.2 :=
        KeyMap.get?_eq_some_iff.mpr List.mem_cons_self
      exact .inl ⟨entry.1, entry.2, Option.bind_eq_some_iff.mpr ⟨_, found, first⟩⟩

theorem BareTail.weight?_eq_none (bare : graph.BareTail key) (head : String)
    : graph.weight? key head = none := by
  unfold BareTail at bare
  simp [weight?, bare]

/-- What is contained is listed or a bare tail, and nothing else is contained. -/
theorem contains_iff : graph.contains key = true ↔ key ∈ graph.keys ∨ graph.BareTail key := by
  constructor
  · intro contained
    simp only [contains, Bool.or_eq_true, List.any_eq_true, KeyMap.contains_iff,
      KeyMap.mem_values_iff] at contained
    rcases contained with (valued | ⟨heads, found⟩) | ⟨heads, ⟨tail, found⟩, weight, leads⟩
    · exact .inl (mem_keys.mpr (.inl valued))
    · refine (exists_edge_of_heads found).imp_left ?_
      rintro ⟨head, weight, stored⟩
      exact (ends_mem_keys stored).1
    · exact .inl (ends_mem_keys (Option.bind_eq_some_iff.mpr ⟨heads, found, leads⟩)).2
  · rintro (listed | bare)
    · exact contains_of_mem_keys listed
    · simp only [contains, Bool.or_eq_true, KeyMap.contains_iff]
      exact .inl (.inr ⟨.empty, bare⟩)

-----------------------------------------------------------------------------------------
-- Graphs built by insertions
-----------------------------------------------------------------------------------------

/-- One step by which a graph is built. -/
inductive Insertion
  | vertex (key : String) (value : Scalar)
  | edge (tail head : String) (weight : Weight)

/-- The graph with an insertion made. -/
def Insertion.into (graph : Graph) : Insertion → Graph
  | vertex key value => graph.insertVertex key value
  | edge tail head weight => graph.insertEdge tail head weight

/-- The graph that insertions make of the empty one, in order. -/
def built (insertions : List Insertion) : Graph :=
  insertions.foldl Insertion.into empty

theorem not_bareTail_empty (key : String) : ¬ empty.BareTail key := nofun

/-- The tail of a new edge has its head, and the others are left alone. -/
theorem not_bareTail_insertEdge (sound : ∀ key, ¬ graph.BareTail key) (tail head : String)
    (weight : Weight) (key : String)
    : ¬ (graph.insertEdge tail head weight).BareTail key := by
  intro bare
  by_cases same : key = tail
  · subst same
    have absent := bare.weight?_eq_none head
    simp at absent
  · refine sound key ?_
    simpa [BareTail, insertEdge, same] using bare

theorem Insertion.not_bareTail_into (insertion : Insertion) (sound : ∀ key, ¬ graph.BareTail key)
    : ∀ key, ¬ (insertion.into graph).BareTail key := by
  cases insertion with
  | vertex _ _ => exact sound
  | edge tail head weight => exact not_bareTail_insertEdge sound tail head weight

/-- No run of insertions leaves a tail without edges, by induction on the insertions. -/
theorem not_bareTail_built (insertions : List Insertion)
    : ∀ key, ¬ (built insertions).BareTail key := by
  refine List.foldlRecOn (motive := fun graph => ∀ key, ¬ BareTail graph key) _ _
    not_bareTail_empty ?_
  exact fun graph sound insertion _ => insertion.not_bareTail_into sound

-----------------------------------------------------------------------------------------
-- Membership
-----------------------------------------------------------------------------------------

/-- The listed keys are those with a value and the ends of listed edges. A key is contained if it
is listed or a bare tail, so both agree in every graph that insertions have built.
-/
theorem contains_agrees_with_keys (graph : Graph) (key : String)
    : (key ∈ graph.keys
        ↔ (∃ value, graph.vertices.get? key = some value)
          ∨ ∃ edge ∈ graph.edges, key = edge.tail ∨ key = edge.head)
      ∧ (graph.contains key = true ↔ key ∈ graph.keys ∨ graph.BareTail key)
      ∧ ∀ insertions,
          (built insertions).contains key = true ↔ key ∈ (built insertions).keys := by
  refine ⟨mem_keys, contains_iff, ?_⟩
  intro insertions
  rw [contains_iff, or_iff_left (not_bareTail_built insertions key)]

/-- A text may give a tail no heads at all; the graph read from it contains a key that it does not
list.
-/
theorem contains_beyond_keys_of_bare_tail
    : ∃ graph,
        ofJson "\x7b\"edges\":\x7b\"a\":\x7b\x7d\x7d\x7d" = .ok graph
        ∧ graph.contains "a" = true
        ∧ "a" ∉ graph.keys :=
  ⟨⟨.empty, KeyMap.empty.insert "a" .empty⟩, by decide +kernel, by decide +kernel,
    by decide +kernel⟩

end GraphShell.Graph
