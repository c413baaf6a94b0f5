import GraphShell.Proofs.Store.Expiry

/-! Whatever calls were made on a volatile store, and whenever, the reply to the next one is
what the last writes ask for. The calls that only read have no part in it.
-/

namespace GraphShell

variable {now later : Instant}

-----------------------------------------------------------------------------------------
-- The graph of what is live
-----------------------------------------------------------------------------------------

theorem KeyMap.exists_get?_of_not_isEmpty {α : Type} {map : KeyMap α}
    (something : map.isEmpty = false)
    : ∃ key value, map.get? key = some value := by
  obtain ⟨entry, rest, entries⟩ :=
    List.exists_cons_of_ne_nil (List.isEmpty_eq_false_iff.mp something)
  exact ⟨entry.1, entry.2, KeyMap.get?_eq_some_iff.mpr (entries ▸ List.mem_cons_self)⟩

namespace Graph

variable {graph : Graph} {valued : String → Scalar → Prop}
  {weighed : String → String → Weight → Prop}

/-- As many values are listed as there are keys that have one. -/
theorem MadeOf.card_values (made : graph.MadeOf valued weighed)
    : ∃ keys : Finset String,
        (∀ key, key ∈ keys ↔ ∃ value, valued key value) ∧ graph.vertices.size = keys.card := by
  refine ⟨graph.vertices.keys.toFinset, ?_, ?_⟩
  · intro key
    simp only [List.mem_toFinset, KeyMap.mem_keys_iff, made.values]
  · rw [List.toFinset_card_of_nodup (KeyMap.nodup_keys _), KeyMap.keys, List.length_map,
      KeyMap.size]

/-- As many edges are listed as there are pairs that have a weight: no two edges have the same
ends.
-/
theorem MadeOf.card_edges (made : graph.MadeOf valued weighed)
    : ∃ pairs : Finset (String × String),
        (∀ tail head, (tail, head) ∈ pairs ↔ ∃ weight, weighed tail head weight)
        ∧ graph.edgeCount = pairs.card := by
  let ends : List (String × String) := graph.edges.map fun edge => (edge.tail, edge.head)
  have distinct : ends.Nodup := by
    refine graph.nodup_edges.map_on ?_
    intro left hl right hr same
    exact edge_unique hl hr (congrArg Prod.fst same) (congrArg Prod.snd same)
  refine ⟨ends.toFinset, ?_, ?_⟩
  · intro tail head
    simp only [List.mem_toFinset, ← made.weights]
    constructor
    · intro listed
      obtain ⟨edge, member, same⟩ := List.mem_map.mp listed
      obtain ⟨rfl, rfl⟩ := Prod.mk.inj same
      exact ⟨edge.weight, mem_edges.mp member⟩
    · intro present
      obtain ⟨weight, found⟩ := present
      exact List.mem_map.mpr ⟨⟨tail, head, weight⟩, mem_edges.mpr found, rfl⟩
  · rw [List.toFinset_card_of_nodup distinct, List.length_map, edgeCount]

end Graph

namespace Memory

variable (memory : Memory)

/-- What a traversal is made on is the graph of the live values and weights. -/
theorem madeOf_liveGraph (now : Instant)
    : (memory.liveGraph now).MadeOf (fun key value => memory.vertex? now key = some value)
        (fun tail head weight => memory.edge? now tail head = some weight) := by
  have weights (tail head : String)
      : (memory.liveGraph now).weight? tail head = memory.edge? now tail head := by
    have entry : (memory.prune now).keptEdge? tail head
        = (memory.keptEdge? tail head).filter (Entry.isLive now) :=
      memory.keptEdge?_prune tail head
    rw [edge?_eq, Entry.value?, ← entry]
    simp only [Graph.weight?, liveGraph, KeyMap.get?_mapValues, keptEdge?, Option.bind_eq_bind]
    cases (memory.prune now).heads.get? tail <;> simp
  refine ⟨?_, ?_, ?_⟩
  · intro key value
    rw [liveGraph, KeyMap.get?_mapValues, get?_vertices_prune]
    rfl
  · intro tail head weight
    rw [weights]
  · intro tail contained
    obtain ⟨heads, found⟩ := KeyMap.contains_iff.mp contained
    simp only [liveGraph, KeyMap.get?_mapValues, Option.map_eq_some_iff] at found
    obtain ⟨kept, inPruned, rfl⟩ := found
    have stays : kept.isEmpty = false := by
      simp only [prune, KeyMap.get?_filter, Option.filter_eq_some_iff] at inPruned
      simpa using inPruned.2
    obtain ⟨head, entry, present⟩ := KeyMap.exists_get?_of_not_isEmpty stays
    refine ⟨head, entry.value, ?_⟩
    rw [← weights]
    simp [Graph.weight?, liveGraph, inPruned, present]

theorem vertexCount_eq (now : Instant)
    : memory.vertexCount now = (memory.liveGraph now).vertices.size := by
  simp [vertexCount, liveGraph, prune, KeyMap.values, KeyMap.size, KeyMap.mapValues,
    KeyMap.filter, List.filter_map, Function.comp_def]

/-- Counting the live entries of all tails counts the edges of the graph, by induction on the
tails; a tail that pruning drops has no live entry.
-/
theorem edgeCount_eq (now : Instant)
    : memory.edgeCount now = (memory.liveGraph now).edgeCount := by
  have live (heads : KeyMap (Entry Weight))
      : (heads.values.filter (Entry.isLive now)).length
        = (heads.entries.filter fun entry => entry.2.isLive now).length := by
    simp [KeyMap.values, List.filter_map, Function.comp_def]
  simp only [edgeCount, Graph.edgeCount, Graph.edges, liveGraph, prune, KeyMap.mapValues,
    KeyMap.filter, KeyMap.isEmpty]
  rw [KeyMap.values]
  induction memory.heads.entries with
  | nil => rfl
  | cons first rest ih =>
      rw [List.map_cons, List.flatMap_cons, List.filter_append, List.length_append, live, ih]
      cases nothing : (first.2.entries.filter fun entry => entry.2.isLive now).isEmpty with
      | true =>
          have noEntries := List.isEmpty_iff.mp nothing
          simp [noEntries]
      | false => simp [nothing]

-----------------------------------------------------------------------------------------
-- Runs of calls
-----------------------------------------------------------------------------------------

/-- The reply to a call at a clock reading, and the store behind it. -/
def call (now : Instant) : (call : Call) → Memory → call.Reply × Memory
  | .request request, memory => (store now).answer request memory
  | .countVertices, memory => (memory.vertexCount now, memory)
  | .countEdges, memory => (memory.edgeCount now, memory)

/-- A new store after calls have been made on it one after the other. -/
def after (calls : Calls) : Memory :=
  calls.foldl (fun memory timed => (memory.call timed.now timed.call).2) .empty

theorem after_append_singleton (calls : Calls) (timed : TimedCall)
    : after (calls ++ [timed]) = ((after calls).call timed.now timed.call).2 := by
  rw [after, List.foldl_append]
  rfl

/-- A call that only reads leaves the store as it was. -/
theorem call_of_not_writes {timed : TimedCall} (reads : timed.writes = false)
    : (memory.call timed.now timed.call).2 = memory := by
  obtain ⟨now, call⟩ := timed
  cases call with
  | countVertices => rfl
  | countEdges => rfl
  | request asked =>
      cases asked with
      | putVertex | addEdge => cases reads
      | getVertex | getEdge | illuminate => rfl

/-- After a call, a later reading sees the value that the call put, or what it saw before. -/
theorem vertex?_call (timed : TimedCall) (order : timed.now.nanoseconds ≤ later.nanoseconds)
    (key : String)
    : (memory.call timed.now timed.call).2.vertex? later key
      = (timed.put? key).elim (memory.vertex? later key) fun write =>
          Write.value? later (some write) := by
  obtain ⟨now, made⟩ := timed
  cases made with
  | countVertices | countEdges => rfl
  | request asked =>
      cases asked with
      | getVertex | getEdge | illuminate => rfl
      | addEdge tail head weight ttl => exact memory.vertex?_addEdge order tail head weight ttl key
      | putVertex other value ttl =>
          rw [call, store, memory.vertex?_putVertex order]
          by_cases same : other = key <;> simp [TimedCall.put?, same]

theorem edge?_call (timed : TimedCall) (order : timed.now.nanoseconds ≤ later.nanoseconds)
    (tail head : String)
    : (memory.call timed.now timed.call).2.edge? later tail head
      = (timed.add? tail head).elim (memory.edge? later tail head) fun write =>
          Write.value? later (some write) := by
  obtain ⟨now, made⟩ := timed
  cases made with
  | countVertices | countEdges => rfl
  | request asked =>
      cases asked with
      | getVertex | getEdge | illuminate => rfl
      | putVertex key value ttl => exact memory.edge?_putVertex order key value ttl tail head
      | addEdge otherTail otherHead weight ttl =>
          rw [call, store, memory.edge?_addEdge order]
          by_cases same : otherTail = tail ∧ otherHead = head <;> simp [TimedCall.add?, same]

/-- A reading at the end of a run sees the value of the last write, by induction on the calls
from the last one back.
-/
theorem vertex?_after {calls : Calls} (forward : Forward (calls.map TimedCall.now ++ [later]))
    (key : String)
    : (after calls).vertex? later key = calls.vertex? later key := by
  induction calls using List.reverseRecOn with
  | nil => rfl
  | append_singleton calls timed ih =>
      rw [List.map_append] at forward
      obtain ⟨before, order⟩ := forward.of_append_append_singleton
      rw [after_append_singleton, vertex?_call _ timed order, ih before, Calls.vertex?,
        Calls.vertex?, Calls.last?_append_singleton]
      cases timed.put? key <;> rfl

theorem edge?_after {calls : Calls} (forward : Forward (calls.map TimedCall.now ++ [later]))
    (tail head : String)
    : (after calls).edge? later tail head = calls.edge? later tail head := by
  induction calls using List.reverseRecOn with
  | nil => rfl
  | append_singleton calls timed ih =>
      rw [List.map_append] at forward
      obtain ⟨before, order⟩ := forward.of_append_append_singleton
      rw [after_append_singleton, edge?_call _ timed order, ih before, Calls.edge?,
        Calls.edge?, Calls.last?_append_singleton]
      cases timed.add? tail head <;> rfl

theorem madeOf_liveGraph_after {calls : Calls}
    (forward : Forward (calls.map TimedCall.now ++ [now]))
    : ((after calls).liveGraph now).MadeOf
        (fun key value => calls.vertex? now key = some value)
        (fun tail head weight => calls.edge? now tail head = some weight) := by
  have made := (after calls).madeOf_liveGraph now
  simp only [vertex?_after forward, edge?_after forward] at made
  exact made

/-- The calls that only read have no part in what a store keeps. -/
theorem after_filter_writes (calls : Calls)
    : after (calls.filter TimedCall.writes) = after calls := by
  induction calls using List.reverseRecOn with
  | nil => rfl
  | append_singleton calls timed ih =>
      cases writes : timed.writes with
      | true =>
          rw [List.filter_append, List.filter_singleton, writes, cond_true,
            after_append_singleton, after_append_singleton, ih]
      | false =>
          rw [List.filter_append, List.filter_singleton, writes, cond_false, List.append_nil,
            after_append_singleton, call_of_not_writes _ writes, ih]

/-- Pruning shows at no later reading. -/
theorem liveGraph_prune (memory : Memory) (order : now.nanoseconds ≤ later.nanoseconds)
    : (memory.prune now).liveGraph later = memory.liveGraph later := by
  have pruned := (memory.prune now).madeOf_liveGraph later
  simp only [memory.vertex?_prune order, memory.edge?_prune order] at pruned
  exact pruned.unique (memory.madeOf_liveGraph later)

/-- The last write wins while it lives, whatever calls were made on a new store before and
whenever: every reply is the one that the last writes ask for. Calls that only read leave no
trace, and pruning is seen by no later reading.
-/
theorem last_write_wins {calls : Calls} {now : Instant} (call : Call)
    (forward : Forward (calls.map TimedCall.now ++ [now]))
    : calls.Explain now call ((after calls).call now call).1
      ∧ after calls = after (calls.filter TimedCall.writes)
      ∧ ∀ later : Instant,
          now.nanoseconds ≤ later.nanoseconds
          → ((after calls).prune now).liveGraph later = (after calls).liveGraph later := by
  refine ⟨?_, (after_filter_writes calls).symm, fun later => liveGraph_prune (after calls)⟩
  have made := madeOf_liveGraph_after forward
  cases call with
  | countVertices =>
      obtain ⟨keys, answered, count⟩ := made.card_values
      exact ⟨keys, answered, ((after calls).vertexCount_eq now).trans count⟩
  | countEdges =>
      obtain ⟨pairs, answered, count⟩ := made.card_edges
      exact ⟨pairs, answered, ((after calls).edgeCount_eq now).trans count⟩
  | request asked =>
      cases asked with
      | putVertex key value ttl => rfl
      | addEdge tail head weight ttl => rfl
      | illuminate seed step k tfidf => exact ⟨_, made, rfl⟩
      | getVertex key =>
          rw [Calls.Explain, ← vertex?_after forward]
          rfl
      | getEdge tail head =>
          rw [Calls.Explain, ← edge?_after forward]
          rfl

/-- A value that expires at once hides the older one, which would have lived on. -/
theorem last_write_wins_over_longer_life
    : let minute := Duration.ofSeconds 60
      let calls : Calls :=
        [⟨⟨0⟩, .request (.putVertex "a" (.bool true) minute)⟩,
          ⟨⟨5⟩, .request (.addEdge "a" "b" 1 minute)⟩,
          ⟨⟨7⟩, .request (.putVertex "a" (.bool false) ⟨0⟩)⟩,
          ⟨⟨7⟩, .countVertices⟩]
      Forward (calls.map TimedCall.now ++ [⟨9⟩])
      ∧ ((after calls).call ⟨9⟩ (.request (.getVertex "a"))).1 = .error (.notFound "a") := by
  intro minute calls
  have forward : Forward (calls.map TimedCall.now ++ [⟨9⟩]) := by decide
  have answered := (last_write_wins (.request (.getVertex "a")) forward).1
  have gone : calls.vertex? ⟨9⟩ "a" = none := by decide +kernel
  rw [Calls.Explain, gone] at answered
  exact ⟨forward, answered⟩

end Memory

end GraphShell
