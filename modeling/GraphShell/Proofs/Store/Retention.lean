import GraphShell.Proofs.Store.Answers

/-! How long a volatile store holds on to what has expired. Each write removes all of it before
it puts its own entry in place, so right behind a write that entry is the only one that can have
expired, and no tail is left without an edge.
-/

namespace GraphShell

/-- A key that has just been set is in the map. -/
theorem KeyMap.isEmpty_insert {α : Type} (map : KeyMap α) (key : String) (value : α)
    : (map.insert key value).isEmpty = false := by
  refine Bool.eq_false_iff.mpr fun nothing => ?_
  have absent := KeyMap.get?_of_isEmpty nothing key
  simp at absent

/-- An entry is kept at a place behind a write: it is the one that the write made there, or the
write made none there and the entry, which was kept before, is live.
-/
def Entry.KeptBehind {α : Type} (made : Option (Write α)) (before : Option (Entry α))
    (now : Instant) (entry : Entry α)
    : Prop :=
  (∃ write, made = some write ∧ entry = written write.value write.ttl write.writtenAt)
  ∨ (made = none ∧ before = some entry ∧ entry.isLive now = true)

theorem Entry.keptBehind_iff {α : Type} {made : Option (Write α)} {before : Option (Entry α)}
    {now : Instant} {entry : Entry α}
    : (made.elim (before.filter (isLive now)) fun write =>
          some (written write.value write.ttl write.writtenAt))
        = some entry
      ↔ KeptBehind made before now entry := by
  cases made with
  | none => simp [KeptBehind, Option.filter_eq_some_iff]
  | some write => simp [KeptBehind, @eq_comm _ entry]

namespace Memory

variable {memory : Memory}

-----------------------------------------------------------------------------------------
-- Tails
-----------------------------------------------------------------------------------------

/-- Every tail that is kept has an edge. -/
def TailsHaveEdges (memory : Memory) : Prop :=
  ∀ tail heads, memory.heads.get? tail = some heads → ∃ head entry, heads.get? head = some entry

theorem tailsHaveEdges_empty : TailsHaveEdges empty :=
  fun _ _ => nofun

/-- Pruning drops the tails that it empties, and those that were empty before. -/
theorem tailsHaveEdges_prune (memory : Memory) (now : Instant)
    : (memory.prune now).TailsHaveEdges := by
  intro tail heads found
  simp only [prune, KeyMap.get?_filter, Option.filter_eq_some_iff] at found
  exact KeyMap.exists_get?_of_not_isEmpty (by simpa using found.2)

/-- An edge that is added is one of its tail, and the other tails have been pruned. -/
theorem tailsHaveEdges_addEdge (memory : Memory) (now : Instant) (tail head : String)
    (weight : Weight) (ttl : Duration)
    : (memory.addEdge now tail head weight ttl).TailsHaveEdges := by
  intro other heads found
  simp only [addEdge, KeyMap.get?_insert] at found
  split at found
  · obtain rfl := Option.some.inj found
    exact KeyMap.exists_get?_of_not_isEmpty (KeyMap.isEmpty_insert _ _ _)
  · exact memory.tailsHaveEdges_prune now other heads found

theorem TailsHaveEdges.call (sound : memory.TailsHaveEdges) (timed : TimedCall)
    : (memory.call timed.now timed.call).2.TailsHaveEdges := by
  obtain ⟨now, made⟩ := timed
  cases made with
  | countVertices | countEdges => exact sound
  | request asked =>
      cases asked with
      | getVertex | getEdge | illuminate => exact sound
      | putVertex key value ttl => exact memory.tailsHaveEdges_prune now
      | addEdge tail head weight ttl => exact memory.tailsHaveEdges_addEdge now tail head weight ttl

/-- No run of calls leaves a tail without edges, by induction on the calls. -/
theorem tailsHaveEdges_after (calls : Calls) : (after calls).TailsHaveEdges := by
  refine List.foldlRecOn (motive := TailsHaveEdges) _ _ tailsHaveEdges_empty ?_
  exact fun memory sound timed _ => sound.call timed

-----------------------------------------------------------------------------------------
-- Entries
-----------------------------------------------------------------------------------------

/-- A write prunes the vertices and puts the one that it is about in place, if it is about one. -/
theorem get?_vertices_call {timed : TimedCall} (writes : timed.writes = true) (key : String)
    : (memory.call timed.now timed.call).2.vertices.get? key
      = (timed.put? key).elim ((memory.vertices.get? key).filter (Entry.isLive timed.now))
          fun write => some (.written write.value write.ttl write.writtenAt) := by
  obtain ⟨now, made⟩ := timed
  cases made with
  | countVertices | countEdges => cases writes
  | request asked =>
      cases asked with
      | getVertex | getEdge | illuminate => cases writes
      | addEdge tail head weight ttl => exact memory.get?_vertices_prune key
      | putVertex other value ttl =>
          rw [← memory.get?_vertices_prune key]
          by_cases same : other = key
          · simp [call, store, putVertex, TimedCall.put?, same]
          · simp [call, store, putVertex, TimedCall.put?, same, Ne.symm same]

/-- The same for the edges. -/
theorem keptEdge?_call {timed : TimedCall} (writes : timed.writes = true) (tail head : String)
    : (memory.call timed.now timed.call).2.keptEdge? tail head
      = (timed.add? tail head).elim ((memory.keptEdge? tail head).filter (Entry.isLive timed.now))
          fun write => some (.written write.value write.ttl write.writtenAt) := by
  obtain ⟨now, made⟩ := timed
  cases made with
  | countVertices | countEdges => cases writes
  | request asked =>
      cases asked with
      | getVertex | getEdge | illuminate => cases writes
      | putVertex key value ttl => exact memory.keptEdge?_prune tail head
      | addEdge otherTail otherHead weight ttl =>
          rw [← memory.keptEdge?_prune tail head]
          refine (memory.keptEdge?_addEdge otherTail otherHead weight ttl tail head).trans ?_
          by_cases same : otherTail = tail ∧ otherHead = head <;> simp [TimedCall.add?, same]

/-- What a write leaves of a store: the entry that it made, and of all others those that are live
at its reading.
-/
structure LeftBy (timed : TimedCall) (before left : Memory) : Prop where
  vertices
    : ∀ key entry,
        left.vertices.get? key = some entry
        ↔ Entry.KeptBehind (timed.put? key) (before.vertices.get? key) timed.now entry
  edges
    : ∀ tail head entry,
        left.keptEdge? tail head = some entry
        ↔ Entry.KeptBehind (timed.add? tail head) (before.keptEdge? tail head) timed.now entry

/-- Whatever calls were made on a new store, no tail is kept without an edge. Right behind a further
write, an entry that the write did not make is kept exactly if it was kept before and is live at
the reading of the write, so what has expired survives no write but its own.
-/
theorem expired_survives_own_write_only (calls : Calls) {timed : TimedCall}
    (writes : timed.writes = true)
    : (after calls).TailsHaveEdges
      ∧ (after (calls ++ [timed])).TailsHaveEdges
      ∧ LeftBy timed (after calls) (after (calls ++ [timed])) := by
  refine ⟨tailsHaveEdges_after calls, tailsHaveEdges_after _, ?_, ?_⟩
  · intro key entry
    rw [after_append_singleton, get?_vertices_call writes, Entry.keptBehind_iff]
  · intro tail head entry
    rw [after_append_singleton, keptEdge?_call writes, Entry.keptBehind_iff]

/-- An edge that expires at once stays until the next write, which takes the last edge of its tail
and so the tail itself.
-/
theorem expired_survives_own_write_only_of_instant
    : let calls : Calls := [⟨⟨3⟩, .request (.addEdge "a" "b" 1 ⟨0⟩)⟩]
      let timed : TimedCall := ⟨⟨3⟩, .request (.putVertex "a" (.bool true) ⟨0⟩)⟩
      timed.writes = true
      ∧ (after calls).keptEdge? "a" "b" = some ⟨1, some ⟨3⟩⟩
      ∧ (after (calls ++ [timed])).keptEdge? "a" "b" = none
      ∧ (after (calls ++ [timed])).heads.get? "a" = none
      ∧ (after (calls ++ [timed])).vertices.get? "a" = some ⟨.bool true, some ⟨3⟩⟩ := by
  intro calls timed
  have writes : timed.writes = true := rfl
  have first : TimedCall.writes ⟨⟨3⟩, .request (.addEdge "a" "b" 1 ⟨0⟩)⟩ = true := rfl
  obtain ⟨-, tails, left⟩ := expired_survives_own_write_only calls writes
  have made := ((expired_survives_own_write_only [] first).2.2.edges "a" "b" _).mpr
    (.inl ⟨_, rfl, rfl⟩)
  have gone : (after (calls ++ [timed])).keptEdge? "a" "b" = none := by
    refine Option.eq_none_iff_forall_not_mem.mpr fun entry kept => ?_
    rcases (left.edges "a" "b" entry).mp kept with ⟨write, none, -⟩ | ⟨-, before, live⟩
    · cases none
    · obtain rfl := Option.some.inj (made.symm.trans before)
      cases live
  refine ⟨writes, made, gone, ?_, (left.vertices "a" _).mpr (.inl ⟨_, rfl, rfl⟩)⟩
  decide +kernel

end Memory

end GraphShell
