import GraphShell.Proofs.Store.LastWrites
import GraphShell.Store.Memory

/-! A store that removes what has expired only on a write answers as its last writes ask for.
Removal is invisible to every later reading, since what has expired stays so.
-/

namespace GraphShell

variable {now later : Instant}

-----------------------------------------------------------------------------------------
-- Entries
-----------------------------------------------------------------------------------------

namespace Entry

variable {α : Type}

/-- A written entry lives as long as its write. -/
theorem isLive_written (value : α) (ttl : Duration) (writtenAt : Instant)
    : (written value ttl writtenAt).isLive now = Write.lives now ⟨value, ttl, writtenAt⟩ := by
  by_cases expires : writtenAt.nanoseconds + ttl.nanoseconds < Instant.limit
  · have reached : ¬ Instant.limit ≤ writtenAt.nanoseconds + ttl.nanoseconds := by omega
    simp [isLive, written, Instant.after?, Instant.before, Write.lives, expires, reached]
  · have past : Instant.limit ≤ writtenAt.nanoseconds + ttl.nanoseconds := by omega
    simp [isLive, written, Instant.after?, Write.lives, expires, past]

theorem isLive_of_le {entry : Entry α} (order : now.nanoseconds ≤ later.nanoseconds)
    (live : entry.isLive later = true)
    : entry.isLive now = true := by
  cases expiry : entry.expires with
  | none => simp [isLive, expiry]
  | some expires =>
      simp only [isLive, expiry, Option.all_some, Instant.before, decide_eq_true_eq] at live ⊢
      omega

/-- The value of an entry while the entry is live. -/
def value? (now : Instant) (entry : Option (Entry α)) : Option α :=
  (entry.filter (isLive now)).map value

theorem exists_of_value?_eq_some {entry : Option (Entry α)} {shown : α}
    (found : value? now entry = some shown)
    : ∃ kept, entry = some kept ∧ kept.value = shown := by
  obtain ⟨kept, filtered, same⟩ := Option.map_eq_some_iff.mp found
  exact ⟨kept, (Option.filter_eq_some_iff.mp filtered).1, same⟩

/-- What has been removed at a reading shows at no later one anyway. -/
theorem value?_filter (order : now.nanoseconds ≤ later.nanoseconds) (entry : Option (Entry α))
    : value? later (entry.filter (isLive now)) = value? later entry := by
  have both : (fun entry : Entry α => isLive now entry && isLive later entry) = isLive later := by
    funext entry
    cases live : isLive later entry with
    | false => exact Bool.and_false _
    | true => rw [isLive_of_le order live]; rfl
  rw [value?, Option.filter_filter, both, value?]

theorem value?_written (value : α) (ttl : Duration) (writtenAt : Instant)
    : value? now (some (written value ttl writtenAt))
      = Write.value? now (some ⟨value, ttl, writtenAt⟩) := by
  have same : (written value ttl writtenAt).isLive now = Write.lives now ⟨value, ttl, writtenAt⟩ :=
    isLive_written value ttl writtenAt
  cases live : Write.lives now ⟨value, ttl, writtenAt⟩ with
  | false => simp [value?, Write.value?, Option.filter, same, live]
  | true =>
      simp only [value?, Write.value?, Option.filter, same, live, if_true, Option.map_some]
      rfl

end Entry

-----------------------------------------------------------------------------------------
-- Look-ups after pruning and after writes
-----------------------------------------------------------------------------------------

theorem KeyMap.get?_of_isEmpty {α : Type} {map : KeyMap α} (nothing : map.isEmpty = true)
    (key : String)
    : map.get? key = none := by
  have noEntries : map.entries = [] := List.isEmpty_iff.mp nothing
  simp [get?, noEntries]

namespace Memory

variable (memory : Memory)

/-- The kept entry of an edge, whether or not it has expired. -/
def keptEdge? (tail head : String) : Option (Entry Weight) :=
  memory.heads.get? tail >>= fun heads => heads.get? head

theorem vertex?_eq (key : String)
    : memory.vertex? now key = Entry.value? now (memory.vertices.get? key) := rfl

theorem edge?_eq (tail head : String)
    : memory.edge? now tail head = Entry.value? now (memory.keptEdge? tail head) := rfl

theorem get?_vertices_prune (key : String)
    : (memory.prune now).vertices.get? key
      = (memory.vertices.get? key).filter (Entry.isLive now) :=
  KeyMap.get?_filter _ _ _

/-- Pruning keeps the live edges: a tail that it drops has none. -/
theorem keptEdge?_prune (tail head : String)
    : (memory.prune now).keptEdge? tail head
      = (memory.keptEdge? tail head).filter (Entry.isLive now) := by
  simp only [keptEdge?, prune, KeyMap.get?_filter, KeyMap.get?_mapValues, Option.bind_eq_bind]
  cases memory.heads.get? tail with
  | none => rfl
  | some heads =>
      have kept := KeyMap.get?_filter (fun _ entry => Entry.isLive now entry) heads head
      simp only [Option.map_some, Option.bind_some]
      rw [← kept]
      cases nothing : (heads.filter fun _ entry => Entry.isLive now entry).isEmpty with
      | false => simp [Option.filter, nothing]
      | true => simp [Option.filter, nothing, KeyMap.get?_of_isEmpty nothing]

theorem vertex?_prune (order : now.nanoseconds ≤ later.nanoseconds) (key : String)
    : (memory.prune now).vertex? later key = memory.vertex? later key := by
  rw [vertex?_eq, get?_vertices_prune, Entry.value?_filter order, vertex?_eq]

theorem edge?_prune (order : now.nanoseconds ≤ later.nanoseconds) (tail head : String)
    : (memory.prune now).edge? later tail head = memory.edge? later tail head := by
  rw [edge?_eq, keptEdge?_prune, Entry.value?_filter order, edge?_eq]

/-- Putting a vertex changes what its key has, and nothing else that a later reading sees. -/
theorem vertex?_putVertex (order : now.nanoseconds ≤ later.nanoseconds) (key : String)
    (value : Scalar) (ttl : Duration) (other : String)
    : (memory.putVertex now key value ttl).vertex? later other
      = if key = other then Write.value? later (some ⟨value, ttl, now⟩)
        else memory.vertex? later other := by
  have stored : (memory.putVertex now key value ttl).vertices
      = (memory.prune now).vertices.insert key (.written value ttl now) := rfl
  by_cases same : key = other
  · subst same
    simp [vertex?_eq, stored, Entry.value?_written]
  · rw [if_neg same, ← memory.vertex?_prune order, vertex?_eq, stored, KeyMap.get?_insert,
      if_neg (Ne.symm same), vertex?_eq]

theorem edge?_putVertex (order : now.nanoseconds ≤ later.nanoseconds) (key : String)
    (value : Scalar) (ttl : Duration) (tail head : String)
    : (memory.putVertex now key value ttl).edge? later tail head
      = memory.edge? later tail head :=
  memory.edge?_prune order tail head

theorem vertex?_addEdge (order : now.nanoseconds ≤ later.nanoseconds) (tail head : String)
    (weight : Weight) (ttl : Duration) (key : String)
    : (memory.addEdge now tail head weight ttl).vertex? later key
      = memory.vertex? later key :=
  memory.vertex?_prune order key

theorem keptEdge?_addEdge (tail head : String) (weight : Weight) (ttl : Duration)
    (otherTail otherHead : String)
    : (memory.addEdge now tail head weight ttl).keptEdge? otherTail otherHead
      = if tail = otherTail ∧ head = otherHead then some (.written weight ttl now)
        else (memory.prune now).keptEdge? otherTail otherHead := by
  simp only [keptEdge?, addEdge, KeyMap.get?_insert]
  by_cases sameTail : tail = otherTail
  · subst sameTail
    cases (memory.prune now).heads.get? tail <;> simp [eq_comm]
  · simp [sameTail, Ne.symm sameTail]

/-- Adding an edge changes that edge, and nothing else that a later reading sees. -/
theorem edge?_addEdge (order : now.nanoseconds ≤ later.nanoseconds) (tail head : String)
    (weight : Weight) (ttl : Duration) (otherTail otherHead : String)
    : (memory.addEdge now tail head weight ttl).edge? later otherTail otherHead
      = if tail = otherTail ∧ head = otherHead then Write.value? later (some ⟨weight, ttl, now⟩)
        else memory.edge? later otherTail otherHead := by
  by_cases same : tail = otherTail ∧ head = otherHead
  · rw [edge?_eq, keptEdge?_addEdge, if_pos same, if_pos same, Entry.value?_written]
  · rw [edge?_eq, keptEdge?_addEdge, if_neg same, if_neg same, ← edge?_eq,
      edge?_prune memory order]

end Memory

end GraphShell
