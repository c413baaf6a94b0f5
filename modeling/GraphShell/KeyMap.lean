/-! Finite maps from keys to values, kept in key order. Keys are ordered by their code
points, and a map has one representation only, so equal maps are equal as terms.
-/

namespace GraphShell

/-- A map whose entries stand in strictly increasing key order. -/
structure KeyMap (α : Type) where
  entries : List (String × α)
  sorted : entries.Pairwise fun a b => a.1 < b.1
deriving DecidableEq

namespace KeyMap

variable {α β : Type}

/-- The map without entries. -/
def empty : KeyMap α :=
  ⟨[], .nil⟩

instance : Inhabited (KeyMap α) := ⟨empty⟩

/-- The entries with `key` set to `value`. -/
def insertEntry (key : String) (value : α) : List (String × α) → List (String × α)
  | [] => [(key, value)]
  | (other, found) :: rest =>
      if key < other then (key, value) :: (other, found) :: rest
      else if key = other then (key, value) :: rest
      else (other, found) :: insertEntry key value rest

/-- The keys after an insertion are the new one and the old ones, by induction on the
entries.
-/
theorem fst_of_mem_insertEntry {key : String} {value : α} {entry : String × α}
    {entries : List (String × α)} (h : entry ∈ insertEntry key value entries)
    : entry.1 = key ∨ entry ∈ entries := by
  induction entries with
  | nil => simp_all [insertEntry]
  | cons head rest ih =>
      simp only [insertEntry] at h
      split at h
      · rcases List.mem_cons.mp h with rfl | h
        · exact .inl rfl
        · exact .inr h
      · split at h
        · rcases List.mem_cons.mp h with rfl | h
          · exact .inl rfl
          · exact .inr (List.mem_cons_of_mem _ h)
        · rcases List.mem_cons.mp h with rfl | h
          · exact .inr List.mem_cons_self
          · exact (ih h).imp_right (List.mem_cons_of_mem _)

/-- Insertion keeps the key order, by induction on the entries. -/
theorem sorted_insertEntry (key : String) (value : α) {entries : List (String × α)}
    (h : entries.Pairwise fun a b => a.1 < b.1)
    : (insertEntry key value entries).Pairwise fun a b => a.1 < b.1 := by
  induction entries with
  | nil => simp [insertEntry]
  | cons head rest ih =>
      obtain ⟨first, tail⟩ := List.pairwise_cons.mp h
      simp only [insertEntry]
      split
      · next hlt =>
          refine List.pairwise_cons.mpr ⟨?_, h⟩
          intro entry he
          rcases List.mem_cons.mp he with rfl | he
          · exact hlt
          · exact String.lt_trans hlt (first entry he)
      · next hlt =>
          split
          · next heq =>
              subst heq
              exact List.pairwise_cons.mpr ⟨first, tail⟩
          · next hne =>
              refine List.pairwise_cons.mpr ⟨?_, ih tail⟩
              intro entry he
              rcases fst_of_mem_insertEntry he with he | he
              · rw [he]
                have hle : head.1 ≤ key := String.not_lt.mp hlt
                exact Decidable.byContradiction fun hn =>
                  hne (String.le_antisymm (String.not_lt.mp hn) hle)
              · exact first entry he

/-- The map with `key` set to `value`, whatever it was before. -/
def insert (map : KeyMap α) (key : String) (value : α) : KeyMap α :=
  ⟨insertEntry key value map.entries, sorted_insertEntry key value map.sorted⟩

/-- The map of a list of pairs, where a later pair replaces an earlier one of its key. -/
def ofList (pairs : List (String × α)) : KeyMap α :=
  pairs.foldl (fun map pair => map.insert pair.1 pair.2) empty

/-- The value under a key. -/
def get? (map : KeyMap α) (key : String) : Option α :=
  (map.entries.find? fun entry => entry.1 = key).map Prod.snd

/-- Whether the map has the key. -/
def contains (map : KeyMap α) (key : String) : Bool :=
  map.entries.any fun entry => entry.1 = key

/-- The keys in order. -/
def keys (map : KeyMap α) : List String :=
  map.entries.map Prod.fst

/-- The values in key order. -/
def values (map : KeyMap α) : List α :=
  map.entries.map Prod.snd

/-- The number of keys. -/
def size (map : KeyMap α) : Nat :=
  map.entries.length

/-- Whether the map has no key. -/
def isEmpty (map : KeyMap α) : Bool :=
  map.entries.isEmpty

/-- The map of the entries that pass a test. -/
def filter (test : String → α → Bool) (map : KeyMap α) : KeyMap α :=
  ⟨map.entries.filter fun entry => test entry.1 entry.2, map.sorted.filter _⟩

/-- The map with every value changed by a function. -/
def mapValues (change : α → β) (map : KeyMap α) : KeyMap β :=
  ⟨map.entries.map fun entry => (entry.1, change entry.2),
    List.pairwise_map.mpr map.sorted⟩

end KeyMap

end GraphShell
