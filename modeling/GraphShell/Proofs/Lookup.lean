import GraphShell.KeyMap
import Mathlib.Data.List.Nodup
import Mathlib.Data.List.Perm.Basic

/-! Maps through their look-ups. Every operation is described by what it does to the value
under each key, and two maps that answer every look-up alike are the same map.
-/

namespace GraphShell.KeyMap

variable {α β : Type}

-----------------------------------------------------------------------------------------
-- Look-up and entries
-----------------------------------------------------------------------------------------

/-- No key stands twice in a map, since the entries increase strictly. -/
theorem nodup_keys (map : KeyMap α) : map.keys.Nodup :=
  List.pairwise_map.mpr (map.sorted.imp String.ne_of_lt)

/-- Two entries of one key are the same entry, because the keys are distinct. -/
theorem value_unique {map : KeyMap α} {key : String} {first second : α}
    (hf : (key, first) ∈ map.entries) (hs : (key, second) ∈ map.entries)
    : first = second :=
  congrArg Prod.snd (List.inj_on_of_nodup_map map.nodup_keys hf hs rfl)

/-- A look-up answers a value exactly if the value is an entry under the key. -/
theorem get?_eq_some_iff {map : KeyMap α} {key : String} {value : α}
    : map.get? key = some value ↔ (key, value) ∈ map.entries := by
  constructor
  · intro found
    obtain ⟨entry, he, rfl⟩ := Option.map_eq_some_iff.mp found
    have hk : entry.1 = key := by simpa using List.find?_some he
    exact hk ▸ List.mem_of_find?_eq_some he
  · intro member
    cases hf : map.entries.find? fun entry => entry.1 = key with
    | none =>
        have absent := List.find?_eq_none.mp hf _ member
        simp at absent
    | some entry =>
        have hk : entry.1 = key := by simpa using List.find?_some hf
        have he : (key, entry.2) ∈ map.entries := hk ▸ List.mem_of_find?_eq_some hf
        simp only [get?, hf, Option.map_some, value_unique he member]

theorem mem_keys_iff {map : KeyMap α} {key : String}
    : key ∈ map.keys ↔ ∃ value, map.get? key = some value := by
  simp only [keys, List.mem_map, get?_eq_some_iff]
  constructor
  · rintro ⟨entry, he, rfl⟩
    exact ⟨entry.2, he⟩
  · rintro ⟨value, he⟩
    exact ⟨(key, value), he, rfl⟩

theorem mem_values_iff {map : KeyMap α} {value : α}
    : value ∈ map.values ↔ ∃ key, map.get? key = some value := by
  simp [values, get?_eq_some_iff]

theorem contains_iff {map : KeyMap α} {key : String}
    : map.contains key = true ↔ ∃ value, map.get? key = some value := by
  simp only [← mem_keys_iff, contains, keys, List.any_eq_true, decide_eq_true_eq, List.mem_map]

/-- Maps that answer every look-up alike are equal: they have the same entries, and the
order of the entries is that of the keys.
-/
@[ext]
theorem ext_get? {left right : KeyMap α} (same : ∀ key, left.get? key = right.get? key)
    : left = right := by
  have members (entry : String × α) : entry ∈ left.entries ↔ entry ∈ right.entries := by
    rw [← get?_eq_some_iff, ← get?_eq_some_iff, same]
  have perm : left.entries.Perm right.entries :=
    (List.perm_ext_iff_of_nodup left.nodup_keys.of_map right.nodup_keys.of_map).mpr members
  have equal : left.entries = right.entries :=
    perm.eq_of_pairwise (fun _ _ _ _ hl hr => (String.lt_asymm hl hr).elim)
      left.sorted right.sorted
  cases left
  cases right
  congr

-----------------------------------------------------------------------------------------
-- Look-ups after each operation
-----------------------------------------------------------------------------------------

@[simp]
theorem get?_empty (key : String) : (empty : KeyMap α).get? key = none := rfl

/-- An insertion changes the value of its own key and of no other, by induction on the
entries.
-/
@[simp]
theorem get?_insert (map : KeyMap α) (key : String) (value : α) (other : String)
    : (map.insert key value).get? other
      = if other = key then some value else map.get? other := by
  obtain ⟨entries, sorted⟩ := map
  simp only [get?, insert]
  clear sorted
  induction entries with
  | nil => by_cases he : key = other <;> simp [insertEntry, he, eq_comm]
  | cons head rest ih =>
      obtain ⟨first, found⟩ := head
      simp only [insertEntry]
      split
      · by_cases he : key = other <;> simp [he, eq_comm]
      · split
        · next same =>
            subst same
            by_cases he : key = other <;> simp [he, eq_comm]
        · next differs =>
            by_cases hf : first = other
            · subst hf
              simp [Ne.symm differs]
            · simpa [hf] using ih

@[simp]
theorem get?_filter (test : String → α → Bool) (map : KeyMap α) (key : String)
    : (map.filter test).get? key = (map.get? key).filter (test key) := by
  apply Option.ext
  intro value
  rw [get?_eq_some_iff, Option.filter_eq_some_iff, get?_eq_some_iff, filter, List.mem_filter]

@[simp]
theorem get?_mapValues (change : α → β) (map : KeyMap α) (key : String)
    : (map.mapValues change).get? key = (map.get? key).map change := by
  simp only [get?, mapValues, List.find?_map, Option.map_map]
  rfl

/-- A map of pairs has exactly the keys of the pairs, by induction on the pairs. -/
theorem mem_keys_ofList {pairs : List (String × α)} {key : String}
    : key ∈ (ofList pairs).keys ↔ key ∈ pairs.map Prod.fst := by
  suffices h : ∀ map : KeyMap α,
      key ∈ (pairs.foldl (fun map pair => map.insert pair.1 pair.2) map).keys
        ↔ key ∈ map.keys ∨ key ∈ pairs.map Prod.fst by
    simpa [ofList, mem_keys_iff] using h empty
  induction pairs with
  | nil => simp
  | cons pair rest ih =>
      intro map
      have inserted : key ∈ (map.insert pair.1 pair.2).keys ↔ key = pair.1 ∨ key ∈ map.keys := by
        by_cases he : key = pair.1 <;> simp [mem_keys_iff, he]
      rw [List.foldl_cons, ih, inserted, List.map_cons, List.mem_cons]
      tauto

end GraphShell.KeyMap
