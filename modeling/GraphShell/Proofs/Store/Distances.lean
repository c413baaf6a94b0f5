import GraphShell.Store.Snapshot
import Mathlib.Data.Finset.Card
import Mathlib.Data.Finset.Dedup
import Mathlib.Data.Nat.Find
import Mathlib.Order.Bounds.Basic

/-! The layers of a walk are the keys at each distance from the seed. A distance is less than the
number of keys in reach, as every smaller distance has a key too.
-/

namespace GraphShell.Graph

variable {step : String → String → Prop} {seed key : String} {distance : Nat}

-----------------------------------------------------------------------------------------
-- Distances
-----------------------------------------------------------------------------------------

/-- That many steps, one behind the other, lead from the seed to the key. -/
inductive Hops (step : String → String → Prop) (seed : String) : Nat → String → Prop
  | start : Hops step seed 0 seed
  | next {count key head} (hops : Hops step seed count key) (edge : step key head)
    : Hops step seed (count + 1) head

/-- The least number of steps that lead from the seed to the key. -/
def Distance (step : String → String → Prop) (seed key : String) (distance : Nat) : Prop :=
  IsLeast {count | Hops step seed count key} distance

theorem Hops.exists_distance {count : Nat} (hops : Hops step seed count key)
    : ∃ distance ≤ count, Distance step seed key distance := by
  classical
  have reached : ∃ count, Hops step seed count key := ⟨count, hops⟩
  refine ⟨Nat.find reached, Nat.find_min' reached hops, Nat.find_spec reached, ?_⟩
  intro other walked
  exact Nat.find_min' reached walked

theorem distance_zero_iff : Distance step seed key 0 ↔ key = seed := by
  constructor
  · intro least
    generalize none : 0 = count at least
    cases least.1 with
    | start => rfl
    | next _ _ => cases none
  · intro same
    subst same
    exact ⟨.start, fun _ _ => Nat.zero_le _⟩

/-- A key at a distance that is not zero is one step behind a key at the distance before. -/
theorem Distance.exists_source (least : Distance step seed key (distance + 1))
    : ∃ source, Distance step seed source distance ∧ step source key := by
  generalize more : distance + 1 = count at least
  cases least.1 with
  | start => cases more
  | @next earlier source _ hops edge =>
      obtain rfl := Nat.succ.inj more
      refine ⟨source, ⟨hops, ?_⟩, edge⟩
      intro other walked
      exact Nat.le_of_succ_le_succ (least.2 (walked.next edge))

/-- The keys at the next distance are the heads of those at this one, less those that are as
near.
-/
theorem distance_succ_iff
    : Distance step seed key (distance + 1)
      ↔ (∃ source, Distance step seed source distance ∧ step source key)
        ∧ ¬ ∃ lower ≤ distance, Distance step seed key lower := by
  constructor
  · intro least
    refine ⟨least.exists_source, ?_⟩
    intro nearer
    obtain ⟨lower, within, near⟩ := nearer
    have same := least.unique near
    omega
  · intro behind
    obtain ⟨⟨source, near, edge⟩, fresh⟩ := behind
    refine ⟨near.1.next edge, ?_⟩
    intro other walked
    obtain ⟨lower, within, least⟩ := Hops.exists_distance walked
    have beyond : ¬ lower ≤ distance := fun near => fresh ⟨lower, near, least⟩
    omega

/-- There are keys at all distances below that of a key, by induction on the distance. -/
theorem Distance.exists_nearer (least : Distance step seed key distance) {lower : Nat}
    (within : lower ≤ distance)
    : ∃ other, Distance step seed other lower := by
  induction distance generalizing key with
  | zero => exact ⟨key, by rwa [Nat.le_zero.mp within]⟩
  | succ distance ih =>
      rcases Nat.le_succ_iff.mp within with below | same
      · obtain ⟨source, near, _⟩ := least.exists_source
        exact ih near below
      · exact ⟨key, same ▸ least⟩

/-- Keys at different distances are different, so a list of all keys in reach is longer than any
distance.
-/
theorem Distance.lt_length {keys : List String}
    (listed : ∀ count key, Hops step seed count key → key ∈ keys)
    (least : Distance step seed key distance)
    : distance < keys.length := by
  by_contra short
  have some (lower : Nat) : ∃ other, lower ≤ distance → Distance step seed other lower := by
    by_cases within : lower ≤ distance
    · obtain ⟨other, near⟩ := least.exists_nearer within
      exact ⟨other, fun _ => near⟩
    · exact ⟨key, fun near => absurd near within⟩
  choose keyAt near using some
  have fewer : keys.toFinset.card < (Finset.range (distance + 1)).card := by
    have bound := List.toFinset_card_le keys
    rw [Finset.card_range]
    omega
  have into : Set.MapsTo keyAt (Finset.range (distance + 1)) keys.toFinset := by
    intro lower member
    rw [Finset.mem_coe, Finset.mem_range] at member
    exact List.mem_toFinset.mpr (listed lower _ (near lower (by omega)).1)
  obtain ⟨first, hf, second, hs, differs, same⟩ :=
    Finset.exists_ne_map_eq_of_card_lt_of_maps_to fewer into
  rw [Finset.mem_range] at hf hs
  exact differs ((near first (by omega)).unique (same ▸ near second (by omega)))

-----------------------------------------------------------------------------------------
-- Layers
-----------------------------------------------------------------------------------------

theorem length_layers (next : String → List String) (depth : Nat) (seen frontier : List String)
    : (layers next depth seen frontier).length = depth + 1 := by
  induction depth generalizing seen frontier with
  | zero => rfl
  | succ depth ih => rw [layers, List.length_cons, ih]

/-- From a frontier of all keys at a distance, with all keys that are as near marked as seen, the
layers are those at this distance and the following ones. By induction on the depth.
-/
theorem mem_take_layers_iff {next : String → List String}
    (steps : ∀ key head, head ∈ next key ↔ step key head) {depth level count : Nat}
    {seen frontier : List String} (within : count ≤ depth + 1)
    (atLevel : ∀ key, key ∈ frontier ↔ Distance step seed key level)
    (nearer : ∀ key, key ∈ seen ↔ ∃ lower ≤ level, Distance step seed key lower)
    : key ∈ ((layers next depth seen frontier).take count).flatten
      ↔ ∃ above < count, Distance step seed key (level + above) := by
  induction depth generalizing level count seen frontier with
  | zero =>
      obtain rfl | rfl : count = 0 ∨ count = 1 := by omega
      · simp
      · simp [layers, atLevel]
  | succ depth ih =>
      cases count with
      | zero => simp
      | succ count =>
          let fresh := ((frontier.flatMap next).filter fun key => !seen.contains key).eraseDups
          have isFresh (key : String) : key ∈ fresh ↔ Distance step seed key (level + 1) := by
            rw [distance_succ_iff, ← nearer]
            simp [fresh, List.mem_eraseDups, steps, atLevel]
          have isSeen (key : String)
              : key ∈ seen ++ fresh ↔ ∃ lower ≤ level + 1, Distance step seed key lower := by
            rw [List.mem_append, isFresh, nearer]
            constructor
            · intro near
              rcases near with ⟨lower, below, least⟩ | least
              · exact ⟨lower, by omega, least⟩
              · exact ⟨level + 1, by omega, least⟩
            · intro near
              obtain ⟨lower, below, least⟩ := near
              rcases Nat.le_succ_iff.mp below with earlier | same
              · exact .inl ⟨lower, earlier, least⟩
              · subst same
                exact .inr least
          have fewer : count ≤ depth + 1 := by omega
          have later := ih fewer isFresh isSeen
          rw [layers, List.take_succ_cons, List.flatten_cons, List.mem_append, atLevel, later]
          constructor
          · intro reached
            rcases reached with here | ⟨above, less, least⟩
            · exact ⟨0, by omega, here⟩
            · refine ⟨above + 1, by omega, ?_⟩
              rwa [show level + (above + 1) = level + 1 + above by omega]
          · intro reached
            obtain ⟨above, less, least⟩ := reached
            cases above with
            | zero => exact .inl least
            | succ above =>
                refine .inr ⟨above, by omega, ?_⟩
                rwa [show level + 1 + above = level + (above + 1) by omega]

/-- The first layers from a seed hold the keys at the distances below their number. -/
theorem mem_take_layers_seed_iff {next : String → List String}
    (steps : ∀ key head, head ∈ next key ↔ step key head) {depth count : Nat}
    (within : count ≤ depth + 1)
    : key ∈ ((layers next depth [seed] [seed]).take count).flatten
      ↔ ∃ distance < count, Distance step seed key distance := by
  have atSeed (key : String) : key ∈ [seed] ↔ Distance step seed key 0 := by
    rw [distance_zero_iff, List.mem_singleton]
  have isSeen (key : String) : key ∈ [seed] ↔ ∃ lower ≤ 0, Distance step seed key lower := by
    simp [distance_zero_iff]
  simpa using mem_take_layers_iff steps within atSeed isSeen

end GraphShell.Graph
