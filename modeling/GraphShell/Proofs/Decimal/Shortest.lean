import GraphShell.Decimal.Notation
import GraphShell.Proofs.Binary.Magnitudes

/-! The digits that are written for a number stand for a point of its neighbourhood, so that
rounding the point leads back to the number. There are few of them, as no coarser place has
a point in there.
-/

namespace GraphShell.Decimal

open Binary

namespace Neighbourhood

variable {n : Neighbourhood} {tie : Tie} {unit digits point top : Nat}

-----------------------------------------------------------------------------------------
-- Multiples
-----------------------------------------------------------------------------------------

/-- The value is between the ends. -/
structure Ordered (n : Neighbourhood) : Prop where
  low_lt : n.low < n.value
  lt_high : n.value < n.high

theorem contains_iff
    : n.contains point = true
      ↔ n.low ≤ point ∧ point ≤ n.high ∧ (point = n.low ∨ point = n.high → n.closed = true) := by
  unfold contains
  split
  · next closed => simp [closed]
  · next open_ =>
      simp only [Bool.and_eq_true, decide_eq_true_eq, open_, Bool.false_eq_true, imp_false,
        not_or]
      omega

theorem Ordered.contains_value (ordered : n.Ordered) : n.contains n.value = true := by
  obtain ⟨low, high⟩ := ordered
  rw [contains_iff]
  omega

theorem contains_of_multiple? (found : n.multiple? tie unit = some digits)
    : n.contains (digits * unit) = true := by
  unfold multiple? at found
  dsimp only at found
  split at found
  · next below above =>
      split at found
      · exact Option.some.inj found ▸ below
      split at found
      · exact Option.some.inj found ▸ above
      split at found
      · exact Option.some.inj found ▸ above
      · -- the even one of the two
        rcases Nat.mod_two_eq_zero_or_one (n.value / unit) with even | odd
        · rw [even] at found
          exact Option.some.inj found ▸ below
        · rw [odd] at found
          exact Option.some.inj found ▸ above
  · next below _ => exact Option.some.inj found ▸ below
  · next _ above => exact Option.some.inj found ▸ above
  · cases found

/-- A neighbourhood without a multiple lies between two of them. -/
theorem high_le_of_multiple? (ordered : n.Ordered) (positive : 0 < unit)
    (none : n.multiple? tie unit = none)
    : n.high ≤ n.low + unit := by
  obtain ⟨low, high⟩ := ordered
  have below := Nat.div_mul_le_self n.value unit
  have above := Nat.lt_mul_div_succ n.value positive
  rw [Nat.mul_comm] at above
  unfold multiple? at none
  dsimp only at none
  split at none
  · cases tie <;> split_ifs at none
  · cases none
  · cases none
  · next left right =>
      rw [← Bool.not_eq_true, contains_iff] at left right
      rw [Nat.succ_mul] at above right
      omega

/-- The place found has a multiple in the neighbourhood, and the next coarser one is wider, by
induction on the places from which the search goes down.
-/
theorem coarsest_spec (tie : Tie) (ordered : n.Ordered) (wide : n.high ≤ n.low + 10 ^ (top + 1))
    : n.contains ((n.coarsest tie top).1 * 10 ^ (n.coarsest tie top).2) = true
      ∧ n.high ≤ n.low + 10 ^ ((n.coarsest tie top).2 + 1)
      ∧ (n.coarsest tie top).2 ≤ top := by
  induction top with
  | zero => exact ⟨by simp [coarsest, ordered.contains_value], wide, Nat.le_refl _⟩
  | succ top ih =>
      cases found : n.multiple? tie (Nat.pow 10 (top + 1)) with
      | some digits =>
          simp only [coarsest, found]
          exact ⟨contains_of_multiple? found, wide, Nat.le_refl _⟩
      | none =>
          simp only [coarsest, found]
          obtain ⟨inside, next, below⟩ :=
            ih (high_le_of_multiple? ordered (Nat.pow_pos (by decide)) found)
          exact ⟨inside, next, below.trans (Nat.le_succ top)⟩

-----------------------------------------------------------------------------------------
-- Neighbourhoods of numbers
-----------------------------------------------------------------------------------------

variable {f : Format} {position : Nat}

theorem ordered_of (positive : 0 < position) : (Neighbourhood.of f position).Ordered := by
  obtain ⟨previous, rfl⟩ := Nat.exists_eq_succ_of_ne_zero positive.ne'
  have step : 0 < Nat.pow 5 (f.scale + 1) := Nat.pow_pos (by decide)
  have left := f.units_lt_succ previous
  have right := f.units_lt_succ (previous + 1)
  constructor
  · refine Nat.mul_lt_mul_of_pos_right ?_ step
    rw [Nat.succ_eq_add_one, Nat.add_sub_cancel]
    omega
  · refine Nat.mul_lt_mul_of_pos_right ?_ step
    rw [Nat.succ_eq_add_one]
    omega

theorem low_pos_of (positive : 0 < position) : 0 < (Neighbourhood.of f position).low := by
  have here : f.units 0 < f.units position := f.units_strictMono positive
  exact Nat.mul_pos (by omega) (Nat.pow_pos (by decide))

/-- The ends of a neighbourhood are far apart, compared with what they are. -/
theorem high_le_of (f : Format) (position : Nat)
    : let n := Neighbourhood.of f position
      n.high ≤ 4 * f.binade * (n.high - n.low) := by
  have gap := f.units_succ_le position
  have here := f.units_lt_succ position
  have previous := f.units_strictMono.monotone (Nat.sub_le position 1)
  simp only [Neighbourhood.of, ← Nat.sub_mul, ← Nat.mul_assoc]
  refine Nat.mul_le_mul_right _ ?_
  calc f.units position + f.units (position + 1)
      ≤ 2 * f.units (position + 1) := by omega
    _ ≤ 2 * (2 * f.binade * (f.units (position + 1) - f.units position)) :=
        Nat.mul_le_mul_left 2 gap
    _ = 4 * f.binade * (f.units (position + 1) - f.units position) := by ring
    _ ≤ _ := Nat.mul_le_mul_left _ (by omega)

/-- A quotient whose point is in the neighbourhood of a position is rounded to it. -/
theorem nearest_eq_of_contains {numerator denominator : Nat} (positive : 0 < denominator)
    (finite : position < f.infinity)
    (inside : (Neighbourhood.of f position).contains point = true)
    (same : 2 * numerator * 5 ^ (f.scale + 1) = point * denominator)
    : f.nearest numerator denominator = position := by
  obtain ⟨low, high, ends⟩ := contains_iff.mp inside
  have step : 0 < 5 ^ (f.scale + 1) := Nat.pow_pos (by decide)
  have scaled (sum : Nat) : sum * denominator * 5 ^ (f.scale + 1)
      = sum * 5 ^ (f.scale + 1) * denominator := Nat.mul_right_comm ..
  refine f.nearest_eq positive finite ?_ ?_ ?_
  · refine Nat.le_of_mul_le_mul_right ?_ step
    rw [scaled, same]
    exact Nat.mul_le_mul_right denominator low
  · refine Nat.le_of_mul_le_mul_right ?_ step
    rw [scaled, same]
    exact Nat.mul_le_mul_right denominator high
  · intro middle
    refine of_decide_eq_true (ends ?_)
    refine middle.imp (fun left => ?_) fun right => ?_
    · refine Nat.eq_of_mul_eq_mul_right positive ?_
      rw [← same, ← left, scaled]
      rfl
    · refine Nat.eq_of_mul_eq_mul_right positive ?_
      rw [← same, right, scaled]
      rfl

end Neighbourhood

-----------------------------------------------------------------------------------------
-- Fewest digits
-----------------------------------------------------------------------------------------

variable {f : Format}

theorem lt_ten_pow_log2 (n : Nat) : n < 10 ^ (n.log2 / 3 + 1) := by
  calc n < 2 ^ (n.log2 + 1) := Nat.lt_log2_self
    _ ≤ 2 ^ (3 * (n.log2 / 3 + 1)) := Nat.pow_le_pow_right (by decide) (by omega)
    _ = 8 ^ (n.log2 / 3 + 1) := by rw [Nat.pow_mul]
    _ ≤ 10 ^ (n.log2 / 3 + 1) := Nat.pow_le_pow_left (by decide) _

@[simp]
theorem negative_shortest (tie : Tie) (x : Number f) : (shortest tie x).negative = x.negative := by
  unfold shortest
  split <;> rfl

/-- What is written for a number: digits that stand for a point of its neighbourhood. -/
structure Shortest (x : Number f) (digits place : Nat) : Prop where
  inside : (Neighbourhood.of f x.magnitude).contains (digits * 10 ^ place) = true
  some : 0 < digits
  few : digits ≤ 40 * f.binade
  low : place ≤ (Neighbourhood.of f x.magnitude).high.log2 / 3 + 1

theorem exists_shortest (tie : Tie) {x : Number f} (nonzero : x.isZero = false)
    : ∃ digits place : Nat,
        shortest tie x = ⟨x.negative, digits, (place : Int) - (f.scale + 1)⟩
        ∧ Shortest x digits place := by
  have positive : 0 < x.magnitude := by simpa [Number.isZero, Nat.pos_iff_ne_zero] using nonzero
  have ordered := Neighbourhood.ordered_of (f := f) positive
  have gap := Neighbourhood.high_le_of f x.magnitude
  have front := Neighbourhood.low_pos_of (f := f) positive
  generalize around : Neighbourhood.of f x.magnitude = n at ordered gap front
  have wide : n.high ≤ n.low + 10 ^ (n.high.log2 / 3 + 1 + 1) := by
    have bound := lt_ten_pow_log2 n.high
    rw [Nat.pow_succ]
    omega
  obtain ⟨inside, next, low⟩ := Neighbourhood.coarsest_spec tie ordered wide
  refine ⟨_, _, ?_, around ▸ inside, ?_, ?_, around ▸ low⟩
  · rw [shortest, if_neg (by simp [nonzero])]
  · rw [around]
    have point := (Neighbourhood.contains_iff.mp inside).1
    exact Nat.pos_of_mul_pos_right (front.trans_le point)
  · rw [around]
    have reach : n.high - n.low ≤ _ := Nat.sub_le_iff_le_add'.mpr next
    have apart : 0 < n.high - n.low := Nat.sub_pos_of_lt (ordered.low_lt.trans ordered.lt_high)
    refine Nat.le_of_mul_le_mul_right ?_ apart
    have within := (Neighbourhood.contains_iff.mp inside).2.1
    rw [Nat.pow_succ] at reach
    calc (n.coarsest tie _).1 * (n.high - n.low)
        ≤ (n.coarsest tie _).1 * (10 ^ (n.coarsest tie _).2 * 10) := Nat.mul_le_mul_left _ reach
      _ = (n.coarsest tie _).1 * 10 ^ (n.coarsest tie _).2 * 10 := (Nat.mul_assoc ..).symm
      _ ≤ n.high * 10 := Nat.mul_le_mul_right _ within
      _ ≤ 4 * f.binade * (n.high - n.low) * 10 := Nat.mul_le_mul_right _ gap
      _ = 40 * f.binade * (n.high - n.low) := by ring

/-- Only zero is written without digits, and then without a power of ten. -/
theorem exponent_shortest_of_zero {tie : Tie} {x : Number f}
    (none : (shortest tie x).significand = 0)
    : (shortest tie x).exponent = 0 := by
  cases zero : x.isZero with
  | true => rw [shortest, if_pos zero]
  | false =>
      obtain ⟨digits, place, written, near⟩ := exists_shortest tie zero
      rw [written] at none
      exact absurd none near.some.ne'

end GraphShell.Decimal
