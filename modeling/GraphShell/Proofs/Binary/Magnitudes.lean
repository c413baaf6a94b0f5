import GraphShell.Binary.Arithmetic
import Mathlib.Order.Monotone.Basic
import Mathlib.Tactic.Ring

/-! The magnitudes of a binary format by their positions: they rise with the position, and what
has few enough significant bits is one of them, so that rounding leaves it alone.
-/

namespace GraphShell.Binary

namespace Format

variable (f : Format)

theorem binade_eq : f.binade = 2 ^ f.fractionBits := rfl

theorem binade_pos : 0 < f.binade := Nat.two_pow_pos f.fractionBits

-----------------------------------------------------------------------------------------
-- Magnitudes
-----------------------------------------------------------------------------------------

/-- A magnitude is a significand of at most two binades, doubled some times; a smaller
significand than one binade is not doubled.
-/
theorem units_add {doublings significand : Nat}
    (normal : doublings = 0 ∨ f.binade ≤ significand) (high : significand ≤ 2 * f.binade)
    : f.units (doublings * f.binade + significand) = significand * 2 ^ doublings := by
  have positive := f.binade_pos
  rcases Nat.lt_or_ge significand f.binade with low | low
  · obtain rfl : doublings = 0 := by omega
    simp [units, Nat.div_eq_of_lt low]
  · rcases Nat.lt_or_ge significand (2 * f.binade) with small | full
    · have quotient : significand / f.binade = 1 :=
        Nat.div_eq_of_lt_le (by omega) (by omega)
      have place : (doublings * f.binade + significand) / f.binade = doublings + 1 := by
        rw [Nat.mul_comm, Nat.mul_add_div positive, quotient]
      simp [units, place]
    · -- twice a binade is the first significand of the next doubling
      obtain rfl : significand = 2 * f.binade := by omega
      have place : (doublings * f.binade + 2 * f.binade) / f.binade = doublings + 2 := by
        rw [← Nat.add_mul, Nat.mul_div_cancel _ positive]
      have rest : doublings * f.binade + 2 * f.binade - (doublings + 1) * f.binade
          = f.binade := by
        rw [← Nat.add_mul, ← Nat.sub_mul]
        simp
      simp only [units, place, Nat.reduceSubDiff, rest, Nat.pow_eq]
      ring

theorem units_zero : f.units 0 = 0 := by
  simp [units]

/-- Every position is told by a significand and a number of doublings. -/
theorem exists_position_eq (position : Nat)
    : ∃ doublings significand,
        position = doublings * f.binade + significand
        ∧ (doublings = 0 ∨ f.binade ≤ significand)
        ∧ significand < 2 * f.binade := by
  have positive := f.binade_pos
  have split := Nat.div_add_mod' position f.binade
  have small := Nat.mod_lt position positive
  cases quotient : position / f.binade with
  | zero =>
      rw [quotient] at split
      exact ⟨0, position, by omega, .inl rfl, by omega⟩
  | succ doublings =>
      rw [quotient, Nat.add_mul] at split
      exact ⟨doublings, f.binade + position % f.binade, by omega, .inr (by omega), by omega⟩

theorem units_lt_succ (position : Nat) : f.units position < f.units (position + 1) := by
  obtain ⟨doublings, significand, rfl, normal, small⟩ := f.exists_position_eq position
  rw [Nat.add_assoc, f.units_add normal (by omega), f.units_add (by omega) (by omega),
    Nat.succ_mul]
  exact Nat.lt_add_of_pos_right (Nat.two_pow_pos doublings)

theorem units_strictMono : StrictMono f.units :=
  strictMono_nat_of_lt_succ f.units_lt_succ

/-- The gap behind a magnitude is not much smaller than the magnitude. -/
theorem units_succ_le (position : Nat)
    : f.units (position + 1) ≤ 2 * f.binade * (f.units (position + 1) - f.units position) := by
  obtain ⟨doublings, significand, rfl, normal, small⟩ := f.exists_position_eq position
  rw [Nat.add_assoc, f.units_add normal (by omega), f.units_add (by omega) (by omega),
    ← Nat.sub_mul, Nat.add_sub_cancel_left, Nat.one_mul]
  exact Nat.mul_le_mul_right _ small

-----------------------------------------------------------------------------------------
-- Positions
-----------------------------------------------------------------------------------------

/-- How often the significand of the greatest magnitude up to a number is doubled. -/
def doublings (n : Nat) : Nat :=
  n.log2 - f.fractionBits

/-- The significand of the greatest magnitude up to a number. -/
def significand (n : Nat) : Nat :=
  n / 2 ^ f.doublings n

theorem position_eq (n : Nat)
    : f.position n = f.doublings n * f.binade + f.significand n := rfl

theorem significand_lt (n : Nat) : f.significand n < 2 * f.binade := by
  rw [significand, Nat.div_lt_iff_lt_mul (Nat.two_pow_pos _), binade_eq, ← Nat.pow_succ',
    ← Nat.pow_add]
  refine Nat.lt_of_lt_of_le Nat.lt_log2_self (Nat.pow_le_pow_right (by decide) ?_)
  unfold doublings
  omega

theorem significand_normal (n : Nat) : f.doublings n = 0 ∨ f.binade ≤ f.significand n := by
  rcases Nat.eq_zero_or_pos (f.doublings n) with none | some
  · exact .inl none
  · have nonzero : n ≠ 0 := by
      rintro rfl
      simp [doublings] at some
    have exponent : f.fractionBits + f.doublings n = n.log2 := by
      unfold doublings at some ⊢
      omega
    refine .inr ?_
    rw [significand, Nat.le_div_iff_mul_le (Nat.two_pow_pos _), binade_eq, ← Nat.pow_add,
      exponent]
    exact Nat.log2_self_le nonzero

/-- The greatest magnitude up to a number keeps its leading bits. -/
theorem units_position (n : Nat)
    : f.units (f.position n) = f.significand n * 2 ^ f.doublings n :=
  f.units_add (f.significand_normal n) (f.significand_lt n).le

theorem units_position_le (n : Nat) : f.units (f.position n) ≤ n := by
  rw [units_position]
  exact Nat.div_mul_le_self _ _

theorem lt_units_position_succ (n : Nat) : n < f.units (f.position n + 1) := by
  have normal := f.significand_normal n
  rw [position_eq, Nat.add_assoc, f.units_add (by omega) (f.significand_lt n)]
  rw [Nat.mul_comm]
  exact Nat.lt_mul_div_succ n (Nat.two_pow_pos _)

/-- A number with no more significant bits than fit is a magnitude. -/
theorem units_position_of_lt {bits shift : Nat} (few : bits < 2 * f.binade)
    : f.units (f.position (bits * 2 ^ shift)) = bits * 2 ^ shift := by
  have shifted : f.doublings (bits * 2 ^ shift) ≤ shift := by
    rcases Nat.eq_zero_or_pos bits with rfl | positive
    · simp [doublings]
    · have short : (bits * 2 ^ shift).log2 < f.fractionBits + 1 + shift := by
        rw [Nat.log2_lt (Nat.mul_ne_zero positive.ne' (Nat.two_pow_pos shift).ne'),
          Nat.pow_add, Nat.pow_succ']
        exact Nat.mul_lt_mul_of_pos_right few (Nat.two_pow_pos shift)
      unfold doublings
      omega
  rw [units_position, significand]
  exact Nat.div_mul_cancel ((Nat.pow_dvd_pow 2 shifted).mul_left bits)

-----------------------------------------------------------------------------------------
-- Rounding
-----------------------------------------------------------------------------------------

/-- A position is that of the numbers from its magnitude up to the next one. -/
theorem position_eq_of_le {position n : Nat} (low : f.units position ≤ n)
    (high : n < f.units (position + 1))
    : f.position n = position := by
  have below := f.units_position_le n
  have above := f.lt_units_position_succ n
  have left := f.units_strictMono.lt_iff_lt.mp (below.trans_lt high)
  have right := f.units_strictMono.lt_iff_lt.mp (low.trans_lt above)
  omega

/-- A quotient past the middle of the gap in front of a magnitude is rounded to it, and so is
one at the middle if the position is even.
-/
theorem nearest_eq_of_lt {position numerator denominator : Nat} (positive : 0 < denominator)
    (finite : position < f.infinity)
    (left : numerator < f.units position * denominator)
    (low : (f.units (position - 1) + f.units position) * denominator ≤ 2 * numerator)
    (even : (f.units (position - 1) + f.units position) * denominator = 2 * numerator
      → position % 2 = 0)
    : f.nearest numerator denominator = position := by
  obtain ⟨previous, rfl⟩ : ∃ previous, position = previous + 1 := by
    refine Nat.exists_eq_succ_of_ne_zero ?_
    rintro rfl
    simp [units_zero] at left
  rw [show previous + 1 - 1 = previous from rfl] at low even
  have below : numerator / denominator < f.units (previous + 1) := by
    rwa [Nat.div_lt_iff_lt_mul positive]
  have above : f.units previous ≤ numerator / denominator := by
    rw [Nat.le_div_iff_mul_le positive]
    have gap := Nat.mul_lt_mul_of_pos_right (f.units_lt_succ previous) positive
    rw [Nat.add_mul] at low
    omega
  rw [nearest, f.position_eq_of_le above below]
  dsimp only
  rw [if_neg (by omega), if_neg (by omega)]
  by_cases middle : (f.units previous + f.units (previous + 1)) * denominator = 2 * numerator
  · have parity := even middle
    rw [if_neg (by omega), if_neg (by omega)]
  · rw [if_pos (by omega)]

/-- A quotient from a magnitude on up to the middle of the gap behind it is rounded to it, and
so is one at the middle if the position is even.
-/
theorem nearest_eq_of_le {position numerator denominator : Nat} (positive : 0 < denominator)
    (finite : position < f.infinity)
    (right : f.units position * denominator ≤ numerator)
    (high : 2 * numerator ≤ (f.units position + f.units (position + 1)) * denominator)
    (even : 2 * numerator = (f.units position + f.units (position + 1)) * denominator
      → position % 2 = 0)
    : f.nearest numerator denominator = position := by
  have above : f.units position ≤ numerator / denominator := by
    rwa [Nat.le_div_iff_mul_le positive]
  have below : numerator / denominator < f.units (position + 1) := by
    rw [Nat.div_lt_iff_lt_mul positive]
    have gap := Nat.mul_lt_mul_of_pos_right (f.units_lt_succ position) positive
    rw [Nat.add_mul] at high
    omega
  rw [nearest, f.position_eq_of_le above below]
  dsimp only
  rw [if_neg (by omega)]
  by_cases middle : 2 * numerator = (f.units position + f.units (position + 1)) * denominator
  · have parity := even middle
    rw [if_neg (by omega), if_neg (by omega), if_pos parity]
  · rw [if_pos (by omega)]

/-- A quotient between the middles of the gaps beside a magnitude is rounded to it, and so is
one at a middle if the position is even.
-/
theorem nearest_eq {position numerator denominator : Nat} (positive : 0 < denominator)
    (finite : position < f.infinity)
    (low : (f.units (position - 1) + f.units position) * denominator ≤ 2 * numerator)
    (high : 2 * numerator ≤ (f.units position + f.units (position + 1)) * denominator)
    (even : (f.units (position - 1) + f.units position) * denominator = 2 * numerator
        ∨ 2 * numerator = (f.units position + f.units (position + 1)) * denominator
      → position % 2 = 0)
    : f.nearest numerator denominator = position := by
  rcases Nat.lt_or_ge numerator (f.units position * denominator) with left | right
  · exact f.nearest_eq_of_lt positive finite left low fun middle => even (.inl middle)
  · exact f.nearest_eq_of_le positive finite right high fun middle => even (.inr middle)

/-- A magnitude is rounded to itself, whatever the fraction that stands for it. -/
theorem nearest_units_mul {position denominator : Nat} (positive : 0 < denominator)
    (finite : position < f.infinity)
    : f.nearest (f.units position * denominator) denominator = position := by
  have gap := Nat.mul_lt_mul_of_pos_right (f.units_lt_succ position) positive
  refine f.nearest_eq_of_le positive finite le_rfl ?_ fun middle => ?_
  · rw [Nat.add_mul]
    omega
  · rw [Nat.add_mul] at middle
    omega

/-- Every magnitude of one format is one of the other. -/
structure Embeds (f g : Format) : Prop where
  bits : f.fractionBits ≤ g.fractionBits
  scale : f.scale ≤ g.scale
  range : f.units f.infinity * 2 ^ (g.scale - f.scale) ≤ g.units g.infinity

theorem single_embeds_double : Embeds .single .double where
  bits := by decide
  scale := by decide
  range := by decide +kernel

end Format

namespace Number

variable {f g : Format}

theorem isNaN_of_isFinite {x : Number f} (finite : x.isFinite = true) : x.isNaN = false := by
  simp only [isFinite, isNaN, decide_eq_true_eq, decide_eq_false_iff_not] at *
  omega

theorem isNaN_zero (negative : Bool) : (zero negative : Number f).isNaN = false := by
  simp [isNaN, zero]

/-- A quotient that is a number with few significant bits is not rounded. -/
theorem magnitudeUnits_ofQuotient {bits shift numerator denominator : Nat}
    (positive : 0 < denominator) (few : bits < 2 * f.binade)
    (inside : bits * 2 ^ shift < f.units f.infinity)
    (same : numerator = bits * 2 ^ shift * denominator) (negative : Bool)
    : (ofQuotient negative numerator denominator : Number f).isFinite = true
      ∧ (ofQuotient negative numerator denominator : Number f).magnitudeUnits
        = bits * 2 ^ shift := by
  have exact_ : f.units (f.position (bits * 2 ^ shift)) = bits * 2 ^ shift :=
    f.units_position_of_lt few
  have below : f.position (bits * 2 ^ shift) < f.infinity := by
    rwa [← f.units_strictMono.lt_iff_lt, exact_]
  have rounded : f.nearest numerator denominator = f.position (bits * 2 ^ shift) := by
    rw [same, ← exact_, f.nearest_units_mul positive below, exact_]
  constructor
  · simpa [isFinite, ofQuotient, rounded] using below
  · simp only [magnitudeUnits, ofQuotient, rounded, exact_]

/-- A whole number with few significant bits is not rounded. -/
theorem magnitudeUnits_ofNat {n bits shift : Nat} (same : n = bits * 2 ^ shift)
    (few : bits < 2 * f.binade) (inside : n * 2 ^ f.scale < f.units f.infinity)
    : (ofNat n : Number f).isFinite = true
      ∧ (ofNat n : Number f).magnitudeUnits = n * 2 ^ f.scale := by
  have shifted : n * 2 ^ f.scale = bits * 2 ^ (shift + f.scale) := by
    rw [same, Nat.pow_add, Nat.mul_assoc]
  rw [shifted] at inside ⊢
  refine magnitudeUnits_ofQuotient Nat.one_pos few inside ?_ false
  rw [Nat.mul_one, ← shifted]
  rfl

/-- What another format has a place for is converted exactly. -/
theorem magnitudeUnits_convert (embeds : f.Embeds g) {x : Number f} (finite : x.isFinite = true)
    : (x.convert g).isFinite = true
      ∧ (x.convert g).negative = x.negative
      ∧ (x.convert g).magnitudeUnits = x.magnitudeUnits * 2 ^ (g.scale - f.scale) := by
  have below : x.magnitude < f.infinity := by simpa [isFinite] using finite
  have converted : x.convert g
      = ofQuotient x.negative (x.magnitudeUnits * 2 ^ g.scale) (2 ^ f.scale) := by
    simp [convert, isNaN_of_isFinite finite, finite]
  obtain ⟨doublings, significand, position, normal, small⟩ :=
    f.exists_position_eq x.magnitude
  have few : significand < 2 * g.binade := by
    refine Nat.lt_of_lt_of_le small (Nat.mul_le_mul_left 2 ?_)
    exact Nat.pow_le_pow_right (by decide) embeds.bits
  have magnitude
      : x.magnitudeUnits * 2 ^ (g.scale - f.scale)
        = significand * 2 ^ (doublings + (g.scale - f.scale)) := by
    rw [magnitudeUnits, position, f.units_add normal small.le, Nat.pow_add, Nat.mul_assoc]
  have inside : significand * 2 ^ (doublings + (g.scale - f.scale)) < g.units g.infinity := by
    rw [← magnitude]
    refine Nat.lt_of_lt_of_le ?_ embeds.range
    exact Nat.mul_lt_mul_of_pos_right (f.units_strictMono below) (Nat.two_pow_pos _)
  have scaled
      : x.magnitudeUnits * 2 ^ g.scale
        = significand * 2 ^ (doublings + (g.scale - f.scale)) * 2 ^ f.scale := by
    rw [← magnitude, Nat.mul_assoc, ← Nat.pow_add, Nat.sub_add_cancel embeds.scale]
  obtain ⟨finite, units⟩ :=
    magnitudeUnits_ofQuotient (Nat.two_pow_pos _) few inside scaled x.negative
  rw [converted, magnitude]
  exact ⟨finite, rfl, units⟩

end Number

end GraphShell.Binary
