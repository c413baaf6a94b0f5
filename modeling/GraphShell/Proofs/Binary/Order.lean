import GraphShell.Binary.Arithmetic
import GraphShell.Proofs.Binary.Magnitudes

/-! Rounding keeps the order of what is rounded. So a greater factor has the greater product,
terms of one sign have a sum beyond them, and what stays below a finite number is finite. Among
numbers from zero up a further term takes nothing from a sum, and a greater first term makes no
sum smaller.
-/

namespace GraphShell.Binary

namespace Format

-----------------------------------------------------------------------------------------
-- Rounding
-----------------------------------------------------------------------------------------

variable (f : Format)

theorem position_mono {n m : Nat} (le : n ≤ m) : f.position n ≤ f.position m := by
  have below := f.units_position_le n
  have above := f.lt_units_position_succ m
  have order := f.units_strictMono.lt_iff_lt.mp ((below.trans le).trans_lt above)
  omega

/-- Of two quotients with one denominator the greater is not rounded to less: they have the same
middle to pass, or the greater one starts where the other cannot get beyond.
-/
theorem nearest_mono {numerator other : Nat} (le : numerator ≤ other) (denominator : Nat)
    : f.nearest numerator denominator ≤ f.nearest other denominator := by
  have order := f.position_mono (Nat.div_le_div_right (c := denominator) le)
  have high := f.nearest_le numerator denominator
  unfold nearest at *
  dsimp only at *
  generalize f.position (numerator / denominator) = below at *
  generalize f.position (other / denominator) = beyond at *
  rcases order.eq_or_lt with rfl | less
  · split_ifs <;> omega
  · split_ifs <;> omega

/-- Numerator and denominator may be multiplied alike. -/
theorem nearest_mul_right {factor : Nat} (positive : 0 < factor) (numerator denominator : Nat)
    : f.nearest (numerator * factor) (denominator * factor) = f.nearest numerator denominator := by
  unfold nearest
  dsimp only
  rw [Nat.mul_div_mul_right _ _ positive, ← Nat.mul_assoc, ← Nat.mul_assoc]
  simp only [Nat.mul_lt_mul_right positive]

/-- Of two quotients with one numerator the one by more is not rounded to more. -/
theorem nearest_antitone {denominator other : Nat} (positive : 0 < denominator)
    (le : denominator ≤ other) (numerator : Nat)
    : f.nearest numerator other ≤ f.nearest numerator denominator := by
  calc f.nearest numerator other
      = f.nearest (numerator * denominator) (other * denominator) :=
        (f.nearest_mul_right positive numerator other).symm
    _ ≤ f.nearest (numerator * other) (other * denominator) :=
        f.nearest_mono (Nat.mul_le_mul_left _ le) _
    _ = f.nearest (numerator * other) (denominator * other) := by rw [Nat.mul_comm other]
    _ = f.nearest numerator denominator :=
        f.nearest_mul_right (positive.trans_le le) numerator denominator

end Format

namespace Number

-----------------------------------------------------------------------------------------
-- Products and quotients
-----------------------------------------------------------------------------------------

variable {f g : Format} {x y : Number f}

theorem mul_of_isFinite (left : x.isFinite = true) (right : y.isFinite = true)
    : x * y = ofQuotient (x.negative != y.negative) (x.magnitudeUnits * y.magnitudeUnits)
        (2 ^ f.scale) := by
  refine (if_neg (by simp [isNaN_of_isFinite left])).trans ?_
  refine (if_neg (by simp [isNaN_of_isFinite right])).trans ?_
  exact if_pos (by simp [left, right])

theorem div_of_isFinite (left : x.isFinite = true) (right : y.isFinite = true)
    (nonzero : y.isZero = false)
    : x / y = ofQuotient (x.negative != y.negative) (x.magnitudeUnits * 2 ^ f.scale)
        y.magnitudeUnits := by
  refine (if_neg (by simp [isNaN_of_isFinite left])).trans ?_
  refine (if_neg (by simp [isNaN_of_isFinite right])).trans ?_
  refine (if_pos left).trans ((if_neg (by simp [right])).trans ?_)
  exact if_neg (by simp [nonzero])

theorem div_of_infinite (left : x.isFinite = true) (number : y.isNaN = false)
    (infinite : y.isFinite = false)
    : x / y = zero (x.negative != y.negative) := by
  refine (if_neg (by simp [isNaN_of_isFinite left])).trans ?_
  exact (if_neg (by simp [number])).trans ((if_pos left).trans (if_pos (by simp [infinite])))

theorem isZero_iff_units : x.isZero = true ↔ x.magnitudeUnits = 0 := by
  rw [isZero, beq_iff_eq, magnitudeUnits]
  exact (f.units_strictMono.injective.eq_iff' f.units_zero).symm

theorem isZero_of_units (positive : 0 < x.magnitudeUnits) : x.isZero = false :=
  Bool.eq_false_iff.mpr fun zero => positive.ne' (isZero_iff_units.mp zero)

theorem isFinite_of_le (le : x.magnitude ≤ y.magnitude) (finite : y.isFinite = true)
    : x.isFinite = true := by
  simp only [isFinite, decide_eq_true_eq] at *
  omega

theorem magnitude_le_of_infinite (finite : x.isFinite = true) (infinite : y.isFinite = false)
    : x.magnitude ≤ y.magnitude := by
  simp only [isFinite, decide_eq_true_eq, decide_eq_false_iff_not] at *
  omega

theorem magnitudeUnits_mono (le : x.magnitude ≤ y.magnitude)
    : x.magnitudeUnits ≤ y.magnitudeUnits :=
  f.units_strictMono.monotone le

/-- A quotient that is at most a finite number is not rounded past it. -/
theorem nearest_le_magnitude {numerator denominator : Nat} (positive : 0 < denominator)
    (finite : x.isFinite = true) (le : numerator ≤ x.magnitudeUnits * denominator)
    : f.nearest numerator denominator ≤ x.magnitude :=
  (f.nearest_mono le denominator).trans
    (f.nearest_units_mul positive (of_decide_eq_true finite)).le

/-- A finite number is no greater than what a greater number of units is rounded to. -/
theorem magnitude_le_nearest {numerator : Nat} (finite : x.isFinite = true)
    (le : x.magnitudeUnits ≤ numerator)
    : x.magnitude ≤ f.nearest numerator 1 := by
  have below : x.magnitude < f.infinity := of_decide_eq_true finite
  calc x.magnitude
      = f.nearest (x.magnitudeUnits * 1) 1 := (f.nearest_units_mul Nat.one_pos below).symm
    _ ≤ f.nearest numerator 1 := f.nearest_mono (by omega) 1

theorem isNaN_ofNat (n : Nat) : (ofNat n : Number f).isNaN = false :=
  decide_eq_false (Nat.not_lt.mpr (f.nearest_le _ _))

theorem magnitude_ofNat_mono {n m : Nat} (le : n ≤ m)
    : (ofNat n : Number f).magnitude ≤ (ofNat m : Number f).magnitude :=
  f.nearest_mono (Nat.mul_le_mul_right _ le) 1

theorem magnitudeUnits_one : (1 : Double).magnitudeUnits = 2 ^ Format.double.scale := by
  decide +kernel

/-- Greater factors have the greater product. -/
theorem magnitude_mul_mono {left right : Number f} (first : x.magnitude ≤ left.magnitude)
    (second : y.magnitude ≤ right.magnitude) (finite : left.isFinite = true)
    (other : right.isFinite = true)
    : (x * y).magnitude ≤ (left * right).magnitude := by
  rw [mul_of_isFinite (isFinite_of_le first finite) (isFinite_of_le second other),
    mul_of_isFinite finite other]
  exact f.nearest_mono
    (Nat.mul_le_mul (magnitudeUnits_mono first) (magnitudeUnits_mono second)) _

/-- A quotient by one or more is no greater than what is divided. -/
theorem magnitude_div_le (finite : x.isFinite = true) (number : y.isNaN = false)
    (one : 2 ^ f.scale ≤ y.magnitudeUnits)
    : (x / y).magnitude ≤ x.magnitude := by
  cases bounded : y.isFinite with
  | true =>
      have positive : 0 < y.magnitudeUnits := (Nat.two_pow_pos _).trans_le one
      rw [div_of_isFinite finite bounded (isZero_of_units positive)]
      exact nearest_le_magnitude positive finite (Nat.mul_le_mul_left _ one)
  | false =>
      rw [div_of_infinite finite number bounded]
      exact Nat.zero_le _

theorem negative_div (finite : x.isFinite = true) (number : y.isNaN = false)
    (nonzero : y.isZero = false)
    : (x / y).negative = (x.negative != y.negative) := by
  cases bounded : y.isFinite with
  | true => rw [div_of_isFinite finite bounded nonzero, ofQuotient]
  | false => rw [div_of_infinite finite number bounded, zero]

/-- A quotient by something that is no less is at most one. -/
theorem magnitude_div_le_one {x y : Double} (finite : x.isFinite = true) (number : y.isNaN = false)
    (nonzero : y.isZero = false) (le : x.magnitude ≤ y.magnitude)
    : (x / y).magnitude ≤ (1 : Double).magnitude := by
  cases bounded : y.isFinite with
  | true =>
      have positive : 0 < y.magnitudeUnits :=
        Nat.pos_of_ne_zero (isZero_iff_units.not.mp (by simp [nonzero]))
      rw [div_of_isFinite finite bounded nonzero]
      refine nearest_le_magnitude positive (by decide +kernel) ?_
      rw [magnitudeUnits_one, Nat.mul_comm]
      exact Nat.mul_le_mul_left _ (magnitudeUnits_mono le)
  | false =>
      rw [div_of_infinite finite number bounded]
      exact Nat.zero_le _

/-- What is converted to another format stays in order. -/
theorem magnitude_convert_mono (le : x.magnitude ≤ y.magnitude) (finite : y.isFinite = true)
    : (x.convert g).magnitude ≤ (y.convert g).magnitude := by
  have small := isFinite_of_le le finite
  simp only [convert, isNaN_of_isFinite small, isNaN_of_isFinite finite, small, finite]
  exact g.nearest_mono (Nat.mul_le_mul_right _ (magnitudeUnits_mono le)) _

-----------------------------------------------------------------------------------------
-- Sums
-----------------------------------------------------------------------------------------

/-- Zero, or a number of the sign. -/
def Sided (negative : Bool) (x : Number f) : Prop :=
  x.isZero = true ∨ x.negative = negative

theorem Sided.units_eq {negative : Bool} (sided : x.Sided negative)
    : x.units = if negative then -(x.magnitudeUnits : Int) else x.magnitudeUnits := by
  rcases sided with zero | rfl
  · simp [units, isZero_iff_units.mp zero]
  · rfl

theorem Sided.convert {negative : Bool} (sided : x.Sided negative) (embeds : f.Embeds g)
    (finite : x.isFinite = true)
    : (x.convert g).Sided negative := by
  obtain ⟨-, sign, units⟩ := magnitudeUnits_convert embeds finite
  refine sided.imp (fun zero => ?_) sign.trans
  rw [isZero_iff_units, units, isZero_iff_units.mp zero, Nat.zero_mul]

theorem add_of_isFinite (left : x.isFinite = true) (right : y.isFinite = true)
    : x + y = if x.units + y.units = 0 then zero (x.negative && y.negative)
      else ofQuotient (x.units + y.units < 0) (x.units + y.units).natAbs 1 := by
  refine (if_neg (by simp [isNaN_of_isFinite left])).trans ?_
  refine (if_neg (by simp [isNaN_of_isFinite right])).trans ?_
  exact (if_pos left).trans (if_pos right)

theorem add_of_infinite_right (left : x.isFinite = true) (number : y.isNaN = false)
    (infinite : y.isFinite = false)
    : x + y = y := by
  refine (if_neg (by simp [isNaN_of_isFinite left])).trans ?_
  exact (if_neg (by simp [number])).trans ((if_pos left).trans (if_neg (by simp [infinite])))

theorem add_of_infinite_left (number : x.isNaN = false) (infinite : x.isFinite = false)
    (right : y.isFinite = true)
    : x + y = x := by
  refine (if_neg (by simp [number])).trans ?_
  refine (if_neg (by simp [isNaN_of_isFinite right])).trans ?_
  exact (if_neg (by simp [infinite])).trans (if_pos (by simp [right]))

section

variable {negative : Bool} (first : x.Sided negative) (second : y.Sided negative)

include first second

/-- Finite terms of one sign have a sum of that sign, with their units added and rounded. -/
theorem Sided.add_of_isFinite (left : x.isFinite = true) (right : y.isFinite = true)
    : (x + y).Sided negative
      ∧ (x + y).magnitude = f.nearest (x.magnitudeUnits + y.magnitudeUnits) 1 := by
  have total : x.units + y.units
      = if negative then -((x.magnitudeUnits + y.magnitudeUnits : Nat) : Int)
        else (x.magnitudeUnits + y.magnitudeUnits : Nat) := by
    rw [first.units_eq, second.units_eq]
    split <;> omega
  have natural : (x.units + y.units).natAbs = x.magnitudeUnits + y.magnitudeUnits := by
    rw [total]
    split <;> omega
  rw [Number.add_of_isFinite left right]
  split
  · next nothing =>
      have none : x.magnitudeUnits + y.magnitudeUnits = f.units 0 * 1 := by
        rw [← natural, nothing, f.units_zero]
        rfl
      have below : 0 < f.infinity := (Nat.zero_le _).trans_lt (of_decide_eq_true left)
      refine ⟨.inl rfl, ?_⟩
      rw [none, f.nearest_units_mul Nat.one_pos below]
      rfl
  · next something =>
      have sign : decide (x.units + y.units < 0) = negative := by
        rw [total] at something ⊢
        cases negative <;> simp at something ⊢ <;> omega
      exact ⟨.inr sign, congrArg (f.nearest · 1) natural⟩

/-- A sum of terms of one sign stays within a number that has as many units as both. -/
theorem Sided.magnitude_add_le {bound : Number f} (left : x.isFinite = true)
    (right : y.isFinite = true) (finite : bound.isFinite = true)
    (le : x.magnitudeUnits + y.magnitudeUnits ≤ bound.magnitudeUnits)
    : (x + y).magnitude ≤ bound.magnitude := by
  rw [(first.add_of_isFinite second left right).2]
  refine nearest_le_magnitude Nat.one_pos finite ?_
  rwa [Nat.mul_one]

/-- Terms of one sign have a sum of that sign beyond both of them, even where the sum is infinite
already.
-/
theorem Sided.add (number : x.isNaN = false) (other : y.isNaN = false)
    (some : x.isFinite = true ∨ y.isFinite = true)
    : (x + y).Sided negative
      ∧ (x + y).isNaN = false
      ∧ x.magnitude ≤ (x + y).magnitude
      ∧ y.magnitude ≤ (x + y).magnitude := by
  cases left : x.isFinite with
  | true =>
      cases right : y.isFinite with
      | true =>
          obtain ⟨sided, rounded⟩ := first.add_of_isFinite second left right
          refine ⟨sided, ?_, ?_, ?_⟩
          · rw [isNaN, rounded]
            exact decide_eq_false (Nat.not_lt.mpr (f.nearest_le _ _))
          · exact rounded ▸ magnitude_le_nearest left (Nat.le_add_right _ _)
          · exact rounded ▸ magnitude_le_nearest right (Nat.le_add_left _ _)
      | false =>
          rw [add_of_infinite_right left other right]
          exact ⟨second, other, magnitude_le_of_infinite left right, le_rfl⟩
  | false =>
      have right : y.isFinite = true := some.resolve_left (by simp [left])
      rw [add_of_infinite_left number left right]
      exact ⟨first, number, le_rfl, magnitude_le_of_infinite right left⟩

end

/-- One and something that is not negative are positive, and at least one. -/
theorem one_add {y : Double} (positive : y.negative = false) (number : y.isNaN = false)
    : (1 + y).negative = false
      ∧ (1 + y).isNaN = false
      ∧ (1 + y).isZero = false
      ∧ 2 ^ Format.double.scale ≤ (1 + y).magnitudeUnits := by
  have one : (1 : Double).isFinite = true := by decide +kernel
  obtain ⟨sided, total, le, -⟩ :=
    Sided.add (.inr rfl : (1 : Double).Sided false) (.inr positive) (isNaN_of_isFinite one) number
      (.inl one)
  have units : 2 ^ Format.double.scale ≤ (1 + y).magnitudeUnits :=
    magnitudeUnits_one ▸ magnitudeUnits_mono le
  have nonzero := isZero_of_units ((Nat.two_pow_pos Format.double.scale).trans_le units)
  exact ⟨sided.resolve_left (by simp [nonzero]), total, nonzero, units⟩

end Number

-----------------------------------------------------------------------------------------
-- Doubles rounded to single precision
-----------------------------------------------------------------------------------------

/-- A double that is finite, and still is when it is rounded to single precision. -/
def FitsSingle (x : Double) : Prop :=
  x.isFinite = true ∧ (x.convert .single).isFinite = true

instance (x : Double) : Decidable (FitsSingle x) :=
  inferInstanceAs (Decidable (_ ∧ _))

theorem FitsSingle.of_le {x y : Double} (le : x.magnitude ≤ y.magnitude) (fits : FitsSingle y)
    : FitsSingle x :=
  ⟨Number.isFinite_of_le le fits.1,
    Number.isFinite_of_le (Number.magnitude_convert_mono le fits.1) fits.2⟩

namespace Number

-----------------------------------------------------------------------------------------
-- Sums from zero up
-----------------------------------------------------------------------------------------

variable {f : Format} {x y z : Number f}

/-- Numeric order or equality; false when either side is not a number. -/
def le (x y : Number f) : Bool :=
  !x.isNaN && !y.isNaN && x.place ≤ y.place

/-- A number from positive zero up, infinity included. -/
structure Unsigned (x : Number f) : Prop where
  sign : x.negative = false
  number : x.isNaN = false

theorem unsigned_zero : (zero false : Number f).Unsigned :=
  ⟨rfl, isNaN_zero false⟩

theorem Unsigned.rank_eq (unsigned : x.Unsigned) : x.rank = x.magnitude := by
  simp [rank, unsigned.sign]

theorem Unsigned.eq_of_magnitude_eq (left : x.Unsigned) (right : y.Unsigned)
    (same : x.magnitude = y.magnitude)
    : x = y := by
  obtain ⟨_, _, _⟩ := x
  obtain ⟨_, _, _⟩ := y
  obtain rfl := left.sign.trans right.sign.symm
  obtain rfl := same
  rfl

theorem Unsigned.lt_iff (left : x.Unsigned) (right : y.Unsigned)
    : x.lt y = true ↔ x.magnitude < y.magnitude := by
  simp [lt, place, left.sign, left.number, right.sign, right.number]

theorem Unsigned.le_iff (left : x.Unsigned) (right : y.Unsigned)
    : x.le y = true ↔ x.magnitude ≤ y.magnitude := by
  simp [le, place, left.sign, left.number, right.sign, right.number]

/-- No sign comes in with a sum, whether it is exact, rounded or infinite. -/
theorem negative_add (first : x.Unsigned) (second : y.Unsigned) (finite : y.isFinite = true)
    : (x + y).negative = false := by
  cases left : x.isFinite with
  | true =>
      rw [add_of_isFinite left finite]
      split
      · rw [first.sign]
        rfl
      · have positive : 0 ≤ x.units + y.units := by
          simp only [units, first.sign, second.sign, Bool.false_eq_true, if_false]
          omega
        exact decide_eq_false (Int.not_lt.mpr positive)
  | false =>
      rw [add_of_infinite_left first.number left finite]
      exact first.sign

/-- A term from zero up is added to no effect or makes the sum greater. -/
theorem Unsigned.add (first : x.Unsigned) (second : y.Unsigned) (finite : y.isFinite = true)
    : (x + y).Unsigned ∧ x.magnitude ≤ (x + y).magnitude := by
  obtain ⟨-, number, beyond, -⟩ :=
    Sided.add (.inr first.sign) (.inr second.sign) first.number second.number (.inr finite)
  exact ⟨⟨negative_add first second finite, number⟩, beyond⟩

theorem Unsigned.magnitude_le_infinity (unsigned : x.Unsigned) : x.magnitude ≤ f.infinity := by
  simpa [isNaN] using unsigned.number

/-- Sums are in the order of their first terms if they share the second one. -/
theorem Unsigned.add_mono (first : x.Unsigned) (other : z.Unsigned) (second : y.Unsigned)
    (finite : y.isFinite = true) (le : x.magnitude ≤ z.magnitude)
    : (x + y).magnitude ≤ (z + y).magnitude := by
  cases bounded : z.isFinite with
  | true =>
      have left : x.isFinite = true := isFinite_of_le le bounded
      have lesser := Sided.add_of_isFinite (.inr first.sign) (.inr second.sign) left finite
      have greater := Sided.add_of_isFinite (.inr other.sign) (.inr second.sign) bounded finite
      rw [lesser.2, greater.2]
      exact f.nearest_mono (Nat.add_le_add_right (magnitudeUnits_mono le) _) 1
  | false =>
      have infinite : f.infinity ≤ z.magnitude := by simpa [isFinite] using bounded
      rw [add_of_infinite_left other.number bounded finite]
      exact (first.add second finite).1.magnitude_le_infinity.trans infinite

end Number

end GraphShell.Binary
