import GraphShell.Proofs.Binary.Order
import GraphShell.Proofs.Decimal.Shortest
import GraphShell.Proofs.Json.Words
import GraphShell.Scalar.Basic

/-! The digits that are written for a number are scaled back in doubles, by one power of ten or by
two. Whether this gives the number is a matter of that arithmetic alone, since no double is out of
its reach. It does in one step if neither the digits nor the power of ten are rounded; of longer
digits or of higher powers nothing like this holds.
-/

namespace GraphShell.Json

open Binary

-----------------------------------------------------------------------------------------
-- Written digits
-----------------------------------------------------------------------------------------

variable {f : Format}

/-- The digits of a format fit into 64 bits, and its powers of ten are read. -/
structure Readable (f : Format) : Prop where
  digits : 40 * f.binade < 10 ^ 19
  power : (2 * f.units f.infinity * 5 ^ (f.scale + 1)).log2 + f.scale + 30 ≤ exponentLimit

theorem readable_double : Readable .double where
  digits := by decide
  power := by decide +kernel

/-- The ends of a neighbourhood are within the format. -/
theorem high_le {x : Number f} (finite : x.isFinite = true)
    : (Decimal.Neighbourhood.of f x.magnitude).high
      ≤ 2 * f.units f.infinity * 5 ^ (f.scale + 1) := by
  have below : x.magnitude + 1 ≤ f.infinity := by
    simpa [Number.isFinite, Nat.succ_le_iff] using finite
  have here := f.units_strictMono.monotone ((Nat.le_succ _).trans below)
  have next := f.units_strictMono.monotone below
  refine Nat.mul_le_mul_right _ ?_
  omega

theorem log2_high_le (readable : Readable f) {x : Number f} (finite : x.isFinite = true)
    : (Decimal.Neighbourhood.of f x.magnitude).high.log2 + f.scale + 30 ≤ exponentLimit := by
  have power := readable.power
  have bound := high_le finite
  rcases Nat.eq_zero_or_pos (Decimal.Neighbourhood.of f x.magnitude).high with zero | positive
  · rw [zero, Nat.log2_zero]
    omega
  · have short := (Nat.log2_lt positive.ne').mpr (bound.trans_lt Nat.lt_log2_self)
    omega

theorem modest_shortest (readable : Readable f) (tie : Decimal.Tie) {x : Number f}
    (finite : x.isFinite = true)
    : (Decimal.shortest tie x).Modest := by
  cases nonzero : x.isZero with
  | true =>
      rw [Decimal.shortest, if_pos nonzero]
      refine ⟨(by decide : 0 < UInt64.size), ?_, fun _ => rfl⟩
      simp [Decimal.leadingPower, Text.numeral_of_lt]
  | false =>
      obtain ⟨digits, place, same, found⟩ := Decimal.exists_shortest tie nonzero
      have few := found.few.trans_lt readable.digits
      have length := Text.length_numeral_le few (by decide)
      have low := found.low
      have high := log2_high_le readable finite
      rw [same]
      refine ⟨few.trans (by decide), ?_, ?_⟩
      · unfold Decimal.leadingPower
        dsimp only
        omega
      · exact fun zero => absurd zero found.some.ne'

-----------------------------------------------------------------------------------------
-- Scaling as arithmetic
-----------------------------------------------------------------------------------------

/-- The digits of a decimal times its power of ten, in doubles, so that the digits, the power and
what is made of them are each rounded: a product, a quotient, or two quotients for a power that is
too low for one.
-/
def scaledDigits (d : Decimal) : Double :=
  let digits : Double := .ofNat d.significand
  if 0 ≤ d.exponent then digits * powerOfTen d.exponent.natAbs
  else if d.exponent.natAbs ≤ greatestPower then digits / powerOfTen d.exponent.natAbs
  else digits / powerOfTen greatestPower / powerOfTen (d.exponent + greatestPower).natAbs

/-- A decimal whose power of ten is reached in two steps at most. -/
structure InReach (d : Decimal) : Prop where
  low : -d.exponent ≤ 2 * greatestPower
  high : d.exponent ≤ greatestPower
  zero : d.significand = 0 → d.exponent.natAbs ≤ greatestPower

theorem InReach.of_natAbs {d : Decimal} (near : d.exponent.natAbs ≤ greatestPower) : InReach d :=
  ⟨by omega, by omega, fun _ => near⟩

theorem isZero_ofNat {n : Nat} (some : n ≠ 0) : (.ofNat n : Double).isZero = false := by
  have least := Number.magnitude_ofNat_mono (f := .double) (Nat.one_le_iff_ne_zero.mpr some)
  have one : 0 < (.ofNat 1 : Double).magnitude := by decide +kernel
  exact beq_eq_false_iff_ne.mpr (one.trans_le least).ne'

/-- Scaling is this arithmetic, and only a product may be too great. -/
theorem scaleByTen_eq {d : Decimal} (reach : InReach d)
    : scaleByTen (.ofNat d.significand) d.exponent
      = if d.exponent < 0 ∨ (scaledDigits d).isFinite = true then .ok (scaledDigits d)
        else .error .malformed := by
  obtain ⟨low, high, zero⟩ := reach
  unfold scaleByTen scaledDigits
  by_cases front : 0 ≤ d.exponent
  · have near : d.exponent.natAbs ≤ greatestPower := by omega
    simp only [near, front, Int.not_lt.mpr front, if_true, false_or]
  have below : d.exponent < 0 := Int.not_le.mp front
  by_cases near : d.exponent.natAbs ≤ greatestPower
  · simp only [near, front, below, if_true, if_false, true_or]
  · -- one step by the greatest power leaves a power that is in reach of another one
    have nonzero := isZero_ofNat fun none => near (zero none)
    have next : (d.exponent + greatestPower).natAbs ≤ greatestPower := by omega
    have behind : ¬ 0 ≤ d.exponent + greatestPower := by omega
    simp only [near, front, below, nonzero, Bool.false_eq_true, if_true, if_false, true_or]
    rw [scaleByTen, if_pos next, if_neg behind]

theorem withSign_eq_iff {x y : Number f}
    : (if x.negative then y.neg else y) = x ↔ y = x.withSign false := by
  obtain ⟨sign, magnitude, bound⟩ := x
  obtain ⟨other, position, within⟩ := y
  cases sign <;> cases other <;> simp [Number.neg, Number.withSign]

/-- The digits of a decimal are read as a number if this arithmetic gives its magnitude. -/
theorem scaledNumber_eq_ok_iff {x : Double} {d : Decimal} (finite : x.isFinite = true)
    (reach : InReach d)
    : scaledNumber x.negative d.significand d.exponent = .ok (.scaled x)
      ↔ scaledDigits d = x.withSign false := by
  rw [scaledNumber, scaleByTen_eq reach, ← withSign_eq_iff]
  by_cases fits : d.exponent < 0 ∨ (scaledDigits d).isFinite = true
  · simp [fits, Except.map]
  · have differs : (if x.negative then (scaledDigits d).neg else scaledDigits d) ≠ x := by
      intro same
      rw [withSign_eq_iff.mp same] at fits
      exact fits (.inr finite)
    rw [if_neg fits]
    simp [Except.map, differs]

-----------------------------------------------------------------------------------------
-- Scaling in one step
-----------------------------------------------------------------------------------------

/-- All numbers of 64 bits are within the format. -/
def Spacious (f : Format) : Prop :=
  UInt64.size * 2 ^ f.scale ≤ f.units f.infinity

theorem spacious_double : Spacious .double := by
  unfold Spacious
  decide +kernel

/-- A number of 64 bits that a format holds without rounding. -/
structure Exact (f : Format) (n : Nat) : Prop where
  bits : ∃ bits shift, n = bits * 2 ^ shift ∧ bits < 2 * f.binade
  lt_size : n < UInt64.size

theorem Exact.magnitudeUnits {n : Nat} (exact_ : Exact f n) (spacious : Spacious f)
    : (Number.ofNat n : Number f).isFinite = true
      ∧ (Number.ofNat n : Number f).magnitudeUnits = n * 2 ^ f.scale := by
  obtain ⟨⟨bits, shift, same, few⟩, small⟩ := exact_
  refine Number.magnitudeUnits_ofNat same few (Nat.lt_of_lt_of_le ?_ spacious)
  exact Nat.mul_lt_mul_of_pos_right small (Nat.two_pow_pos f.scale)

/-- The powers of ten up to the twenty-second are not rounded. -/
theorem powerOfTen_exact
    : ∀ n < 23,
        (powerOfTen n).isFinite = true
        ∧ (powerOfTen n).negative = false
        ∧ (powerOfTen n).magnitudeUnits = 10 ^ n * 2 ^ Format.double.scale := by
  decide +kernel

/-- A decimal whose digits and power of ten are not rounded. -/
structure Scalable (d : Decimal) : Prop where
  digits : Exact .double d.significand
  power : d.exponent.natAbs < 23

theorem Scalable.natAbs_le {d : Decimal} (scalable : Scalable d)
    : d.exponent.natAbs ≤ greatestPower :=
  scalable.power.le.trans (by decide)

/-- The digits and the power of ten of a decimal stand for a point of a neighbourhood. -/
def StandsFor (f : Format) (d : Decimal) (point : Nat) : Prop :=
  d.significand * 10 ^ d.exponent.toNat * 10 ^ (f.scale + 1) = point * 10 ^ (-d.exponent).toNat

theorem ten_pow_succ (n : Nat) : 10 ^ (n + 1) = 2 * 2 ^ n * 5 ^ (n + 1) := by
  rw [← Nat.pow_succ', ← Nat.mul_pow]

/-- The product with a power of ten stands for the same point. -/
theorem product_stands {significand power point scale : Nat}
    (same : significand * 10 ^ power * 10 ^ (scale + 1) = point)
    : 2 * (significand * 2 ^ scale * (10 ^ power * 2 ^ scale)) * 5 ^ (scale + 1)
      = point * 2 ^ scale := by
  rw [← same, ten_pow_succ]
  ring

/-- The quotient by a power of ten stands for the same point. -/
theorem quotient_stands {significand power point scale : Nat}
    (same : significand * 10 ^ (scale + 1) = point * 10 ^ power)
    : 2 * (significand * 2 ^ scale * 2 ^ scale) * 5 ^ (scale + 1)
      = point * (10 ^ power * 2 ^ scale) := by
  rw [← Nat.mul_assoc point, ← same, ten_pow_succ]
  ring

theorem ofQuotient_eq_withSign {x : Number f} {numerator denominator : Nat}
    (rounded : f.nearest numerator denominator = x.magnitude) (negative : Bool)
    : Number.ofQuotient negative numerator denominator = x.withSign negative := by
  simp only [Number.ofQuotient, Number.withSign, rounded]

/-- What is scaled in one step and not rounded before is the number of the neighbourhood. -/
theorem scaledNumber_of_scalable {x : Double} {d : Decimal} {point : Nat}
    (finite : x.isFinite = true)
    (inside : (Decimal.Neighbourhood.of .double x.magnitude).contains point = true)
    (scalable : Scalable d) (stands : StandsFor .double d point)
    : scaledNumber x.negative d.significand d.exponent = .ok (.scaled x) := by
  have below : x.magnitude < Format.double.infinity := of_decide_eq_true finite
  obtain ⟨whole, units⟩ := scalable.digits.magnitudeUnits spacious_double
  obtain ⟨tens, positive, power⟩ := powerOfTen_exact d.exponent.natAbs scalable.power
  refine (scaledNumber_eq_ok_iff finite (.of_natAbs scalable.natAbs_le)).mpr ?_
  unfold scaledDigits
  dsimp only
  by_cases front : 0 ≤ d.exponent
  · have raised : d.exponent.toNat = d.exponent.natAbs := by omega
    have lowered : (-d.exponent).toNat = 0 := by omega
    rw [StandsFor, raised, lowered, Nat.pow_zero, Nat.mul_one] at stands
    have rounded := Decimal.Neighbourhood.nearest_eq_of_contains (Nat.two_pow_pos _) below inside
      (product_stands stands)
    rw [if_pos front, Number.mul_of_isFinite whole tens, units, power,
      ofQuotient_eq_withSign rounded, positive]
    rfl
  · have raised : d.exponent.toNat = 0 := by omega
    have lowered : (-d.exponent).toNat = d.exponent.natAbs := by omega
    rw [StandsFor, raised, lowered, Nat.pow_zero, Nat.mul_one] at stands
    have units_pos : 0 < 10 ^ d.exponent.natAbs * 2 ^ Format.double.scale :=
      Nat.mul_pos (Nat.pow_pos (by decide)) (Nat.two_pow_pos _)
    have nonzero := Number.isZero_of_units (power ▸ units_pos)
    have rounded := Decimal.Neighbourhood.nearest_eq_of_contains units_pos below inside
      (quotient_stands stands)
    rw [if_neg front, if_pos scalable.natAbs_le, Number.div_of_isFinite whole tens nonzero, units,
      power, ofQuotient_eq_withSign rounded, positive]
    rfl

-----------------------------------------------------------------------------------------
-- Scaling what was written
-----------------------------------------------------------------------------------------

/-- The zero behind the point changes the digits that are read and not what they stand for. -/
theorem standsFor_asRead (style : Decimal.Scientific) (negative : Bool) (digits place : Nat)
    : StandsFor f
        (Decimal.asRead style ⟨negative, digits, (place : Int) - (f.scale + 1)⟩)
        (digits * 10 ^ place) := by
  unfold Decimal.asRead
  split
  · next whole =>
      have exponent := whole.2
      simp only [StandsFor, Nat.mul_assoc, ← Nat.pow_add]
      congr 2
      dsimp only at exponent ⊢
      omega
  · simp only [StandsFor, Nat.mul_assoc, ← Nat.pow_add]
    congr 2
    omega

theorem scaledNumber_zero (negative : Bool)
    : scaledNumber negative 0 (-1) = .ok (.scaled (.zero negative)) := by
  cases negative <;> decide +kernel

/-- Digits that are few reach a power of ten only at a higher place. -/
theorem lt_of_few_digits {digits most power place : Nat} (few : digits ≤ most)
    (reaches : most * 10 ^ power < digits * 10 ^ place)
    : power < place := by
  by_contra below
  have powers : 10 ^ place ≤ 10 ^ power :=
    Nat.pow_le_pow_right (by decide) (Nat.not_lt.mp below)
  exact absurd (Nat.mul_le_mul few powers) (Nat.not_le.mpr reaches)

/-- The place of the last digit is bounded, as the digits are few and stand for a double. -/
theorem place_bounds {x : Double} {digits place : Nat} (positive : 0 < x.magnitude)
    (finite : x.isFinite = true) (found : Decimal.Shortest x digits place)
    : 458 < place ∧ place < 1384 := by
  obtain ⟨low, high, -⟩ := Decimal.Neighbourhood.contains_iff.mp found.inside
  constructor
  · have unit : 0 < Format.double.units x.magnitude :=
      Nat.zero_lt_of_lt (Format.double.units_strictMono positive)
    have least := (Nat.le_mul_of_pos_left _ (Nat.add_pos_right _ unit)).trans low
    refine lt_of_few_digits found.few ?_
    calc 40 * Format.double.binade * 10 ^ 458
        < Nat.pow 5 (Format.double.scale + 1) := by decide +kernel
      _ ≤ digits * 10 ^ place := least
  · refine (Nat.pow_lt_pow_iff_right (by decide : 1 < 10)).mp ?_
    calc 10 ^ place
        ≤ digits * 10 ^ place := Nat.le_mul_of_pos_left _ found.some
      _ ≤ _ := high
      _ ≤ 2 * Format.double.units Format.double.infinity * 5 ^ (Format.double.scale + 1) :=
          high_le finite
      _ < 10 ^ 1384 := by decide +kernel

/-- The digits that are written for a double are never out of reach. -/
theorem inReach_shortest (style : Decimal.Scientific) {x : Double} (finite : x.isFinite = true)
    : InReach ((Decimal.shortest .even x).asRead style) := by
  unfold Decimal.asRead
  split
  · exact .of_natAbs (by decide : (-1 : Int).natAbs ≤ greatestPower)
  cases nonzero : x.isZero with
  | true =>
      rw [Decimal.shortest, if_pos nonzero]
      exact .of_natAbs (Nat.zero_le _)
  | false =>
      obtain ⟨digits, place, same, found⟩ := Decimal.exists_shortest .even nonzero
      have positive : 0 < x.magnitude := by
        simpa [Number.isZero, Nat.pos_iff_ne_zero] using nonzero
      obtain ⟨low, high⟩ := place_bounds positive finite found
      have scale : Format.double.scale = 1074 := rfl
      have greatest : greatestPower = 308 := rfl
      rw [same]
      refine ⟨?_, ?_, fun none => absurd none found.some.ne'⟩
      · dsimp only
        omega
      · dsimp only
        omega

theorem scaledNumber_shortest {style : Decimal.Scientific} {x : Double}
    (finite : x.isFinite = true)
    (scalable : Scalable ((Decimal.shortest .even x).asRead style))
    : scaledNumber x.negative ((Decimal.shortest .even x).asRead style).significand
        ((Decimal.shortest .even x).asRead style).exponent
      = .ok (.scaled x) := by
  cases nonzero : x.isZero with
  | true =>
      have written : (Decimal.shortest .even x).asRead style = ⟨x.negative, 0, -1⟩ := by
        rw [Decimal.shortest, if_pos nonzero, Decimal.asRead, if_pos ⟨by simp, by simp⟩]
        simp
      have zero : Number.zero x.negative = x := by
        simp only [Number.isZero, beq_iff_eq] at nonzero
        simp only [Number.zero, ← nonzero]
      rw [written, scaledNumber_zero, zero]
  | false =>
      obtain ⟨digits, place, same, found⟩ := Decimal.exists_shortest .even nonzero
      rw [same] at scalable ⊢
      exact scaledNumber_of_scalable finite found.inside scalable (standsFor_asRead ..)

end GraphShell.Json
