import GraphShell.Binary.Arithmetic
import GraphShell.Proofs.Binary.Order
import Mathlib.Data.Nat.Log

/-! The logarithm of a finite number is small: the fixed-point values that it is computed from
are bounded by their numbers of terms and of binary places.
-/

namespace GraphShell.Binary

namespace Logarithm

/-- Powers of a square up to one do not grow, so a sum of them is bounded by the number of its
terms, by induction on these.
-/
theorem series_le {square power bound : Nat} (terms k : Nat) (small : square ≤ one)
    (le : power ≤ bound)
    : series square terms k power ≤ terms * bound := by
  induction terms generalizing k power with
  | zero => exact Nat.zero_le _
  | succ terms ih =>
      have term : power / (2 * k + 1) ≤ bound := (Nat.div_le_self _ _).trans le
      have shrinks : power * square / one ≤ power := by
        refine Nat.div_le_of_le_mul ?_
        rw [Nat.mul_comm one]
        exact Nat.mul_le_mul_left power small
      rw [series, Nat.add_mul, Nat.one_mul, Nat.add_comm]
      exact Nat.add_le_add (ih (k + 1) (shrinks.trans le)) term

theorem near_le (numerator denominator : Nat)
    : near numerator denominator ≤ 2 * (places * one) := by
  have ratio : (numerator - denominator) * one / (numerator + denominator) ≤ one :=
    Nat.div_le_of_le_mul (Nat.mul_le_mul_right _ (by omega))
  have square {ratio : Nat} (le : ratio ≤ one) : ratio * ratio / one ≤ one :=
    Nat.div_le_of_le_mul (Nat.mul_le_mul le le)
  exact Nat.mul_le_mul_left 2 (series_le places 0 (square ratio) ratio)

end Logarithm

namespace Number

open Logarithm

/-- The exponent of a finite double stays within the range of the format. -/
theorem log2_magnitudeUnits_le {x : Double} (finite : x.isFinite = true)
    : x.magnitudeUnits.log2 ≤ 2 * Format.double.scale := by
  have below : x.magnitude < Format.double.infinity := of_decide_eq_true finite
  have top : (Format.double.units Format.double.infinity).log2 ≤ 2 * Format.double.scale := by
    decide +kernel
  refine le_trans ?_ top
  rw [Nat.log2_eq_log_two, Nat.log2_eq_log_two]
  exact Nat.log_mono_right (Format.double.units_strictMono below).le

/-- The fixed-point logarithm of a power of two and a factor below two. -/
def fixedLn (x : Double) : Int :=
  ((x.magnitudeUnits.log2 : Int) - Format.double.scale) * near 2 1
    + near x.magnitudeUnits (Nat.pow 2 x.magnitudeUnits.log2)

theorem ln_of_positive {x : Double} (finite : x.isFinite = true) (nonzero : x.isZero = false)
    (positive : x.negative = false)
    : x.ln
      = .ofQuotient (x.fixedLn < 0) (x.fixedLn.natAbs * Nat.pow 2 Format.double.scale) one := by
  unfold ln
  rw [if_neg (by simp [isNaN_of_isFinite finite]), if_neg (by simp [nonzero]),
    if_neg (by simp [positive]), if_neg (by simp [finite])]
  rfl

/-- In fixed point a logarithm is at most this many times one. -/
def lnBound : Nat := (Format.double.scale + 1) * (2 * places)

theorem natAbs_fixedLn_le {x : Double} (finite : x.isFinite = true)
    : x.fixedLn.natAbs ≤ lnBound * one := by
  have exponent := log2_magnitudeUnits_le finite
  have whole := near_le 2 1
  have part := near_le x.magnitudeUnits (Nat.pow 2 x.magnitudeUnits.log2)
  have product : (((x.magnitudeUnits.log2 : Int) - Format.double.scale) * near 2 1).natAbs
      ≤ Format.double.scale * (2 * (places * one)) := by
    rw [Int.natAbs_mul, Int.natAbs_natCast]
    exact Nat.mul_le_mul (by omega) whole
  have total : lnBound * one
      = Format.double.scale * (2 * (places * one)) + 2 * (places * one) := by
    rw [lnBound]
    ring
  rw [total, fixedLn]
  refine (Int.natAbs_add_le _ _).trans (Nat.add_le_add product ?_)
  rw [Int.natAbs_natCast]
  exact part

/-- The logarithm of a positive double is no greater than the bound as a number. -/
theorem magnitude_ln_le {x bound : Double} (finite : x.isFinite = true)
    (nonzero : x.isZero = false) (positive : x.negative = false)
    (other : bound.isFinite = true)
    (beyond : lnBound * Nat.pow 2 Format.double.scale ≤ bound.magnitudeUnits)
    : x.ln.magnitude ≤ bound.magnitude := by
  rw [ln_of_positive finite nonzero positive]
  refine nearest_le_magnitude (Nat.two_pow_pos places) other ?_
  calc x.fixedLn.natAbs * Nat.pow 2 Format.double.scale
      ≤ lnBound * one * Nat.pow 2 Format.double.scale :=
        Nat.mul_le_mul_right _ (natAbs_fixedLn_le finite)
    _ = lnBound * Nat.pow 2 Format.double.scale * one := Nat.mul_right_comm _ _ _
    _ ≤ bound.magnitudeUnits * one := Nat.mul_le_mul_right _ beyond

/-- What 64 bits count is far from the end of the doubles, and its logarithm all the more. -/
theorem magnitude_ln_one_add_le {x : Double} (positive : x.negative = false)
    (le : x.magnitude ≤ (.ofNat UInt64.size : Double).magnitude)
    : (1 + x).ln.magnitude ≤ (.ofNat (2 ^ 20) : Double).magnitude := by
  have limit : (.ofNat UInt64.size : Double).isFinite = true := by decide +kernel
  have double : (.ofNat (2 * UInt64.size) : Double).isFinite = true := by decide +kernel
  have room : (1 : Double).magnitudeUnits + (.ofNat UInt64.size : Double).magnitudeUnits
      ≤ (.ofNat (2 * UInt64.size) : Double).magnitudeUnits := by decide +kernel
  have one : (1 : Double).isFinite = true := by decide +kernel
  have finite : x.isFinite = true := isFinite_of_le le limit
  obtain ⟨sign, -, nonzero, -⟩ := one_add positive (isNaN_of_isFinite finite)
  have sum : (1 + x).magnitude ≤ (.ofNat (2 * UInt64.size) : Double).magnitude := by
    refine Sided.magnitude_add_le (.inr rfl) (.inr positive) one finite double ?_
    exact (Nat.add_le_add_left (magnitudeUnits_mono le) _).trans room
  exact magnitude_ln_le (isFinite_of_le sum double) nonzero sign
    (by decide +kernel) (by decide +kernel)

end Number

end GraphShell.Binary
