import GraphShell.Decimal.Notation
import GraphShell.Proofs.Binary.Nearest
import GraphShell.Proofs.Text.Digits

/-! Decimals in positions: a sign, a numeral and, where there are places, a point and a digit for
each. What a number is rounded to has as many places as asked for, and no decimal with that many
places is nearer to the number.
-/

namespace GraphShell.Decimal

open Binary Text

-----------------------------------------------------------------------------------------
-- Points
-----------------------------------------------------------------------------------------

/-- A numeral with a point in it is a numeral, the point and as many digits as asked for. -/
theorem exists_pointed (n : Nat) {places : Nat} (some : places ≠ 0)
    : ∃ whole fraction,
        pointed (numeral n) places = numeral whole ++ '.' :: fraction
        ∧ Digits fraction
        ∧ fraction.length = places
        ∧ whole * 10 ^ places + numeralValue fraction = n := by
  unfold pointed
  rw [if_neg some]
  rcases Nat.lt_or_ge places (numeral n).length with long | short
  · obtain ⟨last, same, run, length⟩ := exists_numeral_eq_append long
    have value := congrArg numeralValue same
    rw [numeralValue_append, numeralValue_numeral, numeralValue_numeral, length] at value
    have padded : places + 1 - (numeral n).length = 0 := by omega
    have front : (numeral n).length - places = (numeral (n / 10 ^ places)).length := by
      rw [same, List.length_append]
      omega
    refine ⟨n / 10 ^ places, last, ?_, run, length, value.symm⟩
    simp only [padded, List.replicate_zero, List.nil_append, front]
    rw [same, List.take_left, List.drop_left]
  · -- zeros are filled in up to the one in front of the point
    have zeros : places + 1 - (numeral n).length = places - (numeral n).length + 1 := by omega
    refine ⟨0, List.replicate (places - (numeral n).length) '0' ++ numeral n, ?_,
      (digits_replicate _).append (digits_numeral n), ?_, ?_⟩
    · have front : (List.replicate (places + 1 - (numeral n).length) '0' ++ numeral n).length
          - places = 1 := by
        rw [List.length_append, List.length_replicate]
        omega
      simp only [front]
      rw [zeros, List.replicate_succ, numeral_of_lt (by decide : 0 < 10)]
      rfl
    · rw [List.length_append, List.length_replicate]
      omega
    · rw [numeralValue_append, numeralValue_replicate, numeralValue_numeral]
      omega

/-- A decimal without places is the numeral of a whole number. -/
theorem positional_of_whole {d : Decimal} (whole : 0 ≤ d.exponent)
    (zero : d.significand = 0 → d.exponent = 0)
    : d.positional
      = signText d.negative ++ numeral (d.significand * 10 ^ d.exponent.toNat) := by
  have none : (-d.exponent).toNat = 0 := by omega
  simp only [positional, none, pointed, if_pos]
  rcases Nat.eq_zero_or_pos d.significand with nothing | something
  · simp [nothing, zero nothing]
  · rw [numeral_mul_ten_pow something.ne']

theorem positional_of_places (negative : Bool) (n places : Nat)
    : (⟨negative, n, -(places : Int)⟩ : Decimal).positional
      = signText negative ++ pointed (numeral n) places := by
  have front : (-(places : Int)).toNat = 0 := by omega
  have behind : (- -(places : Int)).toNat = places := by omega
  simp only [positional, front, behind, List.replicate_zero, List.append_nil]

-----------------------------------------------------------------------------------------
-- Rounding
-----------------------------------------------------------------------------------------

/-- A quotient is rounded to one of the whole numbers beside it. -/
theorem takesEnd_roundQuotient (numerator : Nat) {denominator : Nat} (positive : 0 < denominator)
    : TakesEnd (· * denominator) numerator (numerator / denominator)
        (roundQuotient numerator denominator) := by
  have parts := Nat.div_add_mod' numerator denominator
  have rest := Nat.mod_lt numerator positive
  have next := Nat.add_one_mul (numerator / denominator) denominator
  unfold TakesEnd roundQuotient
  dsimp only
  split_ifs <;> omega

variable {f : Format} {x : Number f}

/-- How far a number's magnitude is from a decimal with so many places, counted in decimal places of
the number's least unit.
-/
def remoteness (places : Nat) (x : Number f) (digits : Nat) : Nat :=
  (digits * 2 ^ f.scale - x.magnitudeUnits * 10 ^ places : Int).natAbs

/-- No other digits are nearer to the number than those it is rounded to, and other ones are as near
only if those are even.
-/
theorem remoteness_rounded (places : Nat) (x : Number f) {other : Nat}
    (differs : other ≠ (rounded places x).significand)
    : remoteness places x (rounded places x).significand ≤ remoteness places x other
      ∧ (remoteness places x (rounded places x).significand = remoteness places x other
        → (rounded places x).significand % 2 = 0) := by
  have positive : 0 < 2 ^ f.scale := Nat.pow_pos (by decide)
  have increasing : StrictMono (· * 2 ^ f.scale) :=
    fun _ _ less => Nat.mul_lt_mul_of_pos_right less positive
  have takes : TakesEnd (· * 2 ^ f.scale) (x.magnitudeUnits * 10 ^ places) _
      (rounded places x).significand :=
    takesEnd_roundQuotient _ positive
  have nearest := takes.nearest increasing (Nat.div_mul_le_self _ _)
    (Nat.lt_mul_of_div_lt (Nat.lt_succ_self _) positive).le differs
  simpa only [remoteness, Nat.cast_mul, Nat.cast_pow, Nat.cast_ofNat] using nearest

/-- A finite number in positions: its sign, a numeral and the asked count of digits behind the
point, which together are the nearest decimal of so many places. Of two that are as near it is the
one whose last digit is even.
-/
theorem displayRounded_of_isFinite (places : Nat) (finite : x.isFinite = true)
    : ∃ digits whole fraction,
        (displayRounded places x).toList
          = signText x.negative
            ++ (numeral whole ++ if places = 0 then [] else '.' :: fraction)
        ∧ Digits fraction
        ∧ fraction.length = places
        ∧ whole * 10 ^ places + numeralValue fraction = digits
        ∧ ∀ other,
            other ≠ digits
            → remoteness places x digits ≤ remoteness places x other
              ∧ (remoteness places x digits = remoteness places x other → digits % 2 = 0) := by
  have text : (displayRounded places x).toList
      = signText x.negative ++ pointed (numeral (rounded places x).significand) places := by
    simp only [displayRounded, Number.isNaN_of_isFinite finite, finite, Bool.false_eq_true,
      Bool.not_true, if_false, String.toList_ofList]
    exact positional_of_places ..
  refine ⟨(rounded places x).significand, ?_⟩
  rcases Nat.eq_zero_or_pos places with rfl | some
  · refine ⟨(rounded 0 x).significand, [], text.trans ?_, ?_, rfl, ?_, ?_⟩
    · simp [pointed]
    · simp [Digits]
    · simp [numeralValue]
    · exact fun _ => remoteness_rounded 0 x
  · obtain ⟨whole, fraction, same, run, length, value⟩ :=
      exists_pointed (rounded places x).significand some.ne'
    refine ⟨whole, fraction, ?_, run, length, value, fun _ => remoteness_rounded places x⟩
    rw [text, same, if_neg some.ne']

end GraphShell.Decimal
