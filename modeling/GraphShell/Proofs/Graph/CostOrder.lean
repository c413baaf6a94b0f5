import GraphShell.Proofs.Graph.Costs
import GraphShell.Scalar.Basic

/-! What heavier edges cost. By cost they cost more; by relevance they cost less wherever both
weights cost anything, but the negative cost of a negative weight counts as zero, and no other
weight costs less than that.
-/

namespace GraphShell

open Binary

namespace Binary.Number

-----------------------------------------------------------------------------------------
-- Numeric order
-----------------------------------------------------------------------------------------

section

variable {f : Format} {x y : Number f}

theorem le_iff_place (left : x.isFinite = true) (right : y.isFinite = true)
    : x.le y = true ↔ x.place ≤ y.place := by
  simp [le, isNaN_of_isFinite left, isNaN_of_isFinite right]

/-- Numbers in order have their units in order; the zeros share their place. -/
theorem units_mono (ordered : x.place ≤ y.place) : x.units ≤ y.units := by
  unfold place at ordered
  unfold units
  cases left : x.negative <;> cases right : y.negative <;>
    simp only [left, right, Bool.false_eq_true, if_true, if_false] at ordered ⊢
  · exact Int.ofNat_le.mpr (magnitudeUnits_mono (by omega))
  · obtain none : x.magnitude = 0 := by omega
    obtain other : y.magnitude = 0 := by omega
    simp [magnitudeUnits, none, other, f.units_zero]
  · omega
  · have least := magnitudeUnits_mono (x := y) (y := x) (by omega)
    omega

end

-----------------------------------------------------------------------------------------
-- Reciprocals
-----------------------------------------------------------------------------------------

variable {x y : Single}

theorem reciprocal_of_isZero (finite : x.isFinite = true) (zero : x.isZero = true)
    : 1 / x = infinite x.negative := by
  rw [div_of_isZero isFinite_one rfl finite zero]
  exact congrArg infinite (Bool.false_bne _)

theorem negative_reciprocal (finite : x.isFinite = true)
    : (1 / x).negative = x.negative := by
  cases zero : x.isZero with
  | true => rw [reciprocal_of_isZero finite zero, infinite]
  | false =>
      rw [div_of_isFinite isFinite_one finite zero]
      exact Bool.false_bne _

theorem reciprocal_le_infinity (finite : x.isFinite = true)
    : (1 / x).magnitude ≤ Format.single.infinity := by
  cases zero : x.isZero with
  | true => rw [reciprocal_of_isZero finite zero, infinite]
  | false =>
      rw [magnitude_reciprocal finite zero]
      exact Format.single.nearest_le _ _

/-- Reciprocals are in the opposite order, and that of zero is beyond all others. -/
theorem reciprocal_antitone (first : x.isFinite = true) (second : y.isFinite = true)
    (le : x.magnitude ≤ y.magnitude)
    : (1 / y).magnitude ≤ (1 / x).magnitude := by
  cases zero : x.isZero with
  | true =>
      rw [reciprocal_of_isZero first zero, infinite]
      exact reciprocal_le_infinity second
  | false =>
      have positive : 0 < x.magnitudeUnits :=
        Nat.pos_of_ne_zero (isZero_iff_units.not.mp (by simp [zero]))
      have more := magnitudeUnits_mono le
      rw [magnitude_reciprocal first zero,
        magnitude_reciprocal second (isZero_of_units (positive.trans_le more))]
      exact Format.single.nearest_antitone positive more _

/-- No finite number is so great that its reciprocal is rounded to zero. -/
theorem reciprocal_pos (finite : x.isFinite = true) : 0 < (1 / x).magnitude := by
  cases zero : x.isZero with
  | true =>
      rw [reciprocal_of_isZero finite zero]
      exact (by decide : 0 < Format.single.infinity)
  | false =>
      have positive : 0 < x.magnitudeUnits :=
        Nat.pos_of_ne_zero (isZero_iff_units.not.mp (by simp [zero]))
      have below : x.magnitudeUnits < Format.single.units Format.single.infinity :=
        Format.single.units_strictMono (of_decide_eq_true finite)
      have range : Format.single.units 1 * Format.single.units Format.single.infinity
          ≤ 2 ^ Format.single.scale * 2 ^ Format.single.scale := by
        decide +kernel
      rw [magnitude_reciprocal finite zero]
      calc 0 < 1 := Nat.one_pos
        _ = Format.single.nearest (Format.single.units 1 * x.magnitudeUnits) x.magnitudeUnits :=
          (Format.single.nearest_units_mul positive (by decide)).symm
        _ ≤ _ := Format.single.nearest_mono ((Nat.mul_le_mul_left _ below.le).trans range) _

end Binary.Number

namespace WeightMap

variable {map : WeightMap} {weight lighter heavier : Weight}

theorem le_cost_iff
    : (map.cost lighter).le (map.cost heavier) = true
      ↔ map.charge lighter ≤ map.charge heavier := by
  have first := map.unsigned_cost lighter
  have second := map.unsigned_cost heavier
  rw [first.le_iff second, ← rank_cost_le_iff, first.rank_eq, second.rank_eq, Int.ofNat_le]

/-- A negative weight with a finite reciprocal: that is a negative cost, which counts as zero. -/
def Free (weight : Weight) : Prop :=
  weight.negative = true ∧ (1 / weight).isFinite = true

instance (weight : Weight) : Decidable (Free weight) :=
  inferInstanceAs (Decidable (_ ∧ _))

theorem charge_of_free (finite : weight.isFinite = true) (free : Free weight)
    : reciprocal.charge weight = 0 := by
  have shown : reciprocal.apply weight = 1 / weight := if_pos free.2
  rw [charge, shown, Number.units, Number.negative_reciprocal finite, if_pos free.1]
  omega

/-- A weight that is not free costs its reciprocal, or the greatest number in place of one that is
not finite.
-/
theorem charge_of_not_free (finite : weight.isFinite = true) (costly : ¬ Free weight)
    : reciprocal.charge weight
      = Format.single.units (min (1 / weight).magnitude (Format.single.infinity - 1)) := by
  cases kept : (1 / weight).isFinite with
  | true =>
      have shown : reciprocal.apply weight = 1 / weight := if_pos kept
      have positive : weight.negative = false :=
        Bool.eq_false_iff.mpr fun sign => costly ⟨sign, kept⟩
      have below : (1 / weight).magnitude < Format.single.infinity := of_decide_eq_true kept
      rw [charge, shown, Number.units, Number.negative_reciprocal finite, positive,
        min_eq_left (by omega)]
      rfl
  | false =>
      have shown : reciprocal.apply weight = .greatest .single := if_neg (by simp [kept])
      have beyond : Format.single.infinity ≤ (1 / weight).magnitude :=
        Nat.not_lt.mp (of_decide_eq_false kept)
      rw [charge, shown, min_eq_right (by omega)]
      rfl

theorem charge_pos (finite : weight.isFinite = true) (costly : ¬ Free weight)
    : 0 < reciprocal.charge weight := by
  have some := Number.reciprocal_pos finite
  have room : 1 < Format.single.infinity := by decide
  rw [charge_of_not_free finite costly, ← Format.single.units_zero]
  exact Format.single.units_strictMono (by omega)

/-- Of two weights that both cost something the heavier one costs no more: its reciprocal is no
greater, or that of the lighter one is as great as can be.
-/
theorem charge_antitone (first : lighter.isFinite = true) (second : heavier.isFinite = true)
    (ordered : lighter.place ≤ heavier.place) (costly : ¬ Free lighter)
    (other : ¬ Free heavier)
    : reciprocal.charge heavier ≤ reciprocal.charge lighter := by
  rw [charge_of_not_free first costly, charge_of_not_free second other]
  apply Format.single.units_strictMono.monotone
  cases sign : lighter.negative with
  | true =>
      have kept : (1 / lighter).isFinite = false :=
        Bool.eq_false_iff.mpr fun kept => costly ⟨sign, kept⟩
      have beyond : Format.single.infinity ≤ (1 / lighter).magnitude :=
        Nat.not_lt.mp (of_decide_eq_false kept)
      omega
  | false =>
      have more : lighter.magnitude ≤ heavier.magnitude := by
        unfold Number.place at ordered
        rw [sign, if_neg Bool.false_ne_true] at ordered
        split at ordered <;> omega
      have less := Number.reciprocal_antitone first second more
      omega

/-- By cost a heavier edge costs at least as much. By relevance it costs at most as much, unless
only the lighter one is free.
-/
theorem cost_order_of_weights (first : lighter.isFinite = true) (second : heavier.isFinite = true)
    (ordered : lighter.le heavier = true)
    : (identity.cost lighter).le (identity.cost heavier) = true
      ∧ ((reciprocal.cost heavier).le (reciprocal.cost lighter) = true
        ↔ (Free lighter → Free heavier)) := by
  have places := (Number.le_iff_place first second).mp ordered
  rw [le_cost_iff, le_cost_iff]
  constructor
  · rw [charge, charge, apply_identity first, apply_identity second]
    exact Int.toNat_le_toNat (Number.units_mono places)
  · constructor
    · intro cheap free
      by_contra other
      have something := charge_pos second other
      rw [charge_of_free first free] at cheap
      omega
    · intro both
      by_cases other : Free heavier
      · rw [charge_of_free second other]
        exact Nat.zero_le _
      · exact charge_antitone first second places (fun free => other (both free)) other

/-- The least subnormal weight costs what zero does: neither has a finite reciprocal. -/
theorem cost_order_of_weights_up_from_zero
    : let subnormal : Weight := ⟨false, 1, by decide⟩
      (Number.zero true : Weight).isFinite = true
      ∧ subnormal.isFinite = true
      ∧ (Number.zero true : Weight).le subnormal = true
      ∧ (reciprocal.cost subnormal).le (reciprocal.cost (.zero true)) = true := by
  intro subnormal
  have first : (Number.zero true : Weight).isFinite = true := by decide
  have second : subnormal.isFinite = true := by decide
  have ordered : (Number.zero true : Weight).le subnormal = true := by decide
  refine ⟨first, second, ordered, (cost_order_of_weights first second ordered).2.mpr ?_⟩
  decide +kernel

/-- One is heavier than minus one and costs more by relevance, since the cost of minus one counts
as zero.
-/
theorem cost_order_fails_below_zero
    : ∃ lighter heavier : Weight,
        Token.weight? "-1" = some lighter
        ∧ Token.weight? "1" = some heavier
        ∧ lighter.le heavier = true
        ∧ (reciprocal.cost heavier).le (reciprocal.cost lighter) = false :=
  ⟨.ofInt (-1), 1, by decide +kernel, by decide +kernel, by decide +kernel, by decide +kernel⟩

end WeightMap

end GraphShell
