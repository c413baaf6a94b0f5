import GraphShell.Graph.Trees
import GraphShell.Proofs.Binary.Order

/-! The costs that the searches compare are in the order of the weights that a tree shows, as far as
these are positive; all others count as zero. A finite weight is shown alike as a cost and as a
relevance only if it is one or minus one: the rounded reciprocal of any other lies on the other side
of one.
-/

namespace GraphShell

-----------------------------------------------------------------------------------------
-- Costs
-----------------------------------------------------------------------------------------

namespace Binary.Number

variable {f : Format} {x : Number f}

/-- The greater of a finite number and zero is the number unless that is negative. -/
theorem max_zero (finite : x.isFinite = true)
    : x.max (zero false) = if x.negative then zero false else x := by
  rw [max, isNaN_of_isFinite finite, isNaN_zero]
  cases sign : x.negative <;> simp [rank, zero, sign]
  omega

end Binary.Number

namespace WeightMap

open Binary

variable (map : WeightMap)

/-- What takes the place of a result that is not finite is. -/
theorem isFinite_or_greatest (mapped : Weight)
    : (if mapped.isFinite then mapped else .greatest .single : Weight).isFinite = true := by
  cases finite : mapped.isFinite with
  | true => simpa using finite
  | false => rfl

theorem isFinite_apply (weight : Weight) : (map.apply weight).isFinite = true :=
  isFinite_or_greatest _

/-- What the searches count for a weight, in least units: the weight shown, and nothing if that
is negative.
-/
def charge (weight : Weight) : Nat :=
  (map.apply weight).units.toNat

theorem charge_eq (weight : Weight)
    : map.charge weight = ((map.apply weight).max (.zero false)).magnitudeUnits := by
  rw [Number.max_zero (map.isFinite_apply weight), charge, Number.units]
  cases (map.apply weight).negative with
  | false => rfl
  | true => simp [Number.magnitudeUnits, Number.zero, Format.units_zero]

theorem isFinite_max_apply (weight : Weight)
    : ((map.apply weight).max (.zero false)).isFinite = true := by
  rw [Number.max_zero (map.isFinite_apply weight)]
  split
  · decide
  · exact map.isFinite_apply weight

theorem magnitudeUnits_cost (weight : Weight)
    : (map.cost weight).magnitudeUnits
        = map.charge weight * 2 ^ (Format.double.scale - Format.single.scale)
      ∧ (map.cost weight).negative = false := by
  have positive : ((map.apply weight).max (.zero false)).negative = false := by
    rw [Number.max_zero (map.isFinite_apply weight)]
    split
    · rfl
    · next sign => simpa using sign
  obtain ⟨-, sign, units⟩ :=
    Number.magnitudeUnits_convert Format.single_embeds_double (map.isFinite_max_apply weight)
  rw [cost, charge_eq]
  exact ⟨units, sign.trans positive⟩

theorem isFinite_cost (weight : Weight) : (map.cost weight).isFinite = true :=
  (Number.magnitudeUnits_convert Format.single_embeds_double (map.isFinite_max_apply weight)).1

/-- What a cost is exactly: what is counted for the weight, in least units of the wider format. -/
theorem units_cost (weight : Weight)
    : (map.cost weight).units
      = map.charge weight * 2 ^ (Format.double.scale - Format.single.scale) := by
  obtain ⟨units, sign⟩ := map.magnitudeUnits_cost weight
  rw [Number.units, sign, if_neg Bool.false_ne_true, units, Nat.cast_mul, Nat.cast_pow,
    Nat.cast_ofNat]

/-- Costs are from zero up, whatever the weight. -/
theorem unsigned_cost (weight : Weight) : (map.cost weight).Unsigned :=
  ⟨(map.magnitudeUnits_cost weight).2, Number.isNaN_of_isFinite (map.isFinite_cost weight)⟩

/-- The searches compare what they count. -/
theorem rank_cost_le_iff {first second : Weight}
    : (map.cost first).rank ≤ (map.cost second).rank
      ↔ map.charge first ≤ map.charge second := by
  obtain ⟨left, leftSign⟩ := map.magnitudeUnits_cost first
  obtain ⟨right, rightSign⟩ := map.magnitudeUnits_cost second
  have order := Format.double.units_strictMono.le_iff_le
    (a := (map.cost first).magnitude) (b := (map.cost second).magnitude)
  rw [Number.magnitudeUnits] at left right
  rw [left, right, Nat.mul_le_mul_right_iff (Nat.two_pow_pos _)] at order
  rw [order]
  simp [Number.rank, leftSign, rightSign]

end WeightMap

-----------------------------------------------------------------------------------------
-- Reciprocals
-----------------------------------------------------------------------------------------

open Binary

namespace Binary.Number

variable {x : Single}

theorem isFinite_one : (1 : Single).isFinite = true := by
  decide +kernel

theorem magnitudeUnits_one_single : (1 : Single).magnitudeUnits = 2 ^ Format.single.scale := by
  decide +kernel

theorem magnitude_reciprocal (finite : x.isFinite = true) (nonzero : x.isZero = false)
    : (1 / x).magnitude
      = Format.single.nearest (2 ^ Format.single.scale * 2 ^ Format.single.scale)
          x.magnitudeUnits := by
  rw [div_of_isFinite isFinite_one finite nonzero, magnitudeUnits_one_single]
  rfl

theorem div_of_isZero {y : Single} (left : x.isFinite = true) (something : x.isZero = false)
    (right : y.isFinite = true) (zero : y.isZero = true)
    : x / y = infinite (x.negative != y.negative) := by
  refine (if_neg (by simp [isNaN_of_isFinite left])).trans ?_
  refine (if_neg (by simp [isNaN_of_isFinite right])).trans ?_
  refine (if_pos left).trans ((if_neg (by simp [right])).trans ?_)
  exact (if_pos zero).trans (if_neg (by simp [something]))

/-- Numbers below one have reciprocals from one up. -/
theorem one_le_reciprocal (finite : x.isFinite = true) (nonzero : x.isZero = false)
    (below : x.magnitude ≤ (1 : Single).magnitude)
    : (1 : Single).magnitude ≤ (1 / x).magnitude := by
  have positive : 0 < x.magnitudeUnits :=
    Nat.pos_of_ne_zero (isZero_iff_units.not.mp (by simp [nonzero]))
  rw [magnitude_reciprocal finite nonzero]
  calc (1 : Single).magnitude
      = Format.single.nearest ((1 : Single).magnitudeUnits * x.magnitudeUnits) x.magnitudeUnits :=
        (Format.single.nearest_units_mul positive (of_decide_eq_true isFinite_one)).symm
    _ ≤ _ := by
        apply Format.single.nearest_mono
        rw [magnitudeUnits_one_single]
        apply Nat.mul_le_mul_left
        exact magnitudeUnits_one_single ▸ magnitudeUnits_mono below

/-- Numbers above one have reciprocals up to one. -/
theorem reciprocal_le_one (finite : x.isFinite = true) (nonzero : x.isZero = false)
    (above : (1 : Single).magnitude ≤ x.magnitude)
    : (1 / x).magnitude ≤ (1 : Single).magnitude := by
  have positive : 0 < x.magnitudeUnits :=
    Nat.pos_of_ne_zero (isZero_iff_units.not.mp (by simp [nonzero]))
  rw [magnitude_reciprocal finite nonzero]
  apply nearest_le_magnitude positive isFinite_one
  rw [magnitudeUnits_one_single]
  apply Nat.mul_le_mul_left
  exact magnitudeUnits_one_single ▸ magnitudeUnits_mono above

/-- Only one and minus one are their own reciprocals. -/
theorem eq_one_of_reciprocal (finite : x.isFinite = true) (nonzero : x.isZero = false)
    (same : 1 / x = x)
    : x = 1 ∨ x = ofInt (-1) := by
  have magnitude : x.magnitude = (1 : Single).magnitude := by
    rcases Nat.le_total x.magnitude (1 : Single).magnitude with below | above
    · have beyond := one_le_reciprocal finite nonzero below
      rw [same] at beyond
      exact Nat.le_antisymm below beyond
    · have within := reciprocal_le_one finite nonzero above
      rw [same] at within
      exact Nat.le_antisymm within above
  obtain ⟨negative, position, bound⟩ := x
  obtain rfl : position = (1 : Single).magnitude := magnitude
  cases negative with
  | false => exact .inl rfl
  | true =>
      have negated : (ofInt (-1) : Single) = neg 1 := by decide +kernel
      rw [negated]
      exact .inr rfl

end Binary.Number

namespace WeightMap

variable {weight : Weight}

/-- A finite weight is its own cost. -/
theorem apply_identity (finite : weight.isFinite = true) : identity.apply weight = weight :=
  if_pos finite

/-- What is shown for the relevance of a weight is another weight. The greatest weight stands for
no reciprocal, but its own reciprocal is finite.
-/
theorem apply_reciprocal_ne (finite : weight.isFinite = true) (notOne : weight ≠ 1)
    (notMinusOne : weight ≠ .ofInt (-1))
    : reciprocal.apply weight ≠ weight := by
  intro same
  have shown : (if (1 / weight).isFinite then 1 / weight else .greatest .single) = weight := same
  cases kept : (1 / weight).isFinite with
  | true =>
      rw [if_pos kept] at shown
      have nonzero : weight.isZero = false := by
        apply Bool.eq_false_iff.mpr
        intro zero
        rw [Number.div_of_isZero Number.isFinite_one rfl finite zero] at kept
        exact absurd kept Bool.false_ne_true
      rcases Number.eq_one_of_reciprocal finite nonzero shown with one | minusOne
      · exact notOne one
      · exact notMinusOne minusOne
  | false =>
      rw [if_neg (by simp [kept])] at shown
      rw [← shown] at kept
      exact absurd kept (by decide +kernel)

end WeightMap

end GraphShell
