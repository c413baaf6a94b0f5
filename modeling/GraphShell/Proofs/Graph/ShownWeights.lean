import GraphShell.Graph.Decoding
import GraphShell.Proofs.Binary.Nearest
import GraphShell.Proofs.Graph.CostOrder

/-! What a tree shows for a weight of any kind, infinity and what is no number included. By cost it
is the weight, by relevance the rounded reciprocal, and in place of either the greatest weight if it
is not finite. Infinity has a finite reciprocal, so by relevance it is shown as zero.
-/

namespace GraphShell

namespace Binary.Number

/-- A finite number divided by what is no number is that. -/
theorem div_of_isNaN {f : Format} {x y : Number f} (left : x.isFinite = true)
    (nan : y.isNaN = true)
    : x / y = y := by
  refine (if_neg ?_).trans (if_pos nan)
  exact Bool.eq_false_iff.mp (isNaN_of_isFinite left)

end Binary.Number

namespace WeightMap

open Binary

/-- How far a magnitude is from the exact reciprocal of a weight, in parts of the weight. The
magnitudes from infinity on count as numbers beyond the greatest one.
-/
def distanceToReciprocal (weight : Weight) (position : Nat) : Nat :=
  Format.single.distance (2 ^ Format.single.scale * 2 ^ Format.single.scale)
    weight.magnitudeUnits position

/-- The number shown is the reciprocal of the weight, rounded: it has the sign of the weight, no
magnitude is nearer to the exact reciprocal, and if another one is as near then this one is even.
-/
structure IsReciprocal (weight shown : Weight) : Prop where
  finite : shown.isFinite = true
  sign : shown.negative = weight.negative
  nearest
    : ∀ other, distanceToReciprocal weight shown.magnitude ≤ distanceToReciprocal weight other
  even
    : ∀ other,
        other ≠ shown.magnitude
        → distanceToReciprocal weight shown.magnitude = distanceToReciprocal weight other
        → shown.magnitude % 2 = 0

/-- The greatest magnitude, in least units, whose reciprocal is beyond the greatest weight: that of
the weight `2 ^ -128`.
-/
def overflowUnits : Nat := 2 ^ 21

/-- What is shown for a weight, by the kind of the weight. -/
inductive Shows : WeightMap → Weight → Weight → Prop
  | itself {weight} (finite : weight.isFinite = true) : Shows identity weight weight
  | clamped {weight} (infinite : weight.isFinite = false)
    : Shows identity weight (.greatest .single)
  | rounded {weight shown} (finite : weight.isFinite = true)
    (wide : overflowUnits < weight.magnitudeUnits) (rounds : IsReciprocal weight shown)
    : Shows reciprocal weight shown
  | overflown {weight} (finite : weight.isFinite = true)
    (narrow : weight.magnitudeUnits ≤ overflowUnits)
    : Shows reciprocal weight (.greatest .single)
  | undefined {weight} (nan : weight.isNaN = true) : Shows reciprocal weight (.greatest .single)
  | vanished {weight} (number : weight.isNaN = false) (infinite : weight.isFinite = false)
    : Shows reciprocal weight (.zero weight.negative)

variable {weight : Weight}

/-- A reciprocal is finite from the first weight beyond `2 ^ -128` on, since reciprocals are in the
opposite order and those of this weight and of the next one lie on either side of the limit.
-/
theorem isFinite_reciprocal_iff (finite : weight.isFinite = true)
    : (1 / weight).isFinite = true ↔ overflowUnits < weight.magnitudeUnits := by
  have last : Format.single.nearest (2 ^ Format.single.scale * 2 ^ Format.single.scale)
      overflowUnits = Format.single.infinity := by
    decide +kernel
  have first : Format.single.nearest (2 ^ Format.single.scale * 2 ^ Format.single.scale)
      (overflowUnits + 1) < Format.single.infinity := by
    decide +kernel
  cases zero : weight.isZero with
  | true =>
      rw [Number.reciprocal_of_isZero finite zero, Number.isZero_iff_units.mp zero]
      simp [Number.isFinite, Number.infinite]
  | false =>
      have positive : 0 < weight.magnitudeUnits :=
        Nat.pos_of_ne_zero (Number.isZero_iff_units.not.mp (by simp [zero]))
      rw [Number.isFinite, decide_eq_true_eq, Number.magnitude_reciprocal finite zero]
      constructor
      · intro below
        by_contra narrow
        have more := Format.single.nearest_antitone positive (Nat.not_lt.mp narrow)
          (2 ^ Format.single.scale * 2 ^ Format.single.scale)
        omega
      · intro wide
        have less := Format.single.nearest_antitone (Nat.succ_pos overflowUnits) wide
          (2 ^ Format.single.scale * 2 ^ Format.single.scale)
        exact less.trans_lt first

theorem isReciprocal_reciprocal (finite : weight.isFinite = true)
    (wide : overflowUnits < weight.magnitudeUnits)
    : IsReciprocal weight (1 / weight) := by
  have positive : 0 < weight.magnitudeUnits := (Nat.zero_le _).trans_lt wide
  have kept := (isFinite_reciprocal_iff finite).mpr wide
  have magnitude := Number.magnitude_reciprocal finite (Number.isZero_of_units positive)
  have below : Format.single.nearest (2 ^ Format.single.scale * 2 ^ Format.single.scale)
      weight.magnitudeUnits < Format.single.infinity :=
    magnitude ▸ of_decide_eq_true kept
  refine ⟨kept, Number.negative_reciprocal finite, fun other => ?_, fun other differs => ?_⟩
  · rw [magnitude]
    by_cases same : other = Format.single.nearest
        (2 ^ Format.single.scale * 2 ^ Format.single.scale) weight.magnitudeUnits
    · rw [same]
    · exact (Format.single.distance_nearest positive below same).1
  · rw [magnitude] at differs ⊢
    exact (Format.single.distance_nearest positive below differs).2

theorem shows_apply (map : WeightMap) (weight : Weight) : map.Shows weight (map.apply weight) := by
  cases map with
  | identity =>
      cases finite : weight.isFinite with
      | true =>
          rw [apply_identity finite]
          exact .itself finite
      | false =>
          have shown : identity.apply weight = .greatest .single := if_neg (by simp [finite])
          exact shown ▸ .clamped finite
  | reciprocal =>
      cases finite : weight.isFinite with
      | true =>
          rcases Nat.lt_or_ge overflowUnits weight.magnitudeUnits with wide | narrow
          · have kept := (isFinite_reciprocal_iff finite).mpr wide
            have shown : reciprocal.apply weight = 1 / weight := if_pos kept
            exact shown ▸ .rounded finite wide (isReciprocal_reciprocal finite wide)
          · have lost := (isFinite_reciprocal_iff finite).not.mpr (Nat.not_lt.mpr narrow)
            have shown : reciprocal.apply weight = .greatest .single := if_neg lost
            exact shown ▸ .overflown finite narrow
      | false =>
          cases nan : weight.isNaN with
          | true =>
              have quotient : 1 / weight = weight := Number.div_of_isNaN Number.isFinite_one nan
              have shown : reciprocal.apply weight = .greatest .single :=
                if_neg (by simp [quotient, finite])
              exact shown ▸ .undefined nan
          | false =>
              have quotient : 1 / weight = .zero weight.negative :=
                (Number.div_of_infinite Number.isFinite_one nan finite).trans
                  (congrArg Number.zero (Bool.false_bne _))
              have kept : (1 / weight).isFinite = true := by
                rw [quotient]
                rfl
              have shown : reciprocal.apply weight = .zero weight.negative :=
                (if_pos kept).trans quotient
              exact shown ▸ .vanished nan finite

/-- Whatever the weight, a tree shows a finite one: the weight or its rounded reciprocal, or the
greatest weight in place of a result that is not finite. The cost is what is shown, or zero if that
is negative; so it is finite and not below zero.
-/
theorem shown_weight_finite (map : WeightMap) (weight : Weight)
    : map.Shows weight (map.apply weight)
      ∧ (map.apply weight).isFinite = true
      ∧ (map.cost weight).isFinite = true
      ∧ (Number.zero false).le (map.cost weight) = true
      ∧ (map.cost weight).units
        = Max.max (map.apply weight).units 0
          * 2 ^ (Format.double.scale - Format.single.scale) := by
  refine ⟨map.shows_apply weight, map.isFinite_apply weight, map.isFinite_cost weight, ?_, ?_⟩
  · exact (Number.unsigned_zero.le_iff (map.unsigned_cost weight)).mpr (Nat.zero_le _)
  · rw [units_cost, charge, Int.toNat_eq_max]

/-- A text may give an edge a weight beyond all finite ones, which is read as infinity. Its
reciprocal is zero and stays zero.
-/
theorem infinite_weight_vanishes
    : ∃ graph,
        Graph.ofJson "\x7b\"edges\":\x7b\"s\":\x7b\"a\":1e39\x7d\x7d\x7d" = .ok graph
        ∧ graph.weight? "s" "a" = some (.infinite false)
        ∧ (Number.infinite false : Weight).isFinite = false
        ∧ reciprocal.apply (.infinite false) = .zero false
        ∧ reciprocal.apply (.infinite false) ≠ .greatest .single :=
  ⟨⟨.empty, KeyMap.empty.insert "s" (KeyMap.empty.insert "a" (.infinite false))⟩,
    by decide +kernel, by decide +kernel, by decide, by decide +kernel, by decide +kernel⟩

end WeightMap

end GraphShell
