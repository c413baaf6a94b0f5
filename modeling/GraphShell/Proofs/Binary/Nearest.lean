import GraphShell.Proofs.Binary.Order

/-! What rounding promises: no magnitude of the format is nearer to the quotient than the one that
is taken, and of two that are equally near it is the one at the even position. So what a whole
number is rounded to is the number nearest to it.
-/

namespace GraphShell.Binary

-----------------------------------------------------------------------------------------
-- Gaps
-----------------------------------------------------------------------------------------

/-- Of the two ends of a gap the nearer one is taken for a value, or the even one if both are as
near.
-/
def TakesEnd (point : Nat → Nat) (value below taken : Nat) : Prop :=
  taken = below
    ∧ 2 * value ≤ point below + point (below + 1)
    ∧ (2 * value = point below + point (below + 1) → below % 2 = 0)
  ∨ taken = below + 1
    ∧ point below + point (below + 1) ≤ 2 * value
    ∧ (point below + point (below + 1) = 2 * value → (below + 1) % 2 = 0)

/-- Another point is no nearer than the end taken, and as near only if that one is even: it lies on
the far side of the taken end, or at or beyond the other end of the gap.
-/
theorem TakesEnd.nearest {point : Nat → Nat} {value below taken other : Nat}
    (takes : TakesEnd point value below taken) (increasing : StrictMono point)
    (low : point below ≤ value) (high : value ≤ point (below + 1)) (differs : other ≠ taken)
    : (point taken - value : Int).natAbs ≤ (point other - value : Int).natAbs
      ∧ ((point taken - value : Int).natAbs = (point other - value : Int).natAbs
        → taken % 2 = 0) := by
  rcases takes with ⟨rfl, close, even⟩ | ⟨rfl, close, even⟩
  · rcases Nat.lt_or_gt_of_ne differs with less | more
    · have farther := increasing less
      omega
    · have beyond := increasing.monotone (show taken + 1 ≤ other from more)
      omega
  · rcases Nat.lt_or_gt_of_ne differs with less | more
    · have beyond := increasing.monotone (Nat.le_of_lt_succ less)
      omega
    · have farther := increasing more
      omega

-----------------------------------------------------------------------------------------
-- Positions
-----------------------------------------------------------------------------------------

namespace Format

variable (f : Format) {numerator denominator : Nat}

/-- How far a magnitude is from a quotient, counted in parts of the denominator. -/
def distance (numerator denominator position : Nat) : Nat :=
  (f.units position * denominator - numerator : Int).natAbs

theorem distance_zero (numerator : Nat) : f.distance numerator 1 0 = numerator := by
  simp [distance, f.units_zero]

theorem nearest_zero : f.nearest 0 1 = 0 := by
  rcases Nat.eq_zero_or_pos f.infinity with none | some
  · exact Nat.le_zero.mp (none ▸ f.nearest_le 0 1)
  · simpa [f.units_zero] using f.nearest_units_mul Nat.one_pos some

/-- A quotient lies between the magnitude of its position and the next one. -/
theorem units_position_bounds (numerator : Nat) (positive : 0 < denominator)
    : f.units (f.position (numerator / denominator)) * denominator ≤ numerator
      ∧ numerator < f.units (f.position (numerator / denominator) + 1) * denominator :=
  ⟨(Nat.le_div_iff_mul_le positive).mp (f.units_position_le _),
    (Nat.div_lt_iff_lt_mul positive).mp (f.lt_units_position_succ _)⟩

/-- A finite magnitude is taken from the ends of the gap that the quotient lies in. -/
theorem takesEnd_nearest (finite : f.nearest numerator denominator < f.infinity)
    : TakesEnd (fun position => f.units position * denominator) numerator
        (f.position (numerator / denominator)) (f.nearest numerator denominator) := by
  unfold TakesEnd
  rw [← Nat.add_mul]
  unfold nearest at finite ⊢
  dsimp only at finite ⊢
  split_ifs at finite ⊢ <;> omega

/-- Another magnitude is no nearer than the one taken, and as near only if that one is even. -/
theorem distance_nearest {other : Nat} (positive : 0 < denominator)
    (finite : f.nearest numerator denominator < f.infinity)
    (differs : other ≠ f.nearest numerator denominator)
    : f.distance numerator denominator (f.nearest numerator denominator)
        ≤ f.distance numerator denominator other
      ∧ (f.distance numerator denominator (f.nearest numerator denominator)
          = f.distance numerator denominator other
        → f.nearest numerator denominator % 2 = 0) := by
  obtain ⟨low, high⟩ := f.units_position_bounds numerator positive
  have increasing : StrictMono fun position => f.units position * denominator :=
    fun _ _ less => Nat.mul_lt_mul_of_pos_right (f.units_strictMono less) positive
  have nearest := (f.takesEnd_nearest finite).nearest increasing low high.le differs
  simpa only [distance, Nat.cast_mul] using nearest

end Format

-----------------------------------------------------------------------------------------
-- Whole numbers
-----------------------------------------------------------------------------------------

namespace Number

variable {f : Format} {x : Number f}

/-- How far a number is from a whole one, in least units. -/
def distance (n : Int) (x : Number f) : Nat :=
  (x.units - n * 2 ^ f.scale).natAbs

/-- The number is finite, none is nearer to the whole number, and if another one is as near then
this one is even.
-/
structure IsNearest (n : Int) (x : Number f) : Prop where
  finite : x.isFinite = true
  nearest : ∀ y : Number f, x.distance n ≤ y.distance n
  even : ∀ y : Number f, y.units ≠ x.units → x.distance n = y.distance n → x.magnitude % 2 = 0

/-- Distances are told by magnitudes: numbers of the other sign lie beyond zero. -/
theorem distance_of_sign {negative : Bool} {v : Nat} (y : Number f)
    : y.distance (if negative then -(v : Int) else v)
      = if y.negative = negative then f.distance (v * 2 ^ f.scale) 1 y.magnitude
        else y.magnitudeUnits + v * 2 ^ f.scale := by
  have whole : (v : Int) * 2 ^ f.scale = (v * 2 ^ f.scale : Nat) := by push_cast; rfl
  unfold distance Format.distance units magnitudeUnits
  cases left : y.negative <;> cases negative <;>
    simp only [Bool.false_eq_true, Bool.true_eq_false, if_true, if_false, Int.neg_mul, whole] <;>
    omega

/-- A number with the sign of a whole one and its rounded magnitude is nearest to it. -/
theorem isNearest_of_rounded {v : Nat} (finite : x.isFinite = true)
    (rounded : x.magnitude = f.nearest (v * 2 ^ f.scale) 1)
    : x.IsNearest (if x.negative then -(v : Int) else v) := by
  have below : f.nearest (v * 2 ^ f.scale) 1 < f.infinity := rounded ▸ of_decide_eq_true finite
  have best (other : Nat) (differs : other ≠ x.magnitude)
      : f.distance (v * 2 ^ f.scale) 1 x.magnitude ≤ f.distance (v * 2 ^ f.scale) 1 other
        ∧ (f.distance (v * 2 ^ f.scale) 1 x.magnitude = f.distance (v * 2 ^ f.scale) 1 other
          → x.magnitude % 2 = 0) := by
    rw [rounded] at differs ⊢
    exact f.distance_nearest Nat.one_pos below differs
  have origin := f.distance_zero (v * 2 ^ f.scale)
  have own : x.distance (if x.negative then -(v : Int) else v)
      = f.distance (v * 2 ^ f.scale) 1 x.magnitude := by
    rw [distance_of_sign, if_pos rfl]
  have zeroth : x.magnitude ≠ 0 → f.distance (v * 2 ^ f.scale) 1 x.magnitude ≤ v * 2 ^ f.scale := by
    intro some
    exact (best 0 some.symm).1.trans_eq origin
  refine ⟨finite, fun y => ?_, fun y differs same => ?_⟩
  · rw [own, distance_of_sign]
    split
    · by_cases equal : y.magnitude = x.magnitude
      · rw [equal]
      · exact (best y.magnitude equal).1
    · -- a number of the other sign is no nearer than zero
      by_cases none : x.magnitude = 0
      · rw [none, origin]
        omega
      · exact (zeroth none).trans (Nat.le_add_left _ _)
  · rw [own, distance_of_sign] at same
    split at same
    · next sign =>
        refine (best y.magnitude fun equal => differs ?_).2 same
        simp only [units, magnitudeUnits, sign, equal]
    · -- one of the other sign that is as near is a zero
      by_cases none : x.magnitude = 0
      · rw [none]
      · have tie := zeroth none
        have least : y.magnitudeUnits = 0 := by omega
        refine (best 0 (Ne.symm none)).2 ?_
        omega

end Number

end GraphShell.Binary
