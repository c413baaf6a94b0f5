import GraphShell.Proofs.Json.Scaling

/-! The literal of a finite number is read as a finite number. Digits in front of a high power
of ten are few enough, and reading takes no other power as a product.
-/

namespace GraphShell.Json

open Binary

-----------------------------------------------------------------------------------------
-- Powers of ten
-----------------------------------------------------------------------------------------

/-- The powers that are scaled by are powers of ten as whole numbers. -/
theorem powerOfTen_eq {n : Nat} (small : n ≤ greatestPower)
    : powerOfTen n = .ofNat (10 ^ n) := by
  have digits : (Text.numeral 1).length = 1 := by rw [Text.numeral_of_lt (by decide)]; rfl
  have scale : Format.double.scale = 1074 := rfl
  have front : ¬ (Format.double.scale : Int) < (n : Int) + (1 : Nat) := by
    unfold greatestPower at small
    omega
  have behind : ¬ (n : Int) + (1 : Nat) < -(Format.double.scale : Int) := by omega
  have none : (-(n : Int)).toNat = 0 := by omega
  simp only [powerOfTen, Decimal.toBinary, digits, if_neg front, if_neg behind, Int.toNat_natCast,
    none, Nat.one_mul]
  rfl

theorem magnitude_powerOfTen_mono {n m : Nat} (le : n ≤ m) (small : m ≤ greatestPower)
    : (powerOfTen n).magnitude ≤ (powerOfTen m).magnitude := by
  rw [powerOfTen_eq small, powerOfTen_eq (le.trans small)]
  exact Number.magnitude_ofNat_mono (Nat.pow_le_pow_right (by decide) le)

theorem isFinite_powerOfTen {n : Nat} (small : n ≤ greatestPower)
    : (powerOfTen n).isFinite = true := by
  have top : (powerOfTen greatestPower).isFinite = true := by decide +kernel
  exact Number.isFinite_of_le (magnitude_powerOfTen_mono small le_rfl) top

theorem le_magnitudeUnits_powerOfTen {n : Nat} (small : n ≤ greatestPower)
    : 2 ^ Format.double.scale ≤ (powerOfTen n).magnitudeUnits := by
  have one : 2 ^ Format.double.scale = (powerOfTen 0).magnitudeUnits := by decide +kernel
  rw [one]
  exact Number.magnitudeUnits_mono (magnitude_powerOfTen_mono (Nat.zero_le n) small)

theorem magnitude_div_powerOfTen_le {x : Double} (finite : x.isFinite = true) {n : Nat}
    (small : n ≤ greatestPower)
    : (x / powerOfTen n).magnitude ≤ x.magnitude :=
  Number.magnitude_div_le finite (Number.isNaN_of_isFinite (isFinite_powerOfTen small))
    (le_magnitudeUnits_powerOfTen small)

/-- Scaling down makes a number no greater, by induction on the steps. -/
theorem exists_scaleByTen_of_neg {x : Double} {exponent : Int} (finite : x.isFinite = true)
    (down : exponent < 0)
    : ∃ y, scaleByTen x exponent = .ok y ∧ y.magnitude ≤ x.magnitude := by
  fun_induction scaleByTen x exponent with
  | case1 => omega
  | case2 => omega
  | case3 x exponent near => exact ⟨_, rfl, magnitude_div_powerOfTen_le finite near⟩
  | case4 => exact ⟨_, rfl, le_rfl⟩
  | case5 => omega
  | case6 x exponent far _ _ ih =>
      have smaller := magnitude_div_powerOfTen_le finite (Nat.le_refl greatestPower)
      have still : exponent + greatestPower < 0 := by omega
      obtain ⟨y, scaled, le⟩ := ih (Number.isFinite_of_le smaller finite) still
      exact ⟨y, scaled, le.trans smaller⟩

-----------------------------------------------------------------------------------------
-- Digits in front of a power of ten
-----------------------------------------------------------------------------------------

/-- The most digits that can stand in front of a power of ten in the literal of a number whose
neighbourhood ends at a bound, in halves of the least unit.
-/
def mostDigits (f : Format) (bound power : Nat) : Nat :=
  min (40 * f.binade) (bound / (10 ^ power * 2 ^ (f.scale + 1)))

/-- Numbers up to a bound are read as doubles of a kind: with the numbers below it the kind has
whatever 64 bits hold, and the most digits in front of each power that digits are not too many
for. Up to the first of these powers any digits are few enough.
-/
structure Reach (f : Format) (bound first last : Nat) (kind : Double → Prop) : Prop where
  down : ∀ {x y}, x.magnitude ≤ y.magnitude → kind y → kind x
  finite : ∀ {x}, kind x → x.isFinite = true
  whole : kind (.ofNat UInt64.size)
  most : ∀ power ≤ last, first ≤ power → kind (.ofNat (mostDigits f bound power) * powerOfTen power)
  enough : 40 * f.binade * (10 ^ first * 2 ^ (f.scale + 1)) ≤ bound
  beyond : bound < 10 ^ (last + 1) * 2 ^ (f.scale + 1)
  ordered : first ≤ last
  small : last ≤ greatestPower
  digits : 40 * f.binade < UInt64.size

variable {f : Format} {bound first last : Nat} {kind : Double → Prop}

/-- Digits in front of a power of ten are read as a number of the kind if together they are
within the bound.
-/
theorem Reach.exists_scaleByTen (reach : Reach f bound first last kind) {digits power : Nat}
    (some : 0 < digits) (few : digits ≤ 40 * f.binade)
    (within : digits * (10 ^ power * 2 ^ (f.scale + 1)) ≤ bound)
    : ∃ y, scaleByTen (.ofNat digits) power = .ok y ∧ kind y := by
  have low : power ≤ last := by
    by_contra high
    have raised : 10 ^ (last + 1) ≤ 10 ^ power := Nat.pow_le_pow_right (by decide) (by omega)
    have front : 1 * (10 ^ (last + 1) * 2 ^ (f.scale + 1)) ≤ bound :=
      (Nat.mul_le_mul some (Nat.mul_le_mul_right _ raised)).trans within
    have beyond := reach.beyond
    omega
  -- powers in front of the first count as the first
  have fits : digits ≤ mostDigits f bound (max power first) := by
    refine le_min few ?_
    rw [Nat.le_div_iff_mul_le (Nat.mul_pos (Nat.pow_pos (by decide)) (Nat.two_pow_pos _))]
    rcases Nat.le_total first power with behind | front
    · rwa [max_eq_left behind]
    · rw [max_eq_right front]
      exact (Nat.mul_le_mul_right _ few).trans reach.enough
  have top : max power first ≤ last := max_le low reach.ordered
  have most := reach.most (max power first) top (le_max_right power first)
  have product : kind (.ofNat digits * powerOfTen power) := by
    refine reach.down (Number.magnitude_mul_mono ?_ ?_ ?_ ?_) most
    · exact Number.magnitude_ofNat_mono fits
    · exact magnitude_powerOfTen_mono (le_max_left power first) (top.trans reach.small)
    · have bounded : mostDigits f bound (max power first) ≤ UInt64.size :=
        (min_le_left _ _).trans reach.digits.le
      exact Number.isFinite_of_le (Number.magnitude_ofNat_mono bounded) (reach.finite reach.whole)
    · exact isFinite_powerOfTen (top.trans reach.small)
  refine ⟨_, ?_, product⟩
  have near : (power : Int).natAbs ≤ greatestPower := low.trans reach.small
  rw [scaleByTen, if_pos near, if_pos (Int.natCast_nonneg power)]
  exact if_pos (reach.finite product)

/-- Digits that 64 bits hold, in front of a negative power, are read as a number of the kind. -/
theorem Reach.exists_scaleByTen_of_neg (reach : Reach f bound first last kind) {digits : Nat}
    (fits : digits ≤ UInt64.size) {exponent : Int} (down : exponent < 0)
    : ∃ y, scaleByTen (.ofNat digits) exponent = .ok y ∧ kind y := by
  have below := Number.magnitude_ofNat_mono (f := .double) fits
  have finite := Number.isFinite_of_le below (reach.finite reach.whole)
  obtain ⟨y, scaled, le⟩ := Json.exists_scaleByTen_of_neg finite down
  exact ⟨y, scaled, reach.down (le.trans below) reach.whole⟩

/-- What is written for a number within the bound is read as a number of the kind. -/
theorem Reach.exists_scaleByTen_shortest (reach : Reach f bound first last kind)
    {style : Decimal.Scientific} (most : style.most ≤ 17) (x : Number f)
    (within : f.units x.magnitude + f.units (x.magnitude + 1) ≤ bound)
    : ∃ y,
        Json.scaleByTen (.ofNat ((Decimal.shortest .even x).asRead style).significand)
          ((Decimal.shortest .even x).asRead style).exponent
        = .ok y
        ∧ kind y := by
  unfold Decimal.asRead
  split
  · next whole =>
      exact reach.exists_scaleByTen_of_neg (significand_lt_of_isWhole whole most).le
        (Int.negSucc_lt_zero 0)
  · next parted =>
      cases nonzero : x.isZero with
      | true =>
          refine absurd ?_ parted
          rw [Decimal.shortest, if_pos nonzero]
          exact ⟨fun some => absurd rfl some, le_rfl⟩
      | false =>
          obtain ⟨digits, place, same, found⟩ := Decimal.exists_shortest .even nonzero
          rw [same]
          rcases Nat.lt_or_ge place (f.scale + 1) with behind | front
          · refine reach.exists_scaleByTen_of_neg (found.few.trans reach.digits.le) ?_
            dsimp only
            omega
          · obtain ⟨power, rfl⟩ := Nat.exists_eq_add_of_le front
            have exponent : ((f.scale + 1 + power : Nat) : Int) - (f.scale + 1) = power := by omega
            have high := (Decimal.Neighbourhood.contains_iff.mp found.inside).2.1
            rw [exponent]
            refine reach.exists_scaleByTen found.some found.few (le_trans ?_ within)
            refine Nat.le_of_mul_le_mul_right ?_ (Nat.pow_pos (by decide) : 0 < 5 ^ (f.scale + 1))
            calc digits * (10 ^ power * 2 ^ (f.scale + 1)) * 5 ^ (f.scale + 1)
                = digits * 10 ^ (f.scale + 1 + power) := by
                  rw [Nat.pow_add 10 (f.scale + 1), ten_pow_succ]
                  ring
              _ ≤ (f.units x.magnitude + f.units (x.magnitude + 1)) * 5 ^ (f.scale + 1) := high

-----------------------------------------------------------------------------------------
-- Weights and doubles
-----------------------------------------------------------------------------------------

/-- The literals of all finite numbers of single precision are within reach. -/
theorem reach_single
    : Reach .single
        (Format.single.units (Format.single.infinity - 1)
          + Format.single.units Format.single.infinity)
        30 38 FitsSingle where
  down := FitsSingle.of_le
  finite fits := fits.1
  whole := by decide +kernel
  most := by decide +kernel
  enough := by decide +kernel
  beyond := by decide +kernel
  ordered := by decide
  small := by decide
  digits := by decide

/-- The literals of all finite doubles but the greatest ones are within reach. -/
theorem reach_double
    : Reach .double
        (Format.double.units (Format.double.infinity - 2)
          + Format.double.units (Format.double.infinity - 1))
        290 308 (fun x => x.isFinite = true) where
  down := Number.isFinite_of_le
  finite finite := finite
  whole := by decide +kernel
  most := by decide +kernel
  enough := by decide +kernel
  beyond := by decide +kernel
  ordered := by decide
  small := by decide
  digits := by decide

theorem exists_scaleByTen_single {x : Single} (finite : x.isFinite = true)
    : ∃ y,
        scaleByTen (.ofNat ((Decimal.shortest .even x).asRead singleStyle).significand)
          ((Decimal.shortest .even x).asRead singleStyle).exponent
        = .ok y
        ∧ FitsSingle y := by
  have below : x.magnitude < Format.single.infinity := of_decide_eq_true finite
  refine reach_single.exists_scaleByTen_shortest (by decide) x (Nat.add_le_add ?_ ?_)
  · exact Format.single.units_strictMono.monotone (by omega)
  · exact Format.single.units_strictMono.monotone (by omega)

/-- The greatest doubles are read as one of them. -/
theorem scaleByTen_greatest (negative : Bool)
    : let d := (Decimal.shortest .even ((Number.greatest .double).withSign negative)).asRead
        doubleStyle
      scaleByTen (.ofNat d.significand) d.exponent = .ok (.greatest .double) := by
  cases negative <;> decide +kernel

theorem exists_scaleByTen_double {x : Double} (finite : x.isFinite = true)
    : ∃ y,
        scaleByTen (.ofNat ((Decimal.shortest .even x).asRead doubleStyle).significand)
          ((Decimal.shortest .even x).asRead doubleStyle).exponent
        = .ok y := by
  have below : x.magnitude < Format.double.infinity := of_decide_eq_true finite
  by_cases top : x.magnitude = Format.double.infinity - 1
  · have same : x = (Number.greatest .double).withSign x.negative := by
      obtain ⟨negative, magnitude, bound⟩ := x
      obtain rfl := top
      rfl
    rw [same]
    exact ⟨_, scaleByTen_greatest x.negative⟩
  · have within : x.magnitude ≤ Format.double.infinity - 2 := by omega
    have next : x.magnitude + 1 ≤ Format.double.infinity - 1 := by omega
    have most : doubleStyle.most ≤ 17 := by decide
    obtain ⟨y, scaled, -⟩ := reach_double.exists_scaleByTen_shortest most x
      (Nat.add_le_add (Format.double.units_strictMono.monotone within)
        (Format.double.units_strictMono.monotone next))
    exact ⟨y, scaled⟩

end GraphShell.Json
