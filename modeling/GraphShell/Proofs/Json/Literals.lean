import GraphShell.Decimal.Reading
import GraphShell.Proofs.Decimal.Integers
import GraphShell.Proofs.Decimal.Shortest
import GraphShell.Proofs.Json.Words

/-! The literals of different finite numbers differ: digits that are read without being rounded
are those that were written, and these lie in the neighbourhood of one number only.
-/

namespace GraphShell.Decimal

open Text Binary

variable {whole fraction rest : List Char}

-----------------------------------------------------------------------------------------
-- Digits read as they are
-----------------------------------------------------------------------------------------

/-- Reads a sign and an unsigned decimal, none of whose digits are lost. -/
def readSigned? (text : List Char) : Option Decimal :=
  readUnsigned? (splitSign text).1 (splitSign text).2

theorem readUnsigned?_point (run : Digits whole) (some : whole ≠ []) (places : Digits fraction)
    (stops : NoDigitAhead rest) (negative : Bool)
    : readUnsigned? negative (whole ++ '.' :: (fraction ++ rest))
      = (readExponent? rest).map fun exponent =>
          ⟨negative, numeralValue (whole ++ fraction), exponent - fraction.length⟩ := by
  have point : NoDigitAhead ('.' :: (fraction ++ rest)) := noDigitAhead_cons rfl
  simp [readUnsigned?, splitDigits_append run point, splitDigits_append places stops, some]

theorem readUnsigned?_letter (run : Digits whole) (some : whole ≠ []) (negative : Bool)
    : readUnsigned? negative (whole ++ 'e' :: rest)
      = (readExponent? ('e' :: rest)).map fun exponent =>
          ⟨negative, numeralValue whole, exponent⟩ := by
  have letter : NoDigitAhead ('e' :: rest) := noDigitAhead_cons rfl
  simp [readUnsigned?, splitDigits_append run letter, some]

/-- A sign is taken off a numeral, which begins with none. -/
theorem readSigned?_sign (negative : Bool) (n : Nat) (rest : List Char)
    : readSigned? (signText negative ++ (numeral n ++ rest))
      = readUnsigned? negative (numeral n ++ rest) := by
  cases negative with
  | true => rfl
  | false =>
      obtain ⟨c, more, same⟩ := List.exists_cons_of_ne_nil (numeral_ne_nil n)
      have digit := digits_numeral n c (same ▸ List.mem_cons_self)
      rw [signText, if_neg Bool.false_ne_true, List.nil_append, same, List.cons_append, readSigned?,
        splitSign_of_digit digit]

/-- A numeral with a point in it is read as its digits. -/
theorem readSigned?_pointed (n : Nat) {places : Nat} (some : places ≠ 0)
    (stops : NoDigitAhead rest) (negative : Bool)
    : readSigned? (signText negative ++ (pointed (numeral n) places ++ rest))
      = (readExponent? rest).map fun exponent => ⟨negative, n, exponent - places⟩ := by
  obtain ⟨whole, fraction, text, run, length, value⟩ := exists_pointed n some
  have digits : numeralValue (numeral whole ++ fraction) = n := by
    rw [numeralValue_append, numeralValue_numeral, length, value]
  rw [text, List.append_assoc, List.cons_append, readSigned?_sign,
    readUnsigned?_point (digits_numeral whole) (numeral_ne_nil whole) run stops, digits, length]

theorem readInteger?_signed (power : Int)
    : readInteger? ((if power < 0 then '-' else '+') :: numeral power.natAbs) = some power := by
  have read : readNumeral? (numeral power.natAbs) = some power.natAbs := by
    have all : (numeral power.natAbs).all isDigit = true :=
      List.all_eq_true.mpr (digits_numeral power.natAbs)
    simp [readNumeral?, numeral_ne_nil, all]
  by_cases below : power < 0
  · have same : -(power.natAbs : Int) = power := by omega
    rw [if_pos below, readInteger?, read]
    exact congrArg some same
  · have same : Int.ofNat power.natAbs = power := Int.natAbs_of_nonneg (by omega)
    rw [if_neg below, readInteger?, read]
    exact congrArg some same

/-- A decimal with a power of ten is read as it is. -/
theorem readSigned?_scientific (d : Decimal) : readSigned? d.scientific = some d := by
  have letter {text : List Char} : NoDigitAhead ('e' :: text) := noDigitAhead_cons rfl
  have power (exponent : Int)
      : readExponent? ('e' :: (if exponent < 0 then '-' else '+') :: numeral exponent.natAbs)
        = some exponent := by
    rw [readExponent?, if_pos (.inl rfl), readInteger?_signed]
  simp only [scientific, List.append_assoc]
  rcases Nat.eq_zero_or_pos ((numeral d.significand).length - 1) with single | several
  · rw [single, pointed, if_pos rfl, readSigned?_sign,
      readUnsigned?_letter (digits_numeral _) (numeral_ne_nil _), power, numeralValue_numeral]
    simp
  · rw [readSigned?_pointed _ several.ne' letter, power]
    simp

/-- A whole decimal in positions is read as its digits with a zero behind them. -/
theorem readSigned?_whole {d : Decimal} (whole : 0 ≤ d.exponent)
    (zero : d.significand = 0 → d.exponent = 0)
    : readSigned? (d.positional ++ ['.', '0'])
      = some ⟨d.negative, d.significand * 10 ^ (d.exponent.toNat + 1), -1⟩ := by
  have run : Digits ['0'] := digits_replicate 1
  have read := readUnsigned?_point (digits_numeral (d.significand * 10 ^ d.exponent.toNat))
    (numeral_ne_nil _) run noDigitAhead_nil d.negative
  rw [positional_of_whole whole zero, List.append_assoc, readSigned?_sign]
  refine read.trans ?_
  simp [readExponent?, numeralValue_append, numeralValue_singleton, Nat.pow_succ, Nat.mul_assoc]

/-- A decimal in positions with digits behind the point is read as it is. -/
theorem readSigned?_positional {d : Decimal} (behind : d.exponent < 0)
    : readSigned? d.positional = some d := by
  have places : (-d.exponent).toNat ≠ 0 := by omega
  have none : d.exponent.toNat = 0 := by omega
  have exponent : 0 - ((-d.exponent).toNat : Int) = d.exponent := by omega
  have read := readSigned?_pointed d.significand places noDigitAhead_nil d.negative
  rw [List.append_nil, readExponent?, Option.map_some, exponent] at read
  rw [positional]
  simp only [none, List.replicate_zero, List.append_nil]
  exact read

/-- What is written for a decimal is read as its digits in the style. -/
theorem readSigned?_written (style : Scientific) {d : Decimal}
    (zero : d.significand = 0 → d.exponent = 0)
    : readSigned? (d.written style) = some (d.asRead style) := by
  rcases written_cases style d with ⟨whole, text⟩ | ⟨apart, text | ⟨behind, text⟩⟩
  · rw [text, asRead, if_pos whole]
    exact readSigned?_whole whole.2 zero
  · rw [text, asRead, if_neg apart]
    exact readSigned?_scientific d
  · rw [text, asRead, if_neg apart]
    exact readSigned?_positional behind

-----------------------------------------------------------------------------------------
-- Points
-----------------------------------------------------------------------------------------

/-- A decimal as a count of the places where the halves of a format's least unit end. -/
def points (f : Format) (d : Decimal) : Nat :=
  d.significand * 10 ^ (d.exponent + (f.scale + 1)).toNat

@[simp]
theorem negative_asRead (style : Scientific) (d : Decimal)
    : (d.asRead style).negative = d.negative := by
  unfold asRead
  split <;> rfl

/-- The zero behind the point leaves the decimal the same point. -/
theorem points_asRead (f : Format) (style : Scientific) (d : Decimal)
    : (d.asRead style).points f = d.points f := by
  unfold asRead
  split
  · next whole =>
      have front := whole.2
      have places : (d.exponent + (f.scale + 1)).toNat = d.exponent.toNat + 1 + f.scale := by omega
      have rest : (-1 + ((f.scale : Int) + 1)).toNat = f.scale := by omega
      simp only [points, places, rest]
      rw [Nat.mul_assoc, ← Nat.pow_add]
  · rfl

/-- The digits of a finite number are rounded to it. -/
theorem nearest_points_shortest {f : Format} (tie : Tie) {x : Number f}
    (finite : x.isFinite = true)
    : f.nearest ((shortest tie x).points f) (2 * 5 ^ (f.scale + 1)) = x.magnitude := by
  have positive : 0 < 2 * 5 ^ (f.scale + 1) :=
    Nat.mul_pos Nat.two_pos (Nat.pow_pos (by decide))
  have below : x.magnitude < f.infinity := of_decide_eq_true finite
  cases zero : x.isZero with
  | true =>
      have nothing : x.magnitude = 0 := eq_of_beq zero
      have none : (shortest tie x).points f = f.units 0 * (2 * 5 ^ (f.scale + 1)) := by
        rw [shortest, if_pos zero, points, f.units_zero, Nat.zero_mul, Nat.zero_mul]
      rw [none, f.nearest_units_mul positive (nothing ▸ below), nothing]
  | false =>
      obtain ⟨digits, place, written, near⟩ := exists_shortest tie zero
      have point : (shortest tie x).points f = digits * 10 ^ place := by
        rw [written, points, Int.sub_add_cancel, Int.toNat_natCast]
      rw [point]
      apply Neighbourhood.nearest_eq_of_contains positive below near.inside
      ring

end GraphShell.Decimal

-----------------------------------------------------------------------------------------
-- Literals
-----------------------------------------------------------------------------------------

namespace GraphShell.Json

open Binary

variable {f : Format} {x y : Number f}

/-- The literal of a finite number has the digits of the number. -/
theorem readSigned?_literal (style : Decimal.Scientific) (finite : x.isFinite = true)
    : Decimal.readSigned? (number style x).toList
      = some ((Decimal.shortest .even x).asRead style) := by
  rw [toList_number style finite,
    Decimal.readSigned?_written style Decimal.exponent_shortest_of_zero]

/-- Finite numbers of one format with the same literal are the same number. -/
theorem number_injective (style : Decimal.Scientific) (left : x.isFinite = true)
    (right : y.isFinite = true) (same : number style x = number style y)
    : x = y := by
  have digits
      : (Decimal.shortest .even x).asRead style = (Decimal.shortest .even y).asRead style := by
    apply Option.some.inj
    rw [← readSigned?_literal style left, same, readSigned?_literal style right]
  have sign : x.negative = y.negative := by
    have signs := congrArg Decimal.negative digits
    rwa [Decimal.negative_asRead, Decimal.negative_asRead, Decimal.negative_shortest,
      Decimal.negative_shortest] at signs
  have magnitude : x.magnitude = y.magnitude := by
    rw [← Decimal.nearest_points_shortest .even left, ← Decimal.points_asRead f style, digits,
      Decimal.points_asRead, Decimal.nearest_points_shortest .even right]
  obtain ⟨negative, position, bound⟩ := x
  obtain rfl : negative = y.negative := sign
  obtain rfl : position = y.magnitude := magnitude
  rfl

end GraphShell.Json
