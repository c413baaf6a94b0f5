import GraphShell.Json.Lexical
import GraphShell.Json.Number
import GraphShell.Proofs.Decimal.Positions
import GraphShell.Scalar.Basic

/-! What is written for a number is read as a significand and a power of ten again. They are those
that were written, or ten times the whole number where only a zero is behind the point. What is
written for a string is read as the string.
-/

namespace GraphShell.Json

open Text

variable {digits rest : List Char}

-----------------------------------------------------------------------------------------
-- Runs of digits
-----------------------------------------------------------------------------------------

/-- Digits that 64 bits have room for are taken whole, by induction on them. -/
theorem takeSignificand_append {significand : Nat} (run : Digits digits)
    (fits : significand * 10 ^ digits.length + numeralValue digits < UInt64.size)
    (stops : NoDigitAhead rest)
    : takeSignificand significand (digits ++ rest)
      = (significand * 10 ^ digits.length + numeralValue digits, digits.length, rest) := by
  induction digits generalizing significand with
  | nil =>
      cases rest with
      | nil => simp [takeSignificand, numeralValue]
      | cons c rest => simp [takeSignificand, numeralValue, stops c rfl]
  | cons c digits ih =>
      have digit := run c List.mem_cons_self
      have value : numeralValue (c :: digits)
          = (c.toNat - 48) * 10 ^ digits.length + numeralValue digits := by
        rw [← List.singleton_append, numeralValue_append, numeralValue_singleton]
      have total : significand * 10 ^ (c :: digits).length + numeralValue (c :: digits)
          = (significand * 10 + (c.toNat - 48)) * 10 ^ digits.length + numeralValue digits := by
        rw [value, List.length_cons, Nat.pow_succ', ← Nat.mul_assoc]
        ring
      rw [total] at fits ⊢
      have room : significand * 10 + (c.toNat - 48) < UInt64.size := by
        refine Nat.lt_of_le_of_lt (Nat.le_trans ?_ (Nat.le_add_right _ _)) fits
        exact Nat.le_mul_of_pos_right _ (Nat.pow_pos (by decide))
      have later := ih (fun d member => run d (List.mem_cons_of_mem _ member)) fits
      simp only [List.cons_append, takeSignificand, digit, room, decide_true, Bool.and_self,
        if_pos, later, List.length_cons]

theorem digitAhead_eq_false (stops : NoDigitAhead rest) : digitAhead rest = false := by
  cases rest with
  | nil => rfl
  | cons c rest => exact stops c rfl

/-- Nothing that belongs to a number is ahead. -/
def NumberEnds (text : List Char) : Prop :=
  ∀ c ∈ text.head?, isDigit c = false ∧ c ≠ '.' ∧ c ≠ 'e' ∧ c ≠ 'E'

theorem NumberEnds.noDigitAhead (ends : NumberEnds rest) : NoDigitAhead rest :=
  fun c member => (ends c member).1

-----------------------------------------------------------------------------------------
-- Numbers in positions
-----------------------------------------------------------------------------------------

theorem readTail_of_ends (ends : NumberEnds rest) (negative : Bool) (significand : Nat)
    (exponent : Int)
    : readTail negative significand exponent rest
      = (scaledNumber negative significand exponent).map fun number => (number, rest) := by
  unfold readTail
  split
  · exact absurd rfl (ends _ rfl).2.2.1
  · exact absurd rfl (ends _ rfl).2.2.2
  · rfl

theorem readBehindWhole_of_ends (ends : NumberEnds rest) (negative : Bool) (significand : Nat)
    : readBehindWhole negative significand rest = .ok (wholeNumber negative significand, rest) := by
  unfold readBehindWhole
  rw [ends.noDigitAhead.takeWhile_eq]
  dsimp only [List.length_nil, List.drop_zero]
  split
  · next point =>
      obtain rfl : rest = _ := point
      exact absurd rfl (ends _ rfl).2.1
  · simp only [List.isEmpty_nil, if_true]
    split
    · next exponent =>
        obtain rfl : rest = _ := exponent
        exact absurd rfl (ends _ rfl).2.2.1
    · next exponent =>
        obtain rfl : rest = _ := exponent
        exact absurd rfl (ends _ rfl).2.2.2
    · rfl

theorem readBehindWhole_point (negative : Bool) (significand : Nat) (rest : List Char)
    : readBehindWhole negative significand ('.' :: rest)
      = readPlaces negative significand 0 rest := rfl

theorem readBehindWhole_exponent (negative : Bool) (significand : Nat) (rest : List Char)
    : readBehindWhole negative significand ('e' :: rest)
      = readExponent negative significand 0 rest := rfl

theorem readPlaces_append {significand : Nat} (run : Digits digits) (some : digits ≠ [])
    (fits : significand * 10 ^ digits.length + numeralValue digits < UInt64.size)
    (stops : NoDigitAhead rest) (negative : Bool) (exponent : Int)
    : readPlaces negative significand exponent (digits ++ rest)
      = readTail negative (significand * 10 ^ digits.length + numeralValue digits)
          (exponent - digits.length) rest := by
  have taken : digits.length ≠ 0 := fun none => some (List.length_eq_zero_iff.mp none)
  simp [readPlaces, takeSignificand_append run fits stops, taken, stops.dropWhile_eq]

/-- A whole number is read in front of what follows its digits. -/
theorem readUnsigned_numeral {n : Nat} (fits : n < UInt64.size) (stops : NoDigitAhead rest)
    (negative : Bool)
    : readUnsigned negative (numeral n ++ rest) = readBehindWhole negative n rest := by
  rcases Nat.eq_zero_or_pos n with rfl | positive
  · rw [numeral_of_lt (by decide)]
    exact if_neg (by simp [digitAhead_eq_false stops])
  · obtain ⟨c, more, same, digit, nonzero⟩ := exists_numeral_eq_cons positive.ne'
    have taken : takeSignificand 0 (numeral n ++ rest) = (n, (numeral n).length, rest) := by
      rw [takeSignificand_append (digits_numeral n) (by simpa using fits) stops]
      simp
    rw [same, List.cons_append] at taken ⊢
    unfold readUnsigned
    split
    · next empty => cases empty
    · next zero => exact absurd (List.cons.inj zero).1 nonzero
    · rw [taken, digitAhead, digit, if_pos rfl]

/-- A sign is taken off. -/
theorem readNumber_sign (negative : Bool) (n : Nat) (rest : List Char)
    : readNumber (Decimal.signText negative ++ (numeral n ++ rest))
      = readUnsigned negative (numeral n ++ rest) := by
  cases negative with
  | true => rfl
  | false =>
      obtain ⟨c, more, same⟩ := List.exists_cons_of_ne_nil (numeral_ne_nil n)
      have digit := digits_numeral n c (same ▸ List.mem_cons_self)
      have unsigned : c ≠ '-' := by
        rintro rfl
        exact absurd digit (by decide)
      simp only [Decimal.signText, Bool.false_eq_true, if_false, List.nil_append, same,
        List.cons_append]
      unfold readNumber
      split
      · next minus => exact absurd (List.cons.inj minus).1 unsigned
      · rfl

/-- A number with a point is read as its digits and the number of places. -/
theorem readNumber_pointed {n places : Nat} (some : places ≠ 0) (fits : n < UInt64.size)
    (stops : NoDigitAhead rest) (negative : Bool)
    : readNumber (Decimal.signText negative ++ (Decimal.pointed (numeral n) places ++ rest))
      = readTail negative n (-(places : Int)) rest := by
  obtain ⟨whole, fraction, same, run, length, value⟩ := Decimal.exists_pointed n some
  have nonempty : fraction ≠ [] := by
    rintro rfl
    exact some length.symm
  have within : whole < UInt64.size := by
    refine Nat.lt_of_le_of_lt ?_ fits
    rw [← value]
    exact (Nat.le_mul_of_pos_right _ (Nat.pow_pos (by decide))).trans (Nat.le_add_right _ _)
  have point : NoDigitAhead ('.' :: (fraction ++ rest)) := noDigitAhead_cons rfl
  rw [same, List.append_assoc, List.cons_append, readNumber_sign,
    readUnsigned_numeral within point, readBehindWhole_point,
    readPlaces_append run nonempty (by rwa [length, value]) stops, length, value, Int.zero_sub]

/-- A whole number with a zero behind the point is read as ten times the number of tenths. -/
theorem readNumber_point_zero {n : Nat} (fits : n * 10 < UInt64.size) (stops : NoDigitAhead rest)
    (negative : Bool)
    : readNumber (Decimal.signText negative ++ (numeral n ++ (['.', '0'] ++ rest)))
      = readTail negative (n * 10) (-1) rest := by
  have zero : Digits ['0'] := digits_replicate 1
  have point : NoDigitAhead (['.', '0'] ++ rest) := noDigitAhead_cons rfl
  rw [readNumber_sign, readUnsigned_numeral (by omega) point]
  exact readPlaces_append zero (by simp) fits stops negative 0

-----------------------------------------------------------------------------------------
-- Numbers with a power of ten
-----------------------------------------------------------------------------------------

theorem readExponent_signed {power : Int} (small : power.natAbs ≤ exponentLimit)
    (stops : NoDigitAhead rest) (negative : Bool) (significand : Nat) (start : Int)
    : readExponent negative significand start
        ((if power < 0 then '-' else '+') :: (numeral power.natAbs ++ rest))
      = (scaledNumber negative significand (start + power)).map fun number => (number, rest) := by
  have split : splitExponentSign
      ((if power < 0 then '-' else '+') :: (numeral power.natAbs ++ rest))
      = (decide (power < 0), numeral power.natAbs ++ rest) := by
    by_cases below : power < 0 <;> simp [below, splitExponentSign]
  have digits : (numeral power.natAbs ++ rest).takeWhile isDigit = numeral power.natAbs := by
    rw [List.takeWhile_append_of_pos (digits_numeral _), stops.takeWhile_eq, List.append_nil]
  have sum : (if power < 0 then start - power.natAbs else start + power.natAbs)
      = start + power := by
    split <;> omega
  have some : ¬ (numeral power.natAbs).isEmpty = true := by simp [numeral_ne_nil]
  unfold readExponent
  rw [split]
  dsimp only
  rw [digits, List.drop_left, if_neg some, numeralValue_numeral, if_neg (Nat.not_lt.mpr small)]
  simp only [decide_eq_true_eq, sum]

/-- A number with a power of ten is read as its digits and its exponent. -/
theorem readNumber_scientific {d : Decimal} (fits : d.significand < UInt64.size)
    (small : (d.exponent + ((numeral d.significand).length - 1 : Nat)).natAbs ≤ exponentLimit)
    (stops : NoDigitAhead rest)
    : readNumber (d.scientific ++ rest)
      = (scaledNumber d.negative d.significand d.exponent).map fun number => (number, rest) := by
  have letter {text : List Char} : NoDigitAhead ('e' :: text) := noDigitAhead_cons rfl
  simp only [Decimal.scientific, List.append_assoc, List.cons_append]
  rcases Nat.eq_zero_or_pos ((numeral d.significand).length - 1) with single | several
  · rw [single] at small ⊢
    rw [Decimal.pointed, if_pos rfl, readNumber_sign, readUnsigned_numeral fits letter,
      readBehindWhole_exponent, readExponent_signed small stops]
    simp
  · rw [readNumber_pointed several.ne' fits letter]
    refine (readExponent_signed small stops ..).trans ?_
    congr 2
    omega

end GraphShell.Json

namespace GraphShell.Decimal

-----------------------------------------------------------------------------------------
-- Number literals
-----------------------------------------------------------------------------------------

open Text

/-- The power of ten of the leading digit. -/
def leadingPower (d : Decimal) : Int :=
  d.exponent + ((numeral d.significand).length - 1 : Nat)

/-- Whether a style writes a decimal in positions and with a zero behind the point. -/
def IsWhole (style : Scientific) (d : Decimal) : Prop :=
  (d.significand ≠ 0 → style.least ≤ d.leadingPower ∧ d.leadingPower ≤ style.most)
    ∧ 0 ≤ d.exponent

instance (style : Scientific) (d : Decimal) : Decidable (d.IsWhole style) :=
  inferInstanceAs (Decidable (_ ∧ _))

/-- A decimal is written with a zero behind the point if it is a whole one, and otherwise with a
power of ten or with digits behind the point.
-/
theorem written_cases (style : Scientific) (d : Decimal)
    : d.IsWhole style ∧ d.written style = d.positional ++ ['.', '0']
      ∨ ¬ d.IsWhole style
        ∧ (d.written style = d.scientific ∨ d.exponent < 0 ∧ d.written style = d.positional) := by
  unfold written IsWhole leadingPower
  dsimp only
  split
  · next far => exact .inr ⟨by omega, .inl rfl⟩
  · next near =>
      split
      · next front => exact .inl ⟨⟨by omega, front⟩, rfl⟩
      · next behind => exact .inr ⟨fun whole => behind whole.2, .inr ⟨by omega, rfl⟩⟩

/-- The digits of a decimal in a style as one number, with the power of ten that belongs to
them. The zero behind the point is one of them.
-/
def asRead (style : Scientific) (d : Decimal) : Decimal :=
  if d.IsWhole style then ⟨d.negative, d.significand * 10 ^ (d.exponent.toNat + 1), -1⟩ else d

/-- The digits fit into 64 bits, and the power of ten is one that is read. -/
structure Modest (d : Decimal) : Prop where
  significand : d.significand < UInt64.size
  power : d.leadingPower.natAbs ≤ Json.exponentLimit
  zero : d.significand = 0 → d.exponent = 0

end GraphShell.Decimal

namespace GraphShell.Json

open Text

/-- The digits of a whole decimal in positions fit into 64 bits with a zero behind them. -/
theorem significand_lt_of_isWhole {style : Decimal.Scientific} {d : Decimal}
    (whole : d.IsWhole style) (most : style.most ≤ 17)
    : d.significand * 10 ^ (d.exponent.toNat + 1) < UInt64.size := by
  rcases Nat.eq_zero_or_pos d.significand with nothing | something
  · rw [nothing, Nat.zero_mul]
    decide
  · have high := (whole.1 something.ne').2
    have length : 0 < (numeral d.significand).length := List.length_pos_iff.mpr (numeral_ne_nil _)
    have places : (numeral d.significand).length + (d.exponent.toNat + 1) ≤ 19 := by
      have front := whole.2
      unfold Decimal.leadingPower at high
      omega
    calc d.significand * 10 ^ (d.exponent.toNat + 1)
        < 10 ^ (numeral d.significand).length * 10 ^ (d.exponent.toNat + 1) :=
          Nat.mul_lt_mul_of_pos_right (lt_ten_pow_length _) (Nat.pow_pos (by decide))
      _ = 10 ^ ((numeral d.significand).length + (d.exponent.toNat + 1)) :=
          (Nat.pow_add ..).symm
      _ ≤ 10 ^ 19 := Nat.pow_le_pow_right (by decide) places
      _ < UInt64.size := by decide

/-- A whole decimal in positions is read as its digits with a zero behind them. -/
theorem readNumber_whole {style : Decimal.Scientific} {d : Decimal} (whole : d.IsWhole style)
    (zero : d.significand = 0 → d.exponent = 0) (most : style.most ≤ 17)
    (ends : NumberEnds rest)
    : readNumber (d.positional ++ ['.', '0'] ++ rest)
      = (scaledNumber d.negative (d.significand * 10 ^ (d.exponent.toNat + 1)) (-1)).map
          fun number => (number, rest) := by
  have fits := significand_lt_of_isWhole whole most
  rw [Nat.pow_succ, ← Nat.mul_assoc] at fits ⊢
  rw [Decimal.positional_of_whole whole.2 zero, List.append_assoc, List.append_assoc]
  refine (readNumber_point_zero fits ends.noDigitAhead d.negative).trans ?_
  rw [readTail_of_ends ends]

/-- A decimal in positions with digits behind the point is read as its digits. -/
theorem readNumber_positional {d : Decimal} (behind : d.exponent < 0)
    (fits : d.significand < UInt64.size) (ends : NumberEnds rest)
    : readNumber (d.positional ++ rest)
      = (scaledNumber d.negative d.significand d.exponent).map fun number => (number, rest) := by
  have places : (-d.exponent).toNat ≠ 0 := by omega
  have none : d.exponent.toNat = 0 := by omega
  have exponent : -((-d.exponent).toNat : Int) = d.exponent := by omega
  rw [Decimal.positional]
  simp only [none, List.replicate_zero, List.append_nil, List.append_assoc]
  rw [readNumber_pointed places fits ends.noDigitAhead, exponent, readTail_of_ends ends]

/-- What is written for a decimal is read as its digits and their power of ten. -/
theorem readNumber_written {style : Decimal.Scientific} {d : Decimal} (modest : d.Modest)
    (most : style.most ≤ 17) (ends : NumberEnds rest)
    : readNumber (d.written style ++ rest)
      = (scaledNumber d.negative (d.asRead style).significand (d.asRead style).exponent).map
          fun number => (number, rest) := by
  rcases Decimal.written_cases style d with ⟨whole, text⟩ | ⟨apart, text | ⟨behind, text⟩⟩
  · rw [text, Decimal.asRead, if_pos whole]
    exact readNumber_whole whole modest.zero most ends
  · rw [text, Decimal.asRead, if_neg apart]
    exact readNumber_scientific modest.significand modest.power ends.noDigitAhead
  · rw [text, Decimal.asRead, if_neg apart]
    exact readNumber_positional behind modest.significand ends

theorem toList_number {f : Binary.Format} (style : Decimal.Scientific) {x : Binary.Number f}
    (finite : x.isFinite = true)
    : (number style x).toList = (Decimal.shortest .even x).written style :=
  (congrArg String.toList (if_pos finite)).trans String.toList_ofList

theorem toList_integerText (n : Int64)
    : (integerText n).toList = Decimal.signText (n.toInt < 0) ++ numeral n.toInt.natAbs := by
  unfold integerText
  by_cases below : n.toInt < 0
  · rw [if_pos below, String.toList_append, toList_repr, decide_eq_true below]
    rfl
  · rw [if_neg below, toList_repr, decide_eq_false below]
    rfl

/-- The numeral of an integer of 64 bits is read as the integer. -/
theorem readNumber_integerText (n : Int64) (ends : NumberEnds rest)
    : readNumber ((integerText n).toList ++ rest) = .ok (.whole n.toInt, rest) := by
  have low := n.le_toInt
  have high := n.toInt_lt
  have fits : n.toInt.natAbs < UInt64.size := by
    have size : UInt64.size = 2 ^ 64 := rfl
    omega
  rw [toList_integerText, List.append_assoc, readNumber_sign,
    readUnsigned_numeral fits ends.noDigitAhead, readBehindWhole_of_ends ends]
  by_cases below : n.toInt < 0
  · have nonzero : n.toInt.natAbs ≠ 0 := by omega
    have small : ¬ Nat.pow 2 63 < n.toInt.natAbs := by
      have power : Nat.pow 2 63 = 2 ^ 63 := rfl
      omega
    have same : -(n.toInt.natAbs : Int) = n.toInt := by omega
    simp only [wholeNumber, decide_eq_true below, Bool.not_true, Bool.false_eq_true, if_false,
      nonzero, small, or_self, same]
  · have same : (n.toInt.natAbs : Int) = n.toInt := by omega
    simp only [wholeNumber, decide_eq_false below, Bool.not_false, if_true, same]

-----------------------------------------------------------------------------------------
-- Strings
-----------------------------------------------------------------------------------------

theorem readString_of_plain {c : Char} (quoteFree : c ≠ '"') (slashFree : c ≠ '\\')
    (printable : ¬ c.toNat < 0x20) (rest : List Char)
    : readString (c :: rest) = withChar c (readString rest) := by
  rw [readString.eq_def]
  split
  · next empty => cases empty
  · next quote => exact absurd (List.cons.inj quote).1 quoteFree
  · next slash => exact absurd (List.cons.inj slash).1 slashFree
  · next slash => exact absurd (List.cons.inj slash).1 slashFree
  · next slash => exact absurd (List.cons.inj slash).1 slashFree
  · next same =>
      obtain ⟨rfl, rfl⟩ := List.cons.inj same
      exact if_neg printable

/-- The last two digits of a numeric escape stand for a control character. -/
theorem hexQuad?_of_control
    : ∀ n < 0x20, hexQuad? '0' '0' (Text.hexDigit (n / 16)) (Text.hexDigit (n % 16)) = some n := by
  decide

/-- The escaped form of a character is read as the character. -/
theorem readString_escape_append (c : Char) (rest : List Char)
    : readString (escape c ++ rest) = withChar c (readString rest) := by
  unfold escape
  split
  · next same => subst same; rfl
  split
  · next same => subst same; rfl
  split
  · next same => subst same; rfl
  split
  · next same => subst same; rfl
  split
  · next same => subst same; rfl
  split
  · next same => subst same; rfl
  split
  · next same => subst same; rfl
  split
  · next control =>
      have unit := hexQuad?_of_control c.toNat control
      have single : isTrailing c.toNat = false ∧ isLeading c.toNat = false := by
        simp only [isTrailing, isLeading, Bool.and_eq_false_iff, decide_eq_false_iff_not]
        omega
      simp only [List.cons_append, List.nil_append]
      rw [readString, unit]
      simp [single, Char.ofNat_toNat]
  · next quoteFree slashFree _ _ _ _ _ printable =>
      exact readString_of_plain quoteFree slashFree printable rest

/-- The escaped form of a text up to a quote is read as the text, by induction on the text. -/
theorem readString_flatMap_escape (text rest : List Char)
    : readString (text.flatMap escape ++ '"' :: rest) = .ok (text, rest) := by
  induction text with
  | nil => rfl
  | cons c text ih =>
      rw [List.flatMap_cons, List.append_assoc, readString_escape_append, ih]
      rfl

end GraphShell.Json
