import GraphShell.Proofs.Text.Digits
import GraphShell.Timestamp.Basic

/-! The relaxed reader of date-times takes back what is written, if the year has four digits,
as it has wherever the strict reader found the timestamp.
-/

namespace GraphShell

open Text

namespace CivilTime

/-- A month with a length is one of the twelve. -/
theorem month_le_of_daysInMonth (year : Int) (month : Nat) (long : 0 < daysInMonth year month)
    : month ≤ 12 ∧ daysInMonth year month ≤ 31 := by
  unfold daysInMonth at long ⊢
  split at long <;> simp_all
  split <;> omega

end CivilTime

namespace Timestamp

theorem of?_civil (t : Timestamp) : of? t.civil = some t := by
  rw [of?, dif_pos t.isInstant]

theorem civil_of_of? {civil : CivilTime} {t : Timestamp} (named : of? civil = some t)
    : t.civil = civil := by
  unfold of? at named
  split at named
  · obtain rfl := Option.some.inj named
    rfl
  · cases named

/-- Every field fits into the digits that it is written in. -/
structure Fits (c : CivilTime) : Prop where
  month : c.month < 10 ^ 2
  day : c.day < 10 ^ 2
  hour : c.hour < 10 ^ 2
  minute : c.minute < 10 ^ 2
  second : c.second < 10 ^ 2
  nanosecond : c.nanosecond < 10 ^ 9
  offset : c.offset.natAbs < 1440

theorem fits (t : Timestamp) : Fits t.civil := by
  obtain ⟨c, instant⟩ := t
  simp only [CivilTime.isInstant, CivilTime.dateExists, Bool.and_eq_true, decide_eq_true_eq]
    at instant
  obtain ⟨⟨⟨⟨⟨⟨⟨⟨_, first⟩, last⟩, hour⟩, minute⟩, second⟩, nanosecond⟩, offset⟩, _⟩ := instant
  have month := CivilTime.month_le_of_daysInMonth c.year c.month (by omega)
  constructor <;> simp only <;> omega

-----------------------------------------------------------------------------------------
-- Readers in front of a rest
-----------------------------------------------------------------------------------------

variable {digits rest : List Char}

/-- A run of digits that is as long as allowed, or in front of no digit, is read whole. -/
theorem readDigits?_append {least most : Nat} (run : Digits digits)
    (enough : least ≤ digits.length) (within : digits.length ≤ most)
    (stops : digits.length = most ∨ NoDigitAhead rest)
    : readDigits? least most (digits ++ rest) = some (numeralValue digits, rest) := by
  have ends : ((rest.take (most - digits.length)).takeWhile isDigit) = [] := by
    rcases stops with full | stops
    · simp [full]
    · refine NoDigitAhead.takeWhile_eq fun c member => stops c ?_
      cases rest with
      | nil => simp at member
      | cons d rest =>
          cases gap : most - digits.length with
          | zero => simp [gap] at member
          | succ gap => simpa [gap] using member
  have taken : ((digits ++ rest).take most).takeWhile isDigit = digits := by
    rw [List.take_append, List.take_of_length_le within, List.takeWhile_append_of_pos run, ends,
      List.append_nil]
  simp [readDigits?, taken, Nat.not_lt.mpr enough]

theorem isBlank_of_isDigit {c : Char} (digit : isDigit c = true) : isBlank c = false := by
  have code := isDigit_iff.mp digit
  simp only [isBlank, Bool.or_eq_false_iff, Bool.and_eq_false_iff, decide_eq_false_iff_not,
    beq_eq_false_iff_ne]
  omega

theorem trimStart_cons {c : Char} (solid : isBlank c = false)
    : trimStart (c :: rest) = c :: rest := by
  simp [trimStart, solid]

theorem trimStart_digits_append (run : Digits digits) (some : digits ≠ [])
    : trimStart (digits ++ rest) = digits ++ rest := by
  obtain ⟨c, more, rfl⟩ := List.exists_cons_of_ne_nil some
  exact trimStart_cons (isBlank_of_isDigit (run c List.mem_cons_self))

theorem paddedNumeral_ne_nil (width n : Nat) : paddedNumeral width n ≠ [] := by
  simp [paddedNumeral, numeral_ne_nil]

/-- A number of two digits is read from them. -/
theorem readField?_padded {n : Nat} (fits : n < 10 ^ 2) (rest : List Char)
    : readField? (paddedNumeral 2 n ++ rest) = some (n, rest) := by
  have length := length_paddedNumeral fits (by decide)
  rw [readField?, trimStart_digits_append (digits_paddedNumeral 2 n) (paddedNumeral_ne_nil 2 n),
    readDigits?_append (digits_paddedNumeral 2 n) (by omega) (by omega) (.inl length),
    numeralValue_paddedNumeral]

theorem readDigits?_padded {n : Nat} (fits : n < 10 ^ 2) (rest : List Char)
    : readDigits? 2 2 (paddedNumeral 2 n ++ rest) = some (n, rest) := by
  have length := length_paddedNumeral fits (by decide)
  rw [readDigits?_append (digits_paddedNumeral 2 n) (by omega) (by omega) (.inl length),
    numeralValue_paddedNumeral]

/-- A mark between fields is read from in front of what follows. -/
theorem readChar?_cons {mark : Char} (solid : isBlank mark = false) (rest : List Char)
    : readChar? mark (trimStart (mark :: rest)) = some rest := by
  rw [trimStart_cons solid, readChar?, if_pos rfl]

/-- A year of four digits is read from them: they are behind no sign. -/
theorem readYear?_padded {year : Nat} (fits : year < 10 ^ 4) (rest : List Char)
    : readYear? (trimStart (paddedNumeral 4 year ++ rest)) = some ((year : Int), rest) := by
  have length := length_paddedNumeral fits (by decide)
  have run := digits_paddedNumeral 4 year
  have read : readDigits? 1 4 (paddedNumeral 4 year ++ rest) = some (year, rest) := by
    rw [readDigits?_append run (by omega) (by omega) (.inl length), numeralValue_paddedNumeral]
  rw [trimStart_digits_append run (paddedNumeral_ne_nil 4 year)]
  obtain ⟨c, more, same⟩ := List.exists_cons_of_ne_nil (paddedNumeral_ne_nil 4 year)
  have digit := run c (same ▸ List.mem_cons_self)
  rw [same, List.cons_append] at read ⊢
  unfold readYear?
  split
  · next minus =>
      obtain ⟨rfl, -⟩ := List.cons.inj minus
      exact absurd digit (by decide)
  · next plus =>
      obtain ⟨rfl, -⟩ := List.cons.inj plus
      exact absurd digit (by decide)
  · rw [read]
    rfl

/-- Digits behind a point count in the decimal place where they end. -/
theorem readFraction?_point {width nanosecond scale : Nat} (wide : width ≠ 0) (narrow : width ≤ 9)
    (power : scale = 10 ^ (9 - width)) (value : nanosecond / scale * scale = nanosecond)
    (fits : nanosecond < 10 ^ 9) (stops : NoDigitAhead rest)
    : readFraction? ('.' :: paddedNumeral width (nanosecond / scale) ++ rest)
      = some (nanosecond, rest) := by
  have run := digits_paddedNumeral width (nanosecond / scale)
  have short : nanosecond / scale < 10 ^ width := by
    rw [Nat.div_lt_iff_lt_mul (power ▸ Nat.pow_pos (by decide)), power, ← Nat.pow_add,
      Nat.add_sub_cancel' narrow]
    exact fits
  have length := length_paddedNumeral short wide
  have read := readDigits?_append run (by omega : 1 ≤ _) (by omega : _ ≤ 9) (.inr stops)
  have taken : (paddedNumeral width (nanosecond / scale) ++ rest).length - rest.length
      = width := by
    rw [List.length_append, length]
    omega
  simp only [List.cons_append, readFraction?, read, Option.bind_eq_bind, Option.bind_some,
    numeralValue_paddedNumeral, taken, stops.dropWhile_eq, Nat.pow_eq, ← power, value]

/-- A fraction is read from the three, six or nine digits that lose nothing of it. -/
theorem readFraction?_fractionText {nanosecond : Nat} (fits : nanosecond < 10 ^ 9)
    (stops : NoDigitAhead rest) (pointless : '.' ∉ rest.head?)
    : readFraction? (fractionText nanosecond ++ rest) = some (nanosecond, rest) := by
  unfold fractionText
  split
  · next whole =>
      subst whole
      rw [List.nil_append]
      unfold readFraction?
      split
      · simp at pointless
      · rfl
  split
  · next thousands =>
      have value := Nat.div_mul_cancel (Nat.dvd_of_mod_eq_zero thousands)
      exact readFraction?_point (by decide) (by decide) rfl value fits stops
  split
  · next thousands =>
      have value := Nat.div_mul_cancel (Nat.dvd_of_mod_eq_zero thousands)
      exact readFraction?_point (by decide) (by decide) rfl value fits stops
  · have value : nanosecond / 1 * 1 = nanosecond := by rw [Nat.div_one, Nat.mul_one]
    have power : 1 = 10 ^ (9 - 9) := rfl
    have read := readFraction?_point (by decide : 9 ≠ 0) le_rfl power value fits stops
    rwa [Nat.div_one] at read

/-- A text that begins with no letter for `U` does not begin with the name of universal time. -/
theorem readRelaxedOffset?_of_ne {c : Char} (other : c.toUpper ≠ 'U') (rest : List Char)
    : readRelaxedOffset? (c :: rest)
      = readOffset? (fun rest => some (rest.dropWhile fun c => c = ':' || isBlank c))
          (c :: rest) := by
  refine if_neg fun same => ?_
  have letters := congrArg String.toList same
  simp at letters
  exact other letters.1

/-- Between hours and minutes the colon is passed over, and no digit is. -/
theorem dropWhile_colon (minutes : Nat) (rest : List Char)
    : (':' :: (paddedNumeral 2 minutes ++ rest)).dropWhile (fun c => c = ':' || isBlank c)
      = paddedNumeral 2 minutes ++ rest := by
  obtain ⟨c, more, same⟩ := List.exists_cons_of_ne_nil (paddedNumeral_ne_nil 2 minutes)
  have digit := digits_paddedNumeral 2 minutes c (same ▸ List.mem_cons_self)
  have mark : c ≠ ':' := by
    rintro rfl
    exact absurd digit (by decide)
  simp [same, mark, isBlank_of_isDigit digit]

theorem readOffset?_signed {sign : Char} {negative : Bool} {hours minutes : Nat}
    {colon : List Char → Option (List Char)}
    (signed : ∀ rest, readOffsetSign? (sign :: rest) = some (negative, rest))
    (letterless : sign ≠ 'Z' ∧ sign ≠ 'z')
    (skips : ∀ rest,
      colon (':' :: (paddedNumeral 2 minutes ++ rest)) = some (paddedNumeral 2 minutes ++ rest))
    (fits : hours < 10 ^ 2) (within : minutes ≤ 59) (rest : List Char)
    : readOffset? colon
        (sign :: (paddedNumeral 2 hours ++ ':' :: (paddedNumeral 2 minutes ++ rest)))
      = some
          (if negative then -((hours * 60 + minutes : Nat) : Int)
            else ((hours * 60 + minutes : Nat) : Int), rest) := by
  have two : minutes < 10 ^ 2 := by omega
  unfold readOffset?
  split
  · next same => exact absurd (List.cons.inj same).1 letterless.1
  · next same => exact absurd (List.cons.inj same).1 letterless.2
  · simp only [signed, readDigits?_padded fits, readDigits?_padded two, skips,
      Option.bind_eq_bind, Option.bind_some, if_neg (Nat.not_lt.mpr within)]
    rfl

/-- An offset is read from its letter, or from its sign, hours and minutes. -/
theorem readRelaxedOffset?_offsetText {zero : ZeroOffset} {offset : Int}
    (fits : offset.natAbs < 1440)
    : readRelaxedOffset? (offsetText zero offset) = some (offset, []) := by
  unfold offsetText
  split
  · next letter =>
      rw [letter.2]
      rfl
  · have hours : offset.natAbs / 60 < 10 ^ 2 := by omega
    have minutes : offset.natAbs % 60 ≤ 59 := by omega
    have whole : offset.natAbs / 60 * 60 + offset.natAbs % 60 = offset.natAbs := by omega
    have skips := fun rest => congrArg some (dropWhile_colon (offset.natAbs % 60) rest)
    rw [← List.append_nil (paddedNumeral 2 (offset.natAbs % 60))]
    by_cases below : offset < 0
    · rw [if_pos below, List.cons_append, readRelaxedOffset?_of_ne (by decide),
        readOffset?_signed (fun _ => rfl) (by decide) skips hours minutes, whole]
      have value : -(offset.natAbs : Int) = offset := by omega
      rw [if_pos rfl, value]
    · rw [if_neg below, List.cons_append, readRelaxedOffset?_of_ne (by decide),
        readOffset?_signed (fun _ => rfl) (by decide) skips hours minutes, whole]
      have value : (offset.natAbs : Int) = offset := by omega
      rw [if_neg Bool.false_ne_true, value]

-----------------------------------------------------------------------------------------
-- Whole date-times
-----------------------------------------------------------------------------------------

theorem offsetText_stops (zero : ZeroOffset) (offset : Int)
    : NoDigitAhead (offsetText zero offset)
      ∧ '.' ∉ (offsetText zero offset).head?
      ∧ trimStart (offsetText zero offset) = offsetText zero offset := by
  unfold offsetText
  split
  · exact ⟨by simp [NoDigitAhead, isDigit], by simp, rfl⟩
  · by_cases below : offset < 0
    · rw [if_pos below]
      exact ⟨by simp [NoDigitAhead, isDigit], by simp, rfl⟩
    · rw [if_neg below]
      exact ⟨by simp [NoDigitAhead, isDigit], by simp, rfl⟩

theorem bind_of_eq_some {α β : Type} {first : Option α} {next : α → Option β} {a : α} {b : β}
    (found : first = some a) (more : next a = some b)
    : first >>= next = some b := by
  rw [found]
  exact more

/-- What is written of a timestamp with a year of four digits is read as the timestamp. -/
theorem readRelaxed?_write (zero : ZeroOffset) {t : Timestamp} (low : 0 ≤ t.civil.year)
    (high : t.civil.year ≤ 9999)
    : readRelaxed? (t.write zero).toList = some t := by
  have fits := t.fits
  obtain ⟨stops, pointless, solid⟩ := offsetText_stops zero t.civil.offset
  have year : yearText t.civil.year = paddedNumeral 4 t.civil.year.natAbs := by
    rw [yearText, if_pos ⟨low, high⟩]
  have short : t.civil.year.natAbs < 10 ^ 4 := by omega
  have same : (t.civil.year.natAbs : Int) = t.civil.year := Int.natAbs_of_nonneg low
  have dash := readChar?_cons (by decide : isBlank '-' = false)
  have colon := readChar?_cons (by decide : isBlank ':' = false)
  simp only [write, String.toList_ofList, year, List.append_assoc, List.cons_append]
  rw [readRelaxed?]
  refine bind_of_eq_some (readYear?_padded short _) ?_
  refine bind_of_eq_some (dash _) ?_
  refine bind_of_eq_some (readField?_padded fits.month _) ?_
  refine bind_of_eq_some (dash _) ?_
  refine bind_of_eq_some (readField?_padded fits.day _) ?_
  refine bind_of_eq_some (rfl : readSeparator? ('T' :: _) = some _) ?_
  refine bind_of_eq_some (readField?_padded fits.hour _) ?_
  refine bind_of_eq_some (colon _) ?_
  refine bind_of_eq_some (readField?_padded fits.minute _) ?_
  refine bind_of_eq_some (colon _) ?_
  refine bind_of_eq_some (readField?_padded fits.second _) ?_
  refine bind_of_eq_some (readFraction?_fractionText fits.nanosecond stops pointless) ?_
  dsimp only
  rw [solid]
  refine bind_of_eq_some (readRelaxedOffset?_offsetText fits.offset) ?_
  dsimp only
  rw [same]
  exact t.of?_civil

/-- Digits stand for less than the power of ten that would need one digit more. -/
theorem lt_of_readDigits? {least most n : Nat} {text rest : List Char}
    (read : readDigits? least most text = some (n, rest))
    : n < 10 ^ most := by
  have run : Digits ((text.take most).takeWhile isDigit) := by
    intro c member
    exact (List.all_eq_true.mp List.all_takeWhile) c member
  have short : ((text.take most).takeWhile isDigit).length ≤ most :=
    (List.takeWhile_prefix _).length_le.trans (List.length_take_le _ _)
  unfold readDigits? at read
  dsimp only at read
  split at read
  · cases read
  · obtain ⟨rfl, -⟩ := Prod.mk.inj (Option.some.inj read)
    exact run.numeralValue_lt.trans_le (Nat.pow_le_pow_right (by decide) short)

/-- The years that the strict reader finds have four digits. -/
theorem year_of_readStrict? {text : List Char} {t : Timestamp}
    (read : readStrict? text = some t)
    : 0 ≤ t.civil.year ∧ t.civil.year ≤ 9999 := by
  unfold readStrict? at read
  obtain ⟨⟨year, rest⟩, digits, read⟩ := Option.bind_eq_some_iff.mp read
  have short := lt_of_readDigits? digits
  obtain ⟨_, -, read⟩ := Option.bind_eq_some_iff.mp read
  obtain ⟨⟨_, _⟩, -, read⟩ := Option.bind_eq_some_iff.mp read
  obtain ⟨_, -, read⟩ := Option.bind_eq_some_iff.mp read
  obtain ⟨⟨_, _⟩, -, read⟩ := Option.bind_eq_some_iff.mp read
  obtain ⟨_, -, read⟩ := Option.bind_eq_some_iff.mp read
  obtain ⟨⟨_, _⟩, -, read⟩ := Option.bind_eq_some_iff.mp read
  obtain ⟨_, -, read⟩ := Option.bind_eq_some_iff.mp read
  obtain ⟨⟨_, _⟩, -, read⟩ := Option.bind_eq_some_iff.mp read
  obtain ⟨_, -, read⟩ := Option.bind_eq_some_iff.mp read
  obtain ⟨⟨_, _⟩, -, read⟩ := Option.bind_eq_some_iff.mp read
  obtain ⟨⟨_, _⟩, -, read⟩ := Option.bind_eq_some_iff.mp read
  obtain ⟨⟨_, _⟩, -, read⟩ := Option.bind_eq_some_iff.mp read
  have named := (Option.ite_none_right_eq_some.mp read).2
  have kept : t.civil.year = year := congrArg CivilTime.year (civil_of_of? named)
  omega

end Timestamp

end GraphShell
