import GraphShell.Text.Numeral
import Mathlib.Data.List.Induction
import Mathlib.Tactic.Ring

/-! What numerals are made of, and what runs of digits stand for: a numeral is digits without
a leading zero and stands for its number, and zeros in front of a run change nothing.
-/

namespace GraphShell.Text

-----------------------------------------------------------------------------------------
-- Digits
-----------------------------------------------------------------------------------------

theorem isDigit_digitChar (n : Nat) : isDigit (digitChar n) = true := by
  have each : ∀ d < 10, isDigit (Char.ofNat (48 + d)) = true := by decide
  exact each (n % 10) (Nat.mod_lt n (by decide))

theorem toNat_digitChar (n : Nat) : (digitChar n).toNat = 48 + n % 10 := by
  have each : ∀ d < 10, (Char.ofNat (48 + d)).toNat = 48 + d := by decide
  exact each (n % 10) (Nat.mod_lt n (by decide))

theorem isDigit_iff {c : Char} : isDigit c = true ↔ 48 ≤ c.toNat ∧ c.toNat ≤ 57 := by
  simp only [isDigit, Bool.and_eq_true, decide_eq_true_eq]
  exact Iff.rfl

/-- The text is digits only. -/
def Digits (text : List Char) : Prop :=
  ∀ c ∈ text, isDigit c = true

variable {left right digits : List Char}

theorem Digits.append (hl : Digits left) (hr : Digits right) : Digits (left ++ right) := by
  intro c member
  exact (List.mem_append.mp member).elim (hl c) (hr c)

theorem digits_replicate (n : Nat) : Digits (List.replicate n '0') := by
  intro c member
  rw [List.eq_of_mem_replicate member]
  rfl

/-- No digit is in front of the text. -/
def NoDigitAhead (text : List Char) : Prop :=
  ∀ c ∈ text.head?, isDigit c = false

theorem noDigitAhead_nil : NoDigitAhead [] := by
  intro c ahead
  cases ahead

theorem noDigitAhead_cons {c : Char} (other : isDigit c = false) : NoDigitAhead (c :: right) := by
  intro d ahead
  exact Option.some.inj ahead ▸ other

theorem NoDigitAhead.takeWhile_eq (stops : NoDigitAhead right)
    : right.takeWhile isDigit = [] := by
  cases right with
  | nil => rfl
  | cons c rest => simp [stops c rfl]

theorem NoDigitAhead.dropWhile_eq (stops : NoDigitAhead right)
    : right.dropWhile isDigit = right := by
  cases right with
  | nil => rfl
  | cons c rest => simp [stops c rfl]

-----------------------------------------------------------------------------------------
-- Values of runs
-----------------------------------------------------------------------------------------

theorem numeralValue_append (left right : List Char)
    : numeralValue (left ++ right)
      = numeralValue left * 10 ^ right.length + numeralValue right := by
  have fold (start : Nat) (text : List Char)
      : text.foldl (fun n c => 10 * n + (c.toNat - 48)) start
        = start * 10 ^ text.length + numeralValue text := by
    induction text generalizing start with
    | nil => simp [numeralValue]
    | cons c text ih =>
        rw [numeralValue, List.foldl_cons, List.foldl_cons, ih, ih (10 * 0 + _),
          List.length_cons]
        ring
  rw [numeralValue, List.foldl_append, fold]
  rfl

theorem numeralValue_singleton (c : Char) : numeralValue [c] = c.toNat - 48 := by
  simp [numeralValue]

theorem numeralValue_replicate (n : Nat) : numeralValue (List.replicate n '0') = 0 := by
  induction n with
  | zero => rfl
  | succ n ih =>
      rw [List.replicate_succ', numeralValue_append, ih]
      rfl

/-- A run of digits stands for less than the power of ten with as many zeros, by induction from
the right.
-/
theorem Digits.numeralValue_lt (run : Digits digits)
    : numeralValue digits < 10 ^ digits.length := by
  induction digits using List.reverseRecOn with
  | nil => simp [numeralValue]
  | append_singleton digits c ih =>
      have below := ih fun d member => run d (List.mem_append_left _ member)
      have digit := isDigit_iff.mp (run c (by simp))
      rw [numeralValue_append, numeralValue_singleton, List.length_append, List.length_singleton,
        Nat.pow_succ]
      omega

-----------------------------------------------------------------------------------------
-- Numerals
-----------------------------------------------------------------------------------------

theorem numeral_of_lt {n : Nat} (small : n < 10) : numeral n = [digitChar n] := by
  rw [numeral, if_pos small]

theorem numeral_of_le {n : Nat} (large : 10 ≤ n)
    : numeral n = numeral (n / 10) ++ [digitChar n] := by
  rw [numeral, if_neg (by omega)]

theorem numeral_ne_nil (n : Nat) : numeral n ≠ [] := by
  rw [numeral]
  split <;> simp

theorem digits_digitChar (n : Nat) : Digits [digitChar n] := by
  intro c member
  rw [List.mem_singleton.mp member]
  exact isDigit_digitChar n

theorem digits_numeral (n : Nat) : Digits (numeral n) := by
  induction n using Nat.strongRecOn with
  | ind n ih =>
      rcases Nat.lt_or_ge n 10 with small | large
      · rw [numeral_of_lt small]
        exact digits_digitChar n
      · rw [numeral_of_le large]
        exact (ih (n / 10) (by omega)).append (digits_digitChar n)

/-- A numeral stands for its number. -/
@[simp]
theorem numeralValue_numeral (n : Nat) : numeralValue (numeral n) = n := by
  induction n using Nat.strongRecOn with
  | ind n ih =>
      rcases Nat.lt_or_ge n 10 with small | large
      · rw [numeral_of_lt small, numeralValue_singleton, toNat_digitChar]
        omega
      · rw [numeral_of_le large, numeralValue_append, ih (n / 10) (by omega),
          numeralValue_singleton, toNat_digitChar, List.length_singleton]
        omega

/-- The numeral of a positive number does not begin with a zero. -/
theorem exists_numeral_eq_cons {n : Nat} (positive : n ≠ 0)
    : ∃ c rest, numeral n = c :: rest ∧ isDigit c = true ∧ c ≠ '0' := by
  induction n using Nat.strongRecOn with
  | ind n ih =>
      rcases Nat.lt_or_ge n 10 with small | large
      · refine ⟨digitChar n, [], numeral_of_lt small, isDigit_digitChar n, ?_⟩
        intro zero
        have value := toNat_digitChar n
        rw [zero] at value
        have code : ('0').toNat = 48 := rfl
        omega
      · obtain ⟨c, rest, same, digit, nonzero⟩ := ih (n / 10) (by omega) (by omega)
        exact ⟨c, rest ++ [digitChar n], by rw [numeral_of_le large, same]; rfl, digit, nonzero⟩

theorem length_numeral_le {n width : Nat} (fits : n < 10 ^ width) (wide : width ≠ 0)
    : (numeral n).length ≤ width := by
  induction width generalizing n with
  | zero => exact absurd rfl wide
  | succ width ih =>
      rcases Nat.lt_or_ge n 10 with small | large
      · simp [numeral_of_lt small]
      · rw [numeral_of_le large, List.length_append, List.length_singleton]
        have shorter : n / 10 < 10 ^ width := by
          rw [Nat.pow_succ] at fits
          omega
        have some : width ≠ 0 := by
          rintro rfl
          omega
        exact Nat.succ_le_succ (ih shorter some)

theorem lt_ten_pow_length (n : Nat) : n < 10 ^ (numeral n).length := by
  simpa using (digits_numeral n).numeralValue_lt

/-- The front of a numeral is a numeral, by induction on the digits left out. -/
theorem exists_numeral_eq_append {n places : Nat} (long : places < (numeral n).length)
    : ∃ last,
        numeral n = numeral (n / 10 ^ places) ++ last ∧ Digits last ∧ last.length = places := by
  induction places generalizing n with
  | zero => exact ⟨[], by simp, by simp [Digits], rfl⟩
  | succ places ih =>
      rcases Nat.lt_or_ge n 10 with small | large
      · simp [numeral_of_lt small] at long
      · have shorter : places < (numeral (n / 10)).length := by
          simpa [numeral_of_le large] using long
        obtain ⟨last, same, run, length⟩ := ih shorter
        refine ⟨last ++ [digitChar n], ?_, run.append (digits_digitChar n), by simp [length]⟩
        rw [numeral_of_le large, same, Nat.div_div_eq_div_mul, Nat.pow_succ', List.append_assoc]

/-- Zeros behind a numeral multiply by ten. -/
theorem numeral_mul_ten_pow {n : Nat} (positive : n ≠ 0) (zeros : Nat)
    : numeral (n * 10 ^ zeros) = numeral n ++ List.replicate zeros '0' := by
  induction zeros with
  | zero => simp
  | succ zeros ih =>
      have some : 0 < n * 10 ^ zeros :=
        Nat.mul_pos (Nat.pos_of_ne_zero positive) (Nat.pow_pos (by decide))
      rw [Nat.pow_succ, ← Nat.mul_assoc, numeral_of_le (by omega),
        Nat.mul_div_cancel _ (by decide), ih, List.replicate_succ', List.append_assoc, digitChar,
        Nat.mul_mod_left]

/-- The usual numeral of a number is the same. -/
theorem toList_repr (n : Nat) : (Nat.repr n).toList = numeral n := by
  rw [Nat.repr_eq_ofList_toDigits, String.toList_ofList]
  have digit : ∀ d < 10, Nat.digitChar d = Char.ofNat (48 + d) := by decide
  induction n using Nat.strongRecOn with
  | ind n ih =>
      have last : Nat.digitChar (n % 10) = digitChar n := digit _ (Nat.mod_lt n (by decide))
      rcases Nat.lt_or_ge n 10 with small | large
      · rw [Nat.toDigits_of_lt_base small, numeral_of_lt small, ← last, Nat.mod_eq_of_lt small]
      · rw [Nat.toDigits_of_base_le (by decide) large, ih (n / 10) (by omega), last,
          numeral_of_le large]

/-- A padded numeral is digits, stands for its number, and has the width if that is enough. -/
theorem digits_paddedNumeral (width n : Nat) : Digits (paddedNumeral width n) :=
  (digits_replicate _).append (digits_numeral n)

@[simp]
theorem numeralValue_paddedNumeral (width n : Nat) : numeralValue (paddedNumeral width n) = n := by
  rw [paddedNumeral, numeralValue_append, numeralValue_replicate, numeralValue_numeral]
  omega

theorem length_paddedNumeral {width n : Nat} (fits : n < 10 ^ width) (wide : width ≠ 0)
    : (paddedNumeral width n).length = width := by
  have short := length_numeral_le fits wide
  rw [paddedNumeral, List.length_append, List.length_replicate]
  omega

end GraphShell.Text
