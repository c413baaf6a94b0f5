import GraphShell.Scalar.Basic
import Mathlib.Data.List.Induction
import Mathlib.Data.Nat.Digits.Defs

/-! What the integer readers accept: one sign of either kind or none, and decimal digits,
leading zeros allowed. A token is a 64-bit integer if the number so written fits.
-/

namespace GraphShell.Text

/-- The texts are digits, one at least, and stand for the number in base ten. -/
structure IsNumeral (digits : List Char) (n : Nat) : Prop where
  nonempty : digits ≠ []
  digit : ∀ c ∈ digits, '0' ≤ c ∧ c ≤ '9'
  value : n = Nat.ofDigits 10 (digits.reverse.map fun c => c.toNat - '0'.toNat)

/-- A numeral, possibly behind a sign, stands for the integer. -/
inductive IsInteger : List Char → Int → Prop
  | plain {digits n} (numeral : IsNumeral digits n) : IsInteger digits n
  | plus {digits n} (numeral : IsNumeral digits n) : IsInteger ('+' :: digits) n
  | minus {digits n} (numeral : IsNumeral digits n) : IsInteger ('-' :: digits) (-n)

/-- A numeral, possibly behind a plus sign, stands for the count. -/
inductive IsCount : List Char → Nat → Prop
  | plain {digits n} (numeral : IsNumeral digits n) : IsCount digits n
  | plus {digits n} (numeral : IsNumeral digits n) : IsCount ('+' :: digits) n

/-- Reading digits from the left computes the value in base ten, by induction from the right.
-/
theorem numeralValue_eq (digits : List Char)
    : numeralValue digits
      = Nat.ofDigits 10 (digits.reverse.map fun c => c.toNat - '0'.toNat) := by
  induction digits using List.reverseRecOn with
  | nil => rfl
  | append_singleton digits c ih =>
      rw [List.reverse_append, List.reverse_singleton, List.singleton_append, List.map_cons,
        Nat.ofDigits_cons, ← ih, numeralValue, List.foldl_append]
      exact Nat.add_comm _ _

theorem readNumeral?_eq_some_iff {digits : List Char} {n : Nat}
    : readNumeral? digits = some n ↔ IsNumeral digits n := by
  simp only [readNumeral?, numeralValue_eq, Option.ite_none_right_eq_some, Bool.and_eq_true,
    Bool.not_eq_true', List.isEmpty_eq_false_iff, List.all_eq_true, isDigit, decide_eq_true_eq,
    Option.some.injEq]
  constructor
  · rintro ⟨⟨nonempty, digit⟩, rfl⟩
    exact ⟨nonempty, digit, rfl⟩
  · rintro ⟨nonempty, digit, rfl⟩
    exact ⟨⟨nonempty, digit⟩, rfl⟩

/-- A numeral begins with no sign, which is no digit. -/
theorem IsNumeral.readInteger?_eq {digits : List Char} {n : Nat} (numeral : IsNumeral digits n)
    : readInteger? digits = some (n : Int) := by
  obtain ⟨c, rest, rfl⟩ := List.exists_cons_of_ne_nil numeral.nonempty
  have first := numeral.digit c List.mem_cons_self
  have read := readNumeral?_eq_some_iff.mpr numeral
  unfold readInteger?
  split
  · next same =>
      obtain ⟨rfl, _⟩ := List.cons.inj same
      exact absurd first (by decide)
  · next same =>
      obtain ⟨rfl, _⟩ := List.cons.inj same
      exact absurd first (by decide)
  · rw [read]
    rfl

theorem readInteger?_eq_some_iff {text : List Char} {n : Int}
    : readInteger? text = some n ↔ IsInteger text n := by
  constructor
  · intro found
    unfold readInteger? at found
    split at found
    all_goals
      simp only [Option.map_eq_some_iff, Option.bind_eq_bind, Option.bind_eq_some_iff,
        Option.pure_def, Option.some.injEq] at found
    · obtain ⟨_, ⟨m, read, rfl⟩, rfl⟩ := found
      exact .minus (readNumeral?_eq_some_iff.mp read)
    · obtain ⟨m, read, rfl⟩ := found
      exact .plus (readNumeral?_eq_some_iff.mp read)
    · obtain ⟨m, read, rfl⟩ := found
      exact .plain (readNumeral?_eq_some_iff.mp read)
  · rintro (numeral | numeral | numeral)
    · exact numeral.readInteger?_eq
    · simp [readInteger?, readNumeral?_eq_some_iff.mpr numeral]
    · simp [readInteger?, readNumeral?_eq_some_iff.mpr numeral]

/-- What is below the limit is read, with or without its plus sign; a numeral has none. -/
theorem readCount?_eq_some_iff {limit n : Nat} {text : List Char}
    : readCount? limit text = some n ↔ IsCount text n ∧ n < limit := by
  simp only [readCount?, Option.filter_eq_some_iff, readNumeral?_eq_some_iff,
    decide_eq_true_eq, and_congr_left_iff]
  rintro -
  constructor
  · intro numeral
    split at numeral
    · exact .plus numeral
    · exact .plain numeral
  · rintro (numeral | numeral)
    · split
      · exact absurd (numeral.digit '+' List.mem_cons_self) (by decide)
      · exact numeral
    · exact numeral

end GraphShell.Text

namespace GraphShell.Token

/-- A token is read as the integer that it stands for, if that has 64 bits. -/
theorem int?_eq_some_iff {token : String} {n : Int64}
    : int? token = some n ↔ Text.IsInteger token.toList n.toInt := by
  simp only [int?, Option.map_eq_some_iff, Option.filter_eq_some_iff,
    Text.readInteger?_eq_some_iff, decide_eq_true_eq]
  constructor
  · rintro ⟨i, ⟨integer, low, high⟩, rfl⟩
    have above : -2 ^ 63 ≤ i := low
    have below : i ≤ 2 ^ 63 - 1 := high
    rwa [Int64.toInt_ofInt_of_le above (by omega)]
  · intro integer
    exact ⟨n.toInt, ⟨integer, n.minValue_le_toInt, n.toInt_le⟩, Int64.ofInt_toInt n⟩

end GraphShell.Token
