import GraphShell.Proofs.Binary.Nearest
import GraphShell.Proofs.Text.Digits
import GraphShell.Proofs.Text.Numerals

/-! Integers among the number texts. A text that begins with a digit behind its sign is the name of
no number; digits alone are a decimal without places, and an integer text is read as the number
nearest to the integer.
-/

namespace GraphShell

namespace Text

theorem IsNumeral.run {digits : List Char} {n : Nat} (stands : IsNumeral digits n)
    : Digits digits := by
  intro c member
  simpa [isDigit] using stands.digit c member

end Text

namespace Decimal

open Binary Text

variable {digits rest : List Char} {f : Format}

theorem splitDigits_append (run : Digits digits) (stops : NoDigitAhead rest)
    : splitDigits (digits ++ rest) = (digits, rest) := by
  rw [splitDigits, List.takeWhile_append_of_pos run, List.dropWhile_append_of_pos run,
    stops.takeWhile_eq, stops.dropWhile_eq, List.append_nil]

/-- Digits and nothing else are a decimal without places. -/
theorem readUnsigned?_digits (negative : Bool) (run : Digits digits) (nonempty : digits ≠ [])
    : readUnsigned? negative digits = some ⟨negative, numeralValue digits, 0⟩ := by
  have split := splitDigits_append run noDigitAhead_nil
  rw [List.append_nil] at split
  simp [readUnsigned?, split, nonempty, readExponent?]

/-- Behind digits only a point or a power of ten goes on. -/
theorem readUnsigned?_mark (negative : Bool) (run : Digits digits) {mark : Char}
    (other : isDigit mark = false) (pointless : mark ≠ '.') (powerless : mark ≠ 'e' ∧ mark ≠ 'E')
    : readUnsigned? negative (digits ++ mark :: rest) = none := by
  have stops : NoDigitAhead (mark :: rest) := noDigitAhead_cons other
  have split := splitDigits_append run stops
  simp [readUnsigned?, split, readExponent?, pointless, powerless]

theorem toLower_of_isDigit {c : Char} (digit : isDigit c = true) : c.toLower = c := by
  have code := isDigit_iff.mp digit
  refine dif_neg ?_
  rintro ⟨low, -⟩
  have bound : 65 ≤ c.toNat := low
  omega

theorem splitSign_of_digit {c : Char} (digit : isDigit c = true)
    : splitSign (c :: rest) = (false, c :: rest) := by
  unfold splitSign
  split
  · next same =>
      obtain ⟨rfl, -⟩ := List.cons.inj same
      exact absurd digit (by decide)
  · next same =>
      obtain ⟨rfl, -⟩ := List.cons.inj same
      exact absurd digit (by decide)
  · rfl

/-- What begins with a digit behind its sign is the name of no number, and is read as a decimal. -/
theorem readNumber?_of_digit {text : List Char} {negative : Bool} {c : Char}
    (sign : splitSign text = (negative, c :: rest)) (digit : isDigit c = true)
    : readNumber? f text = (readUnsigned? negative (c :: rest)).map (toBinary f) := by
  have unnamed {letter : Char} (word : List Char) (alphabetic : isDigit letter = false)
      : String.ofList ((c :: rest).map Char.toLower) ≠ String.ofList (letter :: word) := by
    intro same
    have first := (List.cons.inj (String.ofList_injective same)).1
    rw [toLower_of_isDigit digit] at first
    rw [first, alphabetic] at digit
    cases digit
  simp only [readNumber?, sign]
  rw [if_neg, if_neg]
  · exact unnamed "an".toList (by decide)
  · rintro (same | same)
    · exact unnamed "nf".toList (by decide) same
    · exact unnamed "nfinity".toList (by decide) same

/-- A whole number of few digits is rounded once, and its sign is kept. -/
theorem toBinary_whole {v : Nat} (negative : Bool) (few : (numeral v).length ≤ f.scale)
    : (toBinary f ⟨negative, v, 0⟩).negative = negative
      ∧ (toBinary f ⟨negative, v, 0⟩).magnitude = f.nearest (v * 2 ^ f.scale) 1 := by
  by_cases none : v = 0
  · subst none
    refine ⟨rfl, ?_⟩
    rw [Nat.zero_mul, f.nearest_zero]
    rfl
  · have within : ¬ (f.scale : Int) < 0 + (numeral v).length := by omega
    have beyond : ¬ 0 + ((numeral v).length : Int) < -(f.scale : Int) := by omega
    simp only [toBinary, none, within, beyond, if_false]
    refine ⟨rfl, ?_⟩
    simp [Number.ofQuotient]

/-- Behind its sign a numeral is read as the number that it stands for, rounded once. -/
theorem readNumber?_numeral {text : List Char} {negative : Bool} {v : Nat}
    (sign : splitSign text = (negative, digits)) (stands : IsNumeral digits v)
    (few : (numeral v).length ≤ f.scale)
    : ∃ x,
        readNumber? f text = some x
        ∧ x.negative = negative
        ∧ x.magnitude = f.nearest (v * 2 ^ f.scale) 1 := by
  have run := stands.run
  have value : numeralValue digits = v := (numeralValue_eq digits).trans stands.value.symm
  obtain ⟨c, rest, rfl⟩ := List.exists_cons_of_ne_nil stands.nonempty
  refine ⟨toBinary f ⟨negative, v, 0⟩, ?_, toBinary_whole negative few⟩
  rw [readNumber?_of_digit sign (run c List.mem_cons_self),
    readUnsigned?_digits negative run stands.nonempty, value]
  rfl

/-- The number is nearest to the integer that the sign and the numeral stand for. -/
theorem exists_isNearest_of_isNumeral {text : List Char} {negative : Bool} {v : Nat}
    (sign : splitSign text = (negative, digits)) (stands : IsNumeral digits v)
    (few : (numeral v).length ≤ f.scale) (finite : (Number.ofNat v : Number f).isFinite = true)
    : ∃ x, readNumber? f text = some x ∧ x.IsNearest (if negative then -(v : Int) else v) := by
  obtain ⟨x, read, own, rounded⟩ := readNumber?_numeral sign stands few
  have near := Number.isNearest_of_rounded (Number.isFinite_of_le rounded.le finite) rounded
  rw [own] at near
  exact ⟨x, read, near⟩

/-- An integer token is a number text, and what it is read as is nearest to the integer. -/
theorem exists_isNearest_of_isInteger {text : List Char} {n : Int} (integer : IsInteger text n)
    (few : (numeral n.natAbs).length ≤ f.scale)
    (finite : (Number.ofNat n.natAbs : Number f).isFinite = true)
    : ∃ x, readNumber? f text = some x ∧ x.IsNearest n := by
  cases integer with
  | plain stands =>
      have unsigned : splitSign text = (false, text) := by
        obtain ⟨c, rest, rfl⟩ := List.exists_cons_of_ne_nil stands.nonempty
        exact splitSign_of_digit (stands.run c List.mem_cons_self)
      exact exists_isNearest_of_isNumeral unsigned stands few finite
  | plus stands => exact exists_isNearest_of_isNumeral rfl stands few finite
  | minus stands =>
      rw [Int.natAbs_neg, Int.natAbs_natCast] at few finite
      exact exists_isNearest_of_isNumeral rfl stands few finite

end Decimal

end GraphShell
