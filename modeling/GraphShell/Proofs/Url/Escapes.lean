import GraphShell.Proofs.Text.Lines
import GraphShell.Url.Basic

/-! Escapes can be undone: where a percent sign is escaped itself, what is written stands for
the bytes of the text and of no other. A written text has no character that needs an escape,
and is spelled like dots only if it is dots.
-/

namespace GraphShell.Percent

variable {escapes : Escapes} {c : Char} {text segment rest : List Char}

-----------------------------------------------------------------------------------------
-- Undoing escapes
-----------------------------------------------------------------------------------------

theorem hexValue?_hexDigit
    : ∀ n < 16, Text.hexValue? (Text.hexDigit n).toUpper = some n := by
  decide

theorem decode_escape (byte : UInt8) (rest : List Char)
    : decode (escape byte ++ rest) = byte :: decode rest := by
  have bound := byte.toNat_lt
  have high := hexValue?_hexDigit (byte.toNat / 16) (by omega)
  have low := hexValue?_hexDigit (byte.toNat % 16) (by omega)
  simp [escape, decode, high, low, Nat.div_add_mod]

theorem decode_cons (plain : c ≠ '%') (rest : List Char)
    : decode (c :: rest) = String.utf8EncodeChar c ++ decode rest := by
  rw [decode]
  rintro _ _ _ rfl
  exact absurd rfl plain

theorem decode_flatMap_escape (bytes : List UInt8) (rest : List Char)
    : decode (bytes.flatMap escape ++ rest) = bytes ++ decode rest := by
  induction bytes with
  | nil => rfl
  | cons byte bytes ih =>
      rw [List.flatMap_cons, List.append_assoc, decode_escape, ih]
      rfl

/-- What is written stands for the bytes of the text, by induction on the text. -/
theorem decode_encode (percent : escapes '%' = true) (text : List Char)
    : decode (encode escapes text) = text.flatMap String.utf8EncodeChar := by
  induction text with
  | nil => rfl
  | cons c text ih =>
      have step : decode (encode escapes (c :: text))
          = String.utf8EncodeChar c ++ decode (encode escapes text) := by
        rw [encode, List.flatMap_cons]
        split
        · exact decode_flatMap_escape _ _
        · next plain =>
            refine decode_cons ?_ _
            rintro rfl
            simp [needsEscape, percent] at plain
      rw [step, ih, List.flatMap_cons]

theorem decode_eq_nil_iff : decode text = [] ↔ text = [] := by
  refine ⟨fun none => ?_, by rintro rfl; rfl⟩
  unfold decode at none
  split at none
  · rfl
  · split at none <;> simp at none
  · simp at none

-----------------------------------------------------------------------------------------
-- Characters of what is written
-----------------------------------------------------------------------------------------

/-- What is written has only signs of escapes, and characters that need none. -/
theorem mem_encode (member : c ∈ encode escapes text)
    : c = '%' ∨ (Text.hexValue? c).isSome ∨ c ∈ text ∧ needsEscape escapes c = false := by
  obtain ⟨d, source, member⟩ := List.mem_flatMap.mp member
  split at member
  · obtain ⟨byte, -, member⟩ := List.mem_flatMap.mp member
    have bound := byte.toNat_lt
    have high := hexValue?_hexDigit (byte.toNat / 16) (by omega)
    have low := hexValue?_hexDigit (byte.toNat % 16) (by omega)
    simp only [escape, List.mem_cons, List.not_mem_nil, or_false] at member
    rcases member with rfl | rfl | rfl
    · exact .inl rfl
    · exact .inr (.inl (by rw [high]; rfl))
    · exact .inr (.inl (by rw [low]; rfl))
  · next plain =>
      obtain rfl := List.mem_singleton.mp member
      exact .inr (.inr ⟨source, by simpa using plain⟩)

-----------------------------------------------------------------------------------------
-- Dots
-----------------------------------------------------------------------------------------

theorem toLower_eq_or (c : Char) : c.toLower = c ∨ 65 ≤ c.toNat ∧ c.toNat ≤ 90 := by
  unfold Char.toLower
  split
  · next upper =>
      simp only [ge_iff_le, UInt32.le_iff_toNat_le] at upper
      exact .inr upper
  · exact .inl rfl

/-- No capital letter comes down to one of the signs that spell dots. -/
theorem eq_of_toLower_eq {d : Char} (same : c.toLower = d) (sign : d ∈ ['.', '%', '2'])
    : c = d := by
  rcases toLower_eq_or c with unchanged | ⟨low, high⟩
  · exact unchanged.symm.trans same
  · have each : ∀ n < 91, 65 ≤ n → (Char.ofNat n).toLower ∉ ['.', '%', '2'] := by
      decide
    have apart := each c.toNat (by omega) low
    rw [Char.ofNat_toNat, same] at apart
    exact absurd sign apart

theorem hexValue?_of_toLower_eq (same : c.toLower = 'e') : Text.hexValue? c = some 14 := by
  rcases toLower_eq_or c with unchanged | ⟨low, high⟩
  · obtain rfl : c = 'e' := unchanged.symm.trans same
    rfl
  · have each : ∀ n < 91, 65 ≤ n → (Char.ofNat n).toLower = 'e'
        → Text.hexValue? (Char.ofNat n) = some 14 := by
      decide
    have value := each c.toNat (by omega) low
    rw [Char.ofNat_toNat] at value
    exact value same

/-- The ways to spell one dot, in lower case. -/
def dotSpellings : List (List Char) :=
  [['.'], ['%', '2', 'e']]

/-- Dots stand for the bytes of dots, however each of them is spelled, by induction on them. -/
theorem decode_of_dots {dots : List (List Char)} (each : ∀ dot ∈ dots, dot ∈ dotSpellings)
    (same : segment.map Char.toLower = dots.flatten)
    : decode segment = List.replicate dots.length 0x2E := by
  induction dots generalizing segment with
  | nil =>
      obtain rfl := List.map_eq_nil_iff.mp same
      rfl
  | cons dot dots ih =>
      obtain ⟨spelling, others⟩ := List.forall_mem_cons.mp each
      simp only [dotSpellings, List.mem_cons, List.not_mem_nil, or_false] at spelling
      rcases spelling with rfl | rfl
      · obtain ⟨sign, rest, rfl, first, later⟩ := List.map_eq_cons_iff.mp same
        obtain rfl := eq_of_toLower_eq first (by decide)
        rw [decode_cons (by decide), ih others later]
        rfl
      · obtain ⟨percent, _, rfl, first, behind⟩ := List.map_eq_cons_iff.mp same
        obtain ⟨two, _, rfl, second, behind⟩ := List.map_eq_cons_iff.mp behind
        obtain ⟨letter, rest, rfl, third, later⟩ := List.map_eq_cons_iff.mp behind
        obtain rfl := eq_of_toLower_eq first (by decide)
        obtain rfl := eq_of_toLower_eq second (by decide)
        have two : Text.hexValue? '2' = some 2 := rfl
        simp [decode, two, hexValue?_of_toLower_eq third, ih others later, List.replicate_succ]

theorem decode_of_isSingleDot (dot : UrlPath.isSingleDot segment = true)
    : decode segment = [0x2E] := by
  have spelled : segment.map Char.toLower = [['.']].flatten
      ∨ segment.map Char.toLower = [['%', '2', 'e']].flatten := by
    simpa [UrlPath.isSingleDot, ← String.toList_inj] using dot
  rcases spelled with same | same <;> exact decode_of_dots (by decide) same

theorem decode_of_isDoubleDot (dots : UrlPath.isDoubleDot segment = true)
    : decode segment = [0x2E, 0x2E] := by
  have spelled : segment.map Char.toLower = [['.'], ['.']].flatten
      ∨ segment.map Char.toLower = [['.'], ['%', '2', 'e']].flatten
      ∨ segment.map Char.toLower = [['%', '2', 'e'], ['.']].flatten
      ∨ segment.map Char.toLower = [['%', '2', 'e'], ['%', '2', 'e']].flatten := by
    simpa [UrlPath.isDoubleDot, ← String.toList_inj] using dots
  rcases spelled with same | same | same | same <;> exact decode_of_dots (by decide) same

end GraphShell.Percent
