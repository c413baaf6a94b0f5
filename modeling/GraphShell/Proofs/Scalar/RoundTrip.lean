import GraphShell.Graph.Decoding
import GraphShell.Proofs.Json.Scaling
import GraphShell.Proofs.Json.Words
import GraphShell.Proofs.Timestamp.Readings
import GraphShell.Scalar.Basic

/-! A token is coerced with one pair of readers, and its JSON text is decoded with another. The
scalar comes back unless the relaxed reader finds a date-time in a text that the strict one
refused, or the digits of a number have to be rounded before they are scaled.
-/

namespace GraphShell

open Json

namespace Decimal

open Text

theorem exists_pointed_eq (n places : Nat)
    : ∃ whole tail, pointed (numeral n) places = numeral whole ++ tail := by
  rcases Nat.eq_zero_or_pos places with rfl | some
  · exact ⟨n, [], by simp [pointed]⟩
  · obtain ⟨whole, fraction, same, -⟩ := exists_pointed n some.ne'
    exact ⟨whole, _, same⟩

theorem exists_positional_eq (d : Decimal)
    : ∃ whole tail, d.positional = signText d.negative ++ (numeral whole ++ tail) := by
  unfold positional
  rcases Int.lt_or_le d.exponent 0 with behind | front
  · obtain ⟨whole, tail, same⟩ := exists_pointed_eq d.significand (-d.exponent).toNat
    have none : d.exponent.toNat = 0 := by omega
    exact ⟨whole, tail, by simp only [none, List.replicate_zero, List.append_nil, same]⟩
  · have none : (-d.exponent).toNat = 0 := by omega
    refine ⟨d.significand, List.replicate d.exponent.toNat '0', ?_⟩
    simp only [none, pointed, if_pos]

/-- Every decimal is written with its sign and then a numeral in front. -/
theorem exists_written_eq (style : Scientific) (d : Decimal)
    : ∃ whole tail, d.written style = signText d.negative ++ (numeral whole ++ tail) := by
  obtain ⟨whole, tail, same⟩ := exists_positional_eq d
  rcases written_cases style d with ⟨_, text⟩ | ⟨_, text | ⟨_, text⟩⟩
  · exact ⟨whole, tail ++ ['.', '0'], by simp only [text, same, List.append_assoc]⟩
  · obtain ⟨leading, others, same⟩ :=
      exists_pointed_eq d.significand ((numeral d.significand).length - 1)
    refine ⟨leading, ?_⟩
    simp only [text, scientific, same, List.append_assoc]
    exact ⟨_, rfl⟩
  · exact ⟨whole, tail, text.trans same⟩

end Decimal

namespace Scalar

variable {rest : List Char}

-----------------------------------------------------------------------------------------
-- Numbers and strings
-----------------------------------------------------------------------------------------

theorem numberAhead_sign (negative : Bool) (n : Nat) (rest : List Char)
    : Decoder.numberAhead (Decimal.signText negative ++ (Text.numeral n ++ rest)) = true := by
  cases negative with
  | true => rfl
  | false =>
      obtain ⟨c, more, same⟩ := List.exists_cons_of_ne_nil (Text.numeral_ne_nil n)
      have digit := Text.digits_numeral n c (same ▸ List.mem_cons_self)
      simp [Decimal.signText, same, Decoder.numberAhead, digit]

/-- What begins like a number begins with no blank. -/
theorem skipSpace_of_numberAhead {text : List Char} (number : Decoder.numberAhead text = true)
    : skipSpace text = text := by
  cases text with
  | nil => rfl
  | cons c rest =>
      have code : c = '-' ∨ 48 ≤ c.toNat := by
        simp only [Decoder.numberAhead, Bool.or_eq_true, decide_eq_true_eq] at number
        exact number.imp_right fun digit => (Text.isDigit_iff.mp digit).1
      refine List.dropWhile_cons_of_neg ?_
      simp only [Bool.or_eq_true, decide_eq_true_eq, not_or]
      refine ⟨⟨⟨?_, ?_⟩, ?_⟩, ?_⟩
      all_goals
        rintro rfl
        revert code
        decide

/-- What begins like a number is decoded as a number. -/
theorem decoder_of_numberAhead {text : List Char} (number : Decoder.numberAhead text = true)
    (levels : Nat)
    : decoder levels text
      = (readNumber text).map fun (number, rest) => (ofNumber number, rest) := by
  unfold decoder
  rw [skipSpace_of_numberAhead number]
  split
  · cases number
  · exact absurd number Bool.false_ne_true
  · exact absurd number Bool.false_ne_true
  · exact absurd number Bool.false_ne_true
  · exact if_pos number

/-- The literal of a finite number begins like one, and is read as its digits. -/
theorem readNumber_literal {f : Binary.Format} (readable : Readable f)
    (style : Decimal.Scientific) (most : style.most ≤ 17) {x : Binary.Number f}
    (finite : x.isFinite = true) (ends : NumberEnds rest)
    : Decoder.numberAhead ((Json.number style x).toList ++ rest) = true
      ∧ readNumber ((Json.number style x).toList ++ rest)
        = (scaledNumber x.negative ((Decimal.shortest .even x).asRead style).significand
            ((Decimal.shortest .even x).asRead style).exponent).map fun number =>
              (number, rest) := by
  obtain ⟨whole, tail, text⟩ := Decimal.exists_written_eq style (Decimal.shortest .even x)
  constructor
  · rw [toList_number style finite, text, List.append_assoc, List.append_assoc, numberAhead_sign]
  · rw [toList_number style finite,
      readNumber_written (modest_shortest readable .even finite) most ends,
      Decimal.negative_shortest]

/-- A quoted text is decoded as the text or as its date-time. -/
theorem decoder_quote (levels : Nat) (content : String) (rest : List Char)
    : decoder levels ((quote content).toList ++ rest)
      = .ok (ofString content.toList, rest) := by
  have text : (quote content).toList ++ rest
      = '"' :: (content.toList.flatMap escape ++ '"' :: rest) := by
    simp [quote]
  rw [text]
  exact congrArg (Except.map _) (readString_flatMap_escape content.toList rest)

-----------------------------------------------------------------------------------------
-- Scalars
-----------------------------------------------------------------------------------------

/-- The digits of a double that are read back. -/
def digitsRead (x : Double) : Decimal :=
  (Decimal.shortest .even x).asRead doubleStyle

/-- What the JSON text of a scalar is decoded as: a number from its digits, scaled once, and a
text as a date-time if it has the relaxed form.
-/
def reread : Scalar → Except Fault Scalar
  | float x =>
      (scaledNumber x.negative (digitsRead x).significand (digitsRead x).exponent).map ofNumber
  | text content => .ok (ofString content.toList)
  | scalar => .ok scalar

/-- Numbers are finite, and years have four digits. -/
def Regular : Scalar → Prop
  | float x => x.isFinite = true
  | timestamp t => 0 ≤ t.civil.year ∧ t.civil.year ≤ 9999
  | _ => True

/-- Each kind of scalar is decoded in front of what follows it. -/
theorem decoder_json {scalar : Scalar} (regular : scalar.Regular) (ends : NumberEnds rest)
    (levels : Nat)
    : decoder levels (scalar.json.toList ++ rest)
      = scalar.reread.map fun scalar => (scalar, rest) := by
  cases scalar with
  | int value =>
      have number : Decoder.numberAhead ((integerText value).toList ++ rest) = true := by
        rw [toList_integerText, List.append_assoc, numberAhead_sign]
      refine (decoder_of_numberAhead number levels).trans ?_
      rw [readNumber_integerText value ends]
      have small : value.toInt ≤ Int64.maxValue.toInt := value.toInt_le
      simp [reread, ofNumber, small, Except.map]
  | float x =>
      obtain ⟨number, read⟩ :=
        readNumber_literal readable_double doubleStyle (by decide) regular ends
      refine (decoder_of_numberAhead number levels).trans ?_
      rw [read]
      unfold reread digitsRead
      dsimp only
      generalize scaledNumber x.negative _ _ = outcome
      cases outcome <;> rfl
  | bool value => cases value <;> rfl
  | timestamp t =>
      refine (decoder_quote levels _ rest).trans ?_
      rw [ofString, Timestamp.readRelaxed?_write _ regular.1 regular.2]
      rfl
  | text content => exact decoder_quote levels content rest

/-- The JSON text of a scalar is decoded to its end. -/
theorem ofJson_json {scalar : Scalar} (regular : scalar.Regular)
    : ofJson scalar.json = scalar.reread := by
  have ends : NumberEnds [] := by
    rintro c ⟨⟩
  have decoded := decoder_json regular ends Decoder.levels
  rw [List.append_nil] at decoded
  rw [ofJson, decode, decoded]
  cases scalar.reread <;> rfl

/-- What a scalar has to be for its JSON text to lead back to it. -/
def Survives : Scalar → Prop
  | float x =>
      scaledNumber x.negative (digitsRead x).significand (digitsRead x).exponent
        = .ok (.scaled x)
  | text content => Timestamp.readRelaxed? content.toList = none
  | _ => True

theorem reread_eq_ok_iff (scalar : Scalar) : scalar.reread = .ok scalar ↔ scalar.Survives := by
  cases scalar with
  | int value => exact ⟨fun _ => trivial, fun _ => rfl⟩
  | bool value => exact ⟨fun _ => trivial, fun _ => rfl⟩
  | timestamp t => exact ⟨fun _ => trivial, fun _ => rfl⟩
  | float x =>
      unfold reread Survives scaledNumber
      dsimp only
      generalize scaleByTen _ _ = outcome
      cases outcome with
      | error fault => simp [Except.map]
      | ok y => simp [Except.map, ofNumber]
  | text content =>
      unfold reread Survives ofString
      dsimp only
      generalize Timestamp.readRelaxed? content.toList = read
      cases read <;> simp

/-- A number whose digits and power of ten need no rounding comes back. -/
theorem survives_of_scalable {x : Double} (finite : x.isFinite = true)
    (scalable : Scalable (digitsRead x))
    : (float x).Survives :=
  scaledNumber_shortest finite scalable

/-- A number drifts exactly if its digits times their power of ten, in doubles and each step
rounded, miss its magnitude.
-/
theorem survives_float_iff {x : Double} (finite : x.isFinite = true)
    : (float x).Survives ↔ scaledDigits (digitsRead x) = x.withSign false :=
  scaledNumber_eq_ok_iff finite (inReach_shortest doubleStyle finite)

end Scalar

namespace Token

open Scalar

/-- What a token is coerced to is a finite number or has a year of four digits. -/
theorem regular_coerce (token : String) : (coerce token).Regular := by
  unfold coerce
  cases int? token with
  | some value => exact trivial
  | none =>
      cases number : float? token with
      | some x => exact (Option.filter_eq_some_iff.mp number).2
      | none =>
          cases bool? token with
          | some value => exact trivial
          | none =>
              cases read : timestamp? token with
              | some t => exact Timestamp.year_of_readStrict? read
              | none => exact trivial

/-- The JSON text of what a token is coerced to is decoded as the same scalar, unless it is a
text in the relaxed form of a date-time or a number that scaling in one step misses. Numbers
whose digits and power of ten need no rounding are not missed, and `Scalar.survives_float_iff`
tells which of the others are.
-/
theorem ofJson_json_coerce (token : String)
    : ofJson (coerce token).json = (coerce token).reread
      ∧ (ofJson (coerce token).json = .ok (coerce token) ↔ (coerce token).Survives)
      ∧ ∀ x, coerce token = .float x → Scalable (digitsRead x) → (coerce token).Survives := by
  rw [ofJson_json (regular_coerce token)]
  refine ⟨rfl, reread_eq_ok_iff _, ?_⟩
  intro x number scalable
  have regular := regular_coerce token
  rw [number] at regular ⊢
  exact survives_of_scalable regular scalable

/-- Two and a half, as twenty-five tenths. -/
theorem ofJson_json_coerce_of_tenths
    : ∃ x : Double,
        coerce "2.5" = .float x
        ∧ Scalable (digitsRead x)
        ∧ ofJson (coerce "2.5").json = .ok (coerce "2.5") := by
  have number : coerce "2.5" = .float (5 / 2) := by decide +kernel
  have digits : digitsRead (5 / 2) = ⟨false, 25, -1⟩ := by decide +kernel
  have scalable : Scalable (digitsRead (5 / 2)) := by
    rw [digits]
    exact ⟨⟨⟨25, 0, rfl, by decide⟩, by decide⟩, by decide⟩
  obtain ⟨-, back, exact_⟩ := ofJson_json_coerce "2.5"
  exact ⟨5 / 2, number, scalable, back.mpr (exact_ _ number scalable)⟩

/-- A date without leading zeros is no date-time as a token and is one as a JSON string; and a
power of ten that is no double is rounded before the digit is divided by it.
-/
theorem ofJson_json_coerce_drifts
    : coerce "2024-5-1T1:2:3Z" = .text "2024-5-1T1:2:3Z"
      ∧ ofJson (coerce "2024-5-1T1:2:3Z").json ≠ .ok (coerce "2024-5-1T1:2:3Z")
      ∧ (coerce "1e-23").json = "1e-23"
      ∧ ofJson (coerce "1e-23").json ≠ .ok (coerce "1e-23") := by
  decide +kernel

end Token

end GraphShell
