import GraphShell.Proofs.Decimal.Integers
import GraphShell.Proofs.Timestamp.Readings
import GraphShell.Scalar.Basic

/-! Which readers take a token. Integers are floats as well, and the other kinds have no token in
common; so a token is coerced alike in every order of the readers that tries integers before
floats, and the scalar tells which of them took it.
-/

namespace GraphShell

namespace Timestamp

open Text

/-- Digits are read from in front of the rest. -/
theorem eq_append_of_readDigits? {least most n : Nat} {text rest : List Char}
    (read : readDigits? least most text = some (n, rest))
    : ∃ digits, text = digits ++ rest ∧ Digits digits ∧ least ≤ digits.length := by
  unfold readDigits? at read
  dsimp only at read
  split at read
  · cases read
  · next enough =>
      obtain ⟨-, rfl⟩ := Prod.mk.inj (Option.some.inj read)
      refine ⟨(text.take most).takeWhile isDigit, ?_, ?_, Nat.not_lt.mp enough⟩
      · have front : (text.take most).takeWhile isDigit <+: text :=
          (List.takeWhile_prefix _).trans (List.take_prefix _ _)
        exact (List.prefix_iff_eq_append.mp front).symm
      · intro c member
        exact List.all_eq_true.mp List.all_takeWhile c member

/-- An internet date-time begins with the digits of its year and a hyphen. -/
theorem year_ahead_of_readStrict? {text : List Char} {t : Timestamp}
    (read : readStrict? text = some t)
    : ∃ digits rest, text = digits ++ '-' :: rest ∧ Digits digits ∧ digits ≠ [] := by
  unfold readStrict? at read
  obtain ⟨⟨year, behind⟩, digits, read⟩ := Option.bind_eq_some_iff.mp read
  obtain ⟨_, hyphen, -⟩ := Option.bind_eq_some_iff.mp read
  obtain ⟨run, same, isRun, long⟩ := eq_append_of_readDigits? digits
  cases behind with
  | nil => cases hyphen
  | cons c rest =>
      have mark : c = '-' := by
        by_contra other
        rw [readChar?, if_neg other] at hyphen
        cases hyphen
      refine ⟨run, rest, by rw [same, mark], isRun, ?_⟩
      rintro rfl
      simp at long

end Timestamp

namespace Token

open Binary

-----------------------------------------------------------------------------------------
-- Integers among the numbers
-----------------------------------------------------------------------------------------

/-- An integer token is a float token too, and its double is nearest to the integer. -/
theorem exists_float_of_int {token : String} {n : Int64} (read : int? token = some n)
    : ∃ x, float? token = some x ∧ x.IsNearest n.toInt := by
  have low : -2 ^ 63 ≤ n.toInt := n.minValue_le_toInt
  have high : n.toInt ≤ 2 ^ 63 - 1 := n.toInt_le
  have few : (Text.numeral n.toInt.natAbs).length ≤ 19 :=
    Text.length_numeral_le (by omega) (by decide)
  have scale : 19 ≤ Format.double.scale := by decide
  have bound : (Number.ofNat (2 ^ 63) : Double).isFinite = true := by decide +kernel
  have below : (Number.ofNat n.toInt.natAbs : Double).isFinite = true :=
    Number.isFinite_of_le (Number.magnitude_ofNat_mono (by omega)) bound
  obtain ⟨x, number, near⟩ := Decimal.exists_isNearest_of_isInteger
    (int?_eq_some_iff.mp read) (few.trans scale) below
  exact ⟨x, Option.filter_eq_some_iff.mpr ⟨number, near.finite⟩, near⟩

-----------------------------------------------------------------------------------------
-- Numbers, truth words and date-times
-----------------------------------------------------------------------------------------

/-- The hyphen behind the year of a date-time goes on with no number. -/
theorem float?_of_timestamp {token : String} {t : Timestamp} (read : timestamp? token = some t)
    : float? token = none := by
  obtain ⟨digits, rest, text, run, nonempty⟩ := Timestamp.year_ahead_of_readStrict? read
  obtain ⟨c, more, rfl⟩ := List.exists_cons_of_ne_nil nonempty
  have digit := run c List.mem_cons_self
  have number : Decimal.readNumber? .double token.toList = none := by
    rw [text, List.cons_append,
      Decimal.readNumber?_of_digit (Decimal.splitSign_of_digit digit) digit, ← List.cons_append,
      Decimal.readUnsigned?_mark false run (by decide) (by decide) (by decide)]
    rfl
  rw [float?, number]
  rfl

theorem eq_word_of_bool? {token : String} {flag : Bool} (read : bool? token = some flag)
    : token = "true" ∨ token = "false" := by
  unfold bool? at read
  split at read
  · next same => exact .inl same
  · split at read
    · next same => exact .inr same
    · cases read

/-- A truth word is neither a number nor a date-time. -/
theorem bool?_alone {token : String} {flag : Bool} (read : bool? token = some flag)
    : float? token = none ∧ timestamp? token = none := by
  rcases eq_word_of_bool? read with rfl | rfl <;> decide +kernel

/-- A number is neither a truth word nor a date-time. -/
theorem float?_alone {token : String} {x : Double} (read : float? token = some x)
    : bool? token = none ∧ timestamp? token = none := by
  constructor
  · refine Option.eq_none_iff_forall_ne_some.mpr fun flag found => ?_
    rw [(bool?_alone found).1] at read
    cases read
  · refine Option.eq_none_iff_forall_ne_some.mpr fun t found => ?_
    rw [float?_of_timestamp found] at read
    cases read

/-- What is no number is no integer. -/
theorem int?_of_float? {token : String} (refused : float? token = none) : int? token = none := by
  refine Option.eq_none_iff_forall_ne_some.mpr fun n read => ?_
  obtain ⟨x, found, -⟩ := exists_float_of_int read
  rw [refused] at found
  cases found

theorem bool?_of_timestamp {token : String} {t : Timestamp} (read : timestamp? token = some t)
    : bool? token = none := by
  refine Option.eq_none_iff_forall_ne_some.mpr fun flag found => ?_
  rw [(bool?_alone found).2] at read
  cases read

-----------------------------------------------------------------------------------------
-- Coercion in any order
-----------------------------------------------------------------------------------------

/-- The kinds of scalars that have a reader; what none of them takes is text. -/
inductive Kind
  | int
  | float
  | bool
  | timestamp
deriving DecidableEq

/-- The scalar that the reader of a kind makes of a token. -/
def readAs? (token : String) : Kind → Option Scalar
  | .int => (int? token).map .int
  | .float => (float? token).map .float
  | .bool => (bool? token).map .bool
  | .timestamp => (timestamp? token).map .timestamp

/-- The scalar that the first reader to take a token makes of it, or else the text itself. -/
def coerceIn (order : List Kind) (token : String) : Scalar :=
  (order.findSome? (readAs? token)).getD (.text token)

/-- The kinds in the order of coercion. -/
def Kind.all : List Kind :=
  [int, float, bool, timestamp]

variable {token : String} {order : List Kind} {kind : Kind} {scalar : Scalar}

theorem coerceIn_all (token : String) : coerceIn Kind.all token = coerce token := by
  unfold coerceIn coerce Kind.all readAs?
  cases int? token <;> cases float? token <;> cases bool? token <;> cases timestamp? token <;> rfl

/-- The first reader decides if those in front of it refuse the token. -/
theorem coerceIn_append {front back : List Kind}
    (refused : ∀ other ∈ front, readAs? token other = none)
    (read : readAs? token kind = some scalar)
    : coerceIn (front ++ kind :: back) token = scalar := by
  have none : front.findSome? (readAs? token) = none := List.findSome?_eq_none_iff.mpr refused
  rw [coerceIn, List.findSome?_append, none, Option.none_or, List.findSome?_cons_of_isSome]
  all_goals simp [read]

/-- Where only one reader takes the token, its place in the order does not matter. -/
theorem coerceIn_of_only (member : kind ∈ order)
    (refused : ∀ other ≠ kind, readAs? token other = none)
    (read : readAs? token kind = some scalar)
    : coerceIn order token = scalar := by
  obtain ⟨front, back, rfl, first⟩ := List.eq_append_cons_of_mem member
  exact coerceIn_append (fun other inFront => refused other fun same => first (same ▸ inFront)) read

/-- An integer token is coerced to the integer if integers are read before floats, since no other
reader takes it.
-/
theorem coerceIn_of_int (distinct : order.Nodup) (before : [Kind.int, .float].Sublist order)
    {n : Int64} (read : int? token = some n)
    : coerceIn order token = .int n := by
  obtain ⟨x, float, -⟩ := exists_float_of_int read
  obtain ⟨early, late, rfl, inEarly, inLate⟩ := List.cons_sublist_iff.mp before
  obtain ⟨front, back, rfl, first⟩ := List.eq_append_cons_of_mem inEarly
  have apart := (List.nodup_append.mp distinct).2.2
  rw [List.append_assoc, List.cons_append]
  refine coerceIn_append (fun other inFront => ?_) (by rw [readAs?, read]; rfl)
  cases other with
  | int => exact absurd inFront first
  | float =>
      exact absurd rfl
        (apart _ (List.mem_append_left _ inFront) _ (List.singleton_sublist.mp inLate))
  | bool => rw [readAs?, (float?_alone float).1]; rfl
  | timestamp => rw [readAs?, (float?_alone float).2]; rfl

/-- Of a token that is no integer at most one reader makes a scalar. -/
theorem readAs?_of_ne (noInteger : int? token = none) (read : readAs? token kind = some scalar)
    {other : Kind} (differs : other ≠ kind)
    : readAs? token other = none := by
  have refused {α : Type} {reader : Option α} {make : α → Scalar} (none : reader = none)
      : reader.map make = Option.none := by
    rw [none, Option.map_none]
  cases kind with
  | int => simp [readAs?, noInteger] at read
  | float =>
      obtain ⟨x, found, -⟩ := Option.map_eq_some_iff.mp read
      obtain ⟨bool, timestamp⟩ := float?_alone found
      cases other with
      | int => exact refused noInteger
      | float => exact absurd rfl differs
      | bool => exact refused bool
      | timestamp => exact refused timestamp
  | bool =>
      obtain ⟨flag, found, -⟩ := Option.map_eq_some_iff.mp read
      obtain ⟨float, timestamp⟩ := bool?_alone found
      cases other with
      | int => exact refused noInteger
      | float => exact refused float
      | bool => exact absurd rfl differs
      | timestamp => exact refused timestamp
  | timestamp =>
      obtain ⟨t, found, -⟩ := Option.map_eq_some_iff.mp read
      cases other with
      | int => exact refused noInteger
      | float => exact refused (float?_of_timestamp found)
      | bool => exact refused (bool?_of_timestamp found)
      | timestamp => exact absurd rfl differs

/-- Every order of the readers with integers before floats coerces a token alike. -/
theorem exists_coerceIn_eq (token : String)
    : ∃ scalar,
        ∀ order : List Kind,
          order.Perm Kind.all → [Kind.int, .float].Sublist order → coerceIn order token = scalar
    := by
  cases integer : int? token with
  | some n =>
      refine ⟨.int n, fun order same before => coerceIn_of_int ?_ before integer⟩
      exact same.nodup_iff.mpr (by decide)
  | none =>
      by_cases some : ∃ kind scalar, readAs? token kind = some scalar
      · obtain ⟨kind, scalar, read⟩ := some
        refine ⟨scalar, fun order same _ => coerceIn_of_only (same.mem_iff.mpr ?_) ?_ read⟩
        · cases kind <;> decide
        · exact fun other differs => readAs?_of_ne integer read differs
      · refine ⟨.text token, fun order _ _ => ?_⟩
        have none : order.findSome? (readAs? token) = none := by
          refine List.findSome?_eq_none_iff.mpr fun kind _ => ?_
          exact Option.eq_none_iff_forall_ne_some.mpr fun scalar read => some ⟨kind, scalar, read⟩
        rw [coerceIn, none, Option.getD_none]

-----------------------------------------------------------------------------------------
-- What coercion tells of the readers
-----------------------------------------------------------------------------------------

/-- What the readers make of a token that is coerced to the scalar. -/
def ReadsAs (token : String) : Scalar → Prop
  | .int n => int? token = some n
  | .float x => int? token = none ∧ float? token = some x
  | .bool flag => bool? token = some flag
  | .timestamp t => timestamp? token = some t
  | .text content =>
      content = token
      ∧ int? token = none
      ∧ float? token = none
      ∧ bool? token = none
      ∧ timestamp? token = none

theorem readsAs_coerce (token : String) : ReadsAs token (coerce token) := by
  unfold coerce
  cases int : int? token with
  | some n => exact int
  | none =>
      cases float : float? token with
      | some x => exact ⟨int, float⟩
      | none =>
          cases bool : bool? token with
          | some flag => exact bool
          | none =>
              cases timestamp : timestamp? token with
              | some t => exact timestamp
              | none => exact ⟨rfl, int, float, bool, timestamp⟩

theorem coerce_eq_of_readsAs (reads : ReadsAs token scalar) : coerce token = scalar := by
  cases scalar with
  | int n =>
      have int : int? token = some n := reads
      simp [coerce, int]
  | float x =>
      obtain ⟨int, float⟩ := reads
      simp [coerce, int, float]
  | bool flag =>
      have bool : bool? token = some flag := reads
      have float := (bool?_alone bool).1
      simp [coerce, int?_of_float? float, float, bool]
  | timestamp t =>
      have timestamp : timestamp? token = some t := reads
      have float := float?_of_timestamp timestamp
      simp [coerce, int?_of_float? float, float, bool?_of_timestamp timestamp, timestamp]
  | text content =>
      obtain ⟨rfl, int, float, bool, timestamp⟩ := reads
      simp [coerce, int, float, bool, timestamp]

/-- Integers are read as floats too, as the nearest double; of floats, truth words and date-times
no two share a token. So a scalar tells which readers take its token, and only the order of
integers before floats matters.
-/
theorem coerce_of_any_order (token : String)
    : (∀ n, int? token = some n → ∃ x, float? token = some x ∧ x.IsNearest n.toInt)
      ∧ (∀ x, float? token = some x → bool? token = none ∧ timestamp? token = none)
      ∧ (∀ flag, bool? token = some flag → timestamp? token = none)
      ∧ (∀ scalar, coerce token = scalar ↔ ReadsAs token scalar)
      ∧ ∀ order : List Kind,
          order.Perm Kind.all
          → [Kind.int, .float].Sublist order
          → coerceIn order token = coerce token := by
  refine ⟨fun n => exists_float_of_int, fun x => float?_alone,
    fun flag read => (bool?_alone read).2,
    fun scalar => ⟨fun same => same ▸ readsAs_coerce token, coerce_eq_of_readsAs⟩, ?_⟩
  intro order same before
  obtain ⟨scalar, always⟩ := exists_coerceIn_eq token
  rw [always order same before, ← coerceIn_all, always Kind.all (.refl _) (by decide)]

/-- Minus zero is an integer and a float, and may be tried as a date-time and as a truth word
before either.
-/
theorem coerce_of_any_order_of_minus_zero
    : int? "-0" = some 0
      ∧ (∃ x, float? "-0" = some x ∧ x.IsNearest 0)
      ∧ coerceIn [.timestamp, .bool, .int, .float] "-0" = .int 0 := by
  have read : int? "-0" = some 0 := by decide
  obtain ⟨nested, -, -, coerced, reordered⟩ := coerce_of_any_order "-0"
  refine ⟨read, nested 0 read, ?_⟩
  rw [reordered _ (by decide) (by decide)]
  exact (coerced (.int 0)).mpr read

end Token

end GraphShell
