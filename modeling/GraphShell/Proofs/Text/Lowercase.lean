import GraphShell.Text.Lowercase
import GraphShell.Text.Splitting
import Mathlib.Data.List.Chain

/-! The lower case of a word is a word: no letter becomes a blank, and none is lost. Lowering a
text twice is lowering it once. The small letter of a capital is no capital itself, which is read
off the table of capitals by comparing its runs with one another; so lowering leaves no letter
behind that it would change.
-/

namespace GraphShell.Text

-----------------------------------------------------------------------------------------
-- Words in lower case
-----------------------------------------------------------------------------------------

/-- The ranges of code points of the blank characters. -/
def blankRanges : List (Nat × Nat) :=
  [(9, 13), (0x20, 0x20), (0x85, 0x85), (0xA0, 0xA0), (0x1680, 0x1680), (0x2000, 0x200A),
    (0x2028, 0x2029), (0x202F, 0x202F), (0x205F, 0x205F), (0x3000, 0x3000)]

theorem exists_range_of_isBlank {c : Char} (blank : isBlank c = true)
    : ∃ range ∈ blankRanges, range.1 ≤ c.toNat ∧ c.toNat ≤ range.2 := by
  simp only [isBlank, Bool.or_eq_true, Bool.and_eq_true, decide_eq_true_eq, beq_iff_eq] at blank
  simp only [blankRanges, List.mem_cons, List.not_mem_nil, or_false, exists_eq_or_imp,
    exists_eq_left]
  omega

/-- A code point outside the ranges makes no blank character; one that is no character at all
makes the null character.
-/
theorem not_isBlank_ofNat {n : Nat}
    (outside : ∀ range ∈ blankRanges, ¬ (range.1 ≤ n ∧ n ≤ range.2))
    : isBlank (Char.ofNat n) = false := by
  refine Bool.eq_false_iff.mpr fun blank => ?_
  obtain ⟨range, listed, within⟩ := exists_range_of_isBlank blank
  by_cases valid : n.isValidChar
  · have code : (Char.ofNat n).toNat = n := by
      rw [Char.ofNat, dif_pos valid]
      rfl
    exact outside range listed (code ▸ within)
  · have code : (Char.ofNat n).toNat = 0 := by
      rw [Char.ofNat, dif_neg valid]
      rfl
    have positive : ∀ range ∈ blankRanges, 0 < range.1 := by decide
    have low := positive range listed
    omega

/-- No small letter of the run is a blank. -/
def CapitalRun.missesBlanks (run : CapitalRun) : Bool :=
  0 ≤ run.first + run.distance
    && blankRanges.all fun range =>
      run.last + run.distance < range.1 || range.2 < run.first + run.distance

theorem capitalRuns_missBlanks : ∀ run ∈ capitalRuns, run.missesBlanks = true := by
  decide +kernel

theorem CapitalRun.not_isBlank_shifted {run : CapitalRun} {c : Char}
    (misses : run.missesBlanks = true) (contained : run.contains c = true)
    : isBlank (Char.ofNat (c.toNat + run.distance).toNat) = false := by
  simp only [missesBlanks, Bool.and_eq_true, List.all_eq_true, Bool.or_eq_true,
    decide_eq_true_eq] at misses
  simp only [contains, Bool.and_eq_true, decide_eq_true_eq] at contained
  refine not_isBlank_ofNat fun range listed => ?_
  have apart := misses.2 range listed
  omega

/-- The lower case of a character that is no blank holds none. -/
theorem not_isBlank_of_mem_lowerChar {c d : Char} (solid : isBlank c = false)
    (member : d ∈ lowerChar c)
    : isBlank d = false := by
  unfold lowerChar at member
  split at member
  · next ascii =>
      obtain rfl := List.mem_singleton.mp member
      have each : ∀ n < 0x80, isBlank (Char.ofNat n) = false
          → isBlank (Char.ofNat n).toLower = false := by
        decide +kernel
      simpa using each c.toNat ascii (by simpa using solid)
  · split at member
    · rcases List.mem_cons.mp member with rfl | member
      · rfl
      · obtain rfl := List.mem_singleton.mp member
        rfl
    · split at member
      · next run found =>
          obtain rfl := List.mem_singleton.mp member
          have listed := List.mem_of_find?_eq_some found
          have contained : run.contains c = true :=
            List.find?_some (p := fun run : CapitalRun => run.contains c) found
          exact CapitalRun.not_isBlank_shifted (capitalRuns_missBlanks run listed) contained
      · obtain rfl := List.mem_singleton.mp member
        exact solid

theorem lowerChar_ne_nil (c : Char) : lowerChar c ≠ [] := by
  unfold lowerChar
  repeat' split
  all_goals simp

/-- The lower case of a text without blanks has none, whatever stands before it. -/
theorem not_isBlank_of_mem_lowerBehind {before text : List Char} {d : Char}
    (solid : ∀ c ∈ text, isBlank c = false) (member : d ∈ lowerBehind before text)
    : isBlank d = false := by
  induction text generalizing before with
  | nil => cases member
  | cons c rest ih =>
      rw [lowerBehind] at member
      rcases List.mem_append.mp member with first | later
      · split at first
        · split at first <;> obtain rfl := List.mem_singleton.mp first <;> rfl
        · exact not_isBlank_of_mem_lowerChar (solid c List.mem_cons_self) first
      · exact ih (fun e listed => solid e (List.mem_cons_of_mem _ listed)) later

theorem lowerBehind_ne_nil {before text : List Char} (something : text ≠ [])
    : lowerBehind before text ≠ [] := by
  cases text with
  | nil => exact absurd rfl something
  | cons c rest =>
      rw [lowerBehind]
      refine List.append_ne_nil_of_left_ne_nil ?_ _
      split
      · split <;> simp
      · exact lowerChar_ne_nil c

namespace CapitalRun

-----------------------------------------------------------------------------------------
-- The table of capitals
-----------------------------------------------------------------------------------------

/-- The code point of the run's first small letter. -/
def lowest (run : CapitalRun) : Nat :=
  (run.first + run.distance).toNat

/-- The code point of the run's last small letter. -/
def highest (run : CapitalRun) : Nat :=
  (run.last + run.distance).toNat

/-- The small letters of the run stand between the capitals of the other one, as where capital and
small letters alternate: the first of them does, and they follow at whole steps of the other run.
-/
def alternates (run other : CapitalRun) : Bool :=
  (run.first == run.last || run.step % other.step == 0)
    && run.lowest % other.step != other.first % other.step

/-- No small letter of the run is a capital of the others, which are in increasing order: the
comparison ends with the first run that begins behind all small letters.
-/
def clears (run : CapitalRun) : List CapitalRun → Bool
  | [] => true
  | other :: rest =>
      if other.last < run.lowest then run.clears rest
      else if run.highest < other.first then true
      else run.alternates other && run.clears rest

variable {run other : CapitalRun} {c d : Char}

/-- A small letter is as far behind the first one as its capital is behind the first capital. -/
theorem toNat_shifted (misses : run.missesBlanks = true) (contained : run.contains c = true)
    (shifted : d.toNat = (c.toNat + run.distance).toNat)
    : d.toNat = run.lowest + (c.toNat - run.first) ∧ d.toNat ≤ run.highest := by
  simp only [missesBlanks, Bool.and_eq_true, decide_eq_true_eq] at misses
  simp only [contains, Bool.and_eq_true, decide_eq_true_eq] at contained
  unfold lowest highest
  omega

theorem not_contains_of_alternates (alternates : run.alternates other = true)
    (contained : run.contains c = true) (shifted : d.toNat = run.lowest + (c.toNat - run.first))
    : other.contains d = false := by
  refine Bool.eq_false_iff.mpr fun within => ?_
  simp only [contains, Bool.and_eq_true, decide_eq_true_eq, beq_iff_eq] at contained within
  simp only [CapitalRun.alternates, Bool.and_eq_true, Bool.or_eq_true, beq_iff_eq, bne_iff_ne]
    at alternates
  obtain ⟨aligned, between⟩ := alternates
  obtain ⟨reached, behind⟩ : ∃ steps, d.toNat - other.first = other.step * steps :=
    Nat.dvd_of_mod_eq_zero within.2
  obtain ⟨moved, along⟩ : ∃ steps, c.toNat - run.first = other.step * steps := by
    rcases aligned with single | multiple
    · exact ⟨0, by omega⟩
    · exact Nat.dvd_trans (Nat.dvd_of_mod_eq_zero multiple) (Nat.dvd_of_mod_eq_zero contained.2)
  have same : run.lowest + other.step * moved = other.first + other.step * reached := by omega
  apply between
  calc run.lowest % other.step
      = (run.lowest + other.step * moved) % other.step := (Nat.add_mul_mod_self_left ..).symm
    _ = (other.first + other.step * reached) % other.step := by rw [same]
    _ = other.first % other.step := Nat.add_mul_mod_self_left ..

/-- By induction on the other runs; those behind the one that ends the comparison begin even
later.
-/
theorem not_contains_of_clears {others : List CapitalRun}
    (increasing : others.Pairwise fun left right => left.first ≤ right.first)
    (clears : run.clears others = true) (misses : run.missesBlanks = true)
    (contained : run.contains c = true) (shifted : d.toNat = (c.toNat + run.distance).toNat)
    : ∀ other ∈ others, other.contains d = false := by
  obtain ⟨place, within⟩ := toNat_shifted misses contained shifted
  have apart {other : CapitalRun} (outside : d.toNat < other.first ∨ other.last < d.toNat)
      : other.contains d = false := by
    refine Bool.eq_false_iff.mpr fun inside => ?_
    simp only [contains, Bool.and_eq_true, decide_eq_true_eq] at inside
    omega
  induction others with
  | nil => exact List.forall_mem_nil _
  | cons other rest ih =>
      obtain ⟨later, sorted⟩ := List.pairwise_cons.mp increasing
      rw [CapitalRun.clears] at clears
      split at clears
      · next below =>
          exact List.forall_mem_cons.mpr ⟨apart (.inr (by omega)), ih sorted clears⟩
      · split at clears
        · next above =>
            refine List.forall_mem_cons.mpr ⟨apart (.inl (by omega)), fun next listed => ?_⟩
            have beyond := later next listed
            exact apart (.inl (by omega))
        · obtain ⟨alternates, clears⟩ := Bool.and_eq_true_iff.mp clears
          exact List.forall_mem_cons.mpr
            ⟨not_contains_of_alternates alternates contained place, ih sorted clears⟩

end CapitalRun

theorem capitalRuns_clear : ∀ run ∈ capitalRuns, run.clears capitalRuns = true := by
  decide +kernel

theorem capitalRuns_increasing
    : capitalRuns.Pairwise fun left right => left.first ≤ right.first := by
  have chain : (capitalRuns.map CapitalRun.first).IsChain (· ≤ ·) := by
    decide +kernel
  exact List.pairwise_map.mp chain.pairwise

-----------------------------------------------------------------------------------------
-- Characters
-----------------------------------------------------------------------------------------

/-- Lowering has nothing to change about the character. -/
def IsSmall (c : Char) : Prop :=
  c ≠ '\u0130' ∧ ∀ run ∈ capitalRuns, run.contains c = false

instance (c : Char) : Decidable (IsSmall c) :=
  inferInstanceAs (Decidable (_ ∧ _))

/-- The one capital outside the table has no small letter shifted onto it, and its code point is
not zero, which stands in for those that are no characters.
-/
theorem capitalRuns_miss_dotted
    : ∀ run ∈ capitalRuns, 0 < run.first ∧ (run.highest < 0x130 ∨ 0x130 < run.lowest) := by
  decide +kernel

/-- The small letter of a capital is small. -/
theorem CapitalRun.isSmall_shifted {run : CapitalRun} {c : Char} (listed : run ∈ capitalRuns)
    (contained : run.contains c = true)
    : IsSmall (Char.ofNat (c.toNat + run.distance).toNat) := by
  have misses := capitalRuns_missBlanks run listed
  by_cases valid : (c.toNat + run.distance).toNat.isValidChar
  · have code : (Char.ofNat (c.toNat + run.distance).toNat).toNat
        = (c.toNat + run.distance).toNat := by
      rw [Char.ofNat, dif_pos valid]
      rfl
    constructor
    · intro dotted
      obtain ⟨place, within⟩ := toNat_shifted misses contained code
      have outside := (capitalRuns_miss_dotted run listed).2
      rw [dotted] at place within
      change 0x130 = _ at place
      change 0x130 ≤ _ at within
      omega
    · exact not_contains_of_clears capitalRuns_increasing (capitalRuns_clear run listed) misses
        contained code
  · have code : Char.ofNat (c.toNat + run.distance).toNat = '\u0000' := by
      rw [Char.ofNat, dif_neg valid]
      rfl
    rw [code]
    refine ⟨by decide, fun other otherListed => ?_⟩
    have positive := (capitalRuns_miss_dotted other otherListed).1
    refine Bool.eq_false_iff.mpr fun inside => ?_
    simp only [contains, Bool.and_eq_true, decide_eq_true_eq] at inside
    change (other.first ≤ 0 ∧ _) ∧ _ at inside
    omega

/-- No other character of the first hundred and twenty-eight is a capital. -/
theorem isSmall_toLower {c : Char} (ascii : c.toNat < 0x80) : IsSmall c.toLower := by
  have letters : ∀ n < 0x80,
      (Char.ofNat n).toLower.toNat < 0x80
        ∧ ((Char.ofNat n).toLower.toNat < 0x41 ∨ 0x5A < (Char.ofNat n).toLower.toNat) := by
    decide +kernel
  have first : ∀ run ∈ capitalRuns, run.first < 0x80 → run.first = 0x41 ∧ run.last = 0x5A := by
    decide +kernel
  have lowered := letters c.toNat ascii
  rw [Char.ofNat_toNat] at lowered
  constructor
  · intro dotted
    rw [dotted] at lowered
    exact absurd lowered.1 (by decide)
  · intro run listed
    have only := first run listed
    refine Bool.eq_false_iff.mpr fun inside => ?_
    simp only [CapitalRun.contains, Bool.and_eq_true, decide_eq_true_eq] at inside
    omega

theorem isSmall_of_mem_lowerChar {c d : Char} (member : d ∈ lowerChar c) : IsSmall d := by
  unfold lowerChar at member
  split at member
  · next ascii =>
      obtain rfl := List.mem_singleton.mp member
      exact isSmall_toLower ascii
  · split at member
    · have both : IsSmall 'i' ∧ IsSmall '\u0307' := by
        decide +kernel
      obtain rfl | rfl : d = 'i' ∨ d = '\u0307' := by simpa using member
      · exact both.1
      · exact both.2
    · next undotted =>
        split at member
        · next run found =>
            obtain rfl := List.mem_singleton.mp member
            exact CapitalRun.isSmall_shifted (List.mem_of_find?_eq_some found)
              (List.find?_some (p := fun run : CapitalRun => run.contains c) found)
        · next none =>
            obtain rfl := List.mem_singleton.mp member
            refine ⟨undotted, fun run listed => ?_⟩
            simpa using List.find?_eq_none.mp none run listed

theorem IsSmall.lowerChar_eq {c : Char} (small : IsSmall c) : lowerChar c = [c] := by
  unfold lowerChar
  split
  · next ascii =>
      have latin : CapitalRun.contains ⟨0x41, 0x5A, 1, 32⟩ c = false :=
        small.2 _ List.mem_cons_self
      have outside : c.toNat < 0x41 ∨ 0x5A < c.toNat := by
        simp only [CapitalRun.contains, Nat.mod_one, BEq.rfl, Bool.and_true,
          Bool.and_eq_false_imp, decide_eq_true_eq, decide_eq_false_iff_not, Nat.not_le] at latin
        omega
      have each : ∀ n < 0x80, n < 0x41 ∨ 0x5A < n → (Char.ofNat n).toLower = Char.ofNat n := by
        decide +kernel
      have same := each c.toNat ascii outside
      rw [Char.ofNat_toNat] at same
      rw [same]
  · rw [if_neg small.1]
    have none : (capitalRuns.find? fun run => run.contains c) = none := by
      simpa using small.2
    rw [none]

-----------------------------------------------------------------------------------------
-- Texts
-----------------------------------------------------------------------------------------

theorem isSmall_of_mem_lowerBehind {before text : List Char} {d : Char}
    (member : d ∈ lowerBehind before text)
    : IsSmall d := by
  induction text generalizing before with
  | nil => cases member
  | cons c rest ih =>
      rw [lowerBehind] at member
      rcases List.mem_append.mp member with first | later
      · split at first
        · have both : IsSmall 'ς' ∧ IsSmall 'σ' := by
            decide +kernel
          split at first
          · obtain rfl := List.mem_singleton.mp first
            exact both.1
          · obtain rfl := List.mem_singleton.mp first
            exact both.2
        · exact isSmall_of_mem_lowerChar first
      · exact ih later

/-- Small letters stay as they are, wherever they stand; a sigma that depends on its place is a
capital.
-/
theorem lowerBehind_eq_self {before text : List Char} (small : ∀ c ∈ text, IsSmall c)
    : lowerBehind before text = text := by
  induction text generalizing before with
  | nil => rfl
  | cons c rest ih =>
      obtain ⟨first, later⟩ := List.forall_mem_cons.mp small
      have noSigma : c ≠ 'Σ' := by
        rintro rfl
        exact absurd first (by decide +kernel)
      rw [lowerBehind, if_neg noSigma, first.lowerChar_eq, ih later, List.singleton_append]

/-- Lowering a text again changes nothing. -/
theorem lower_lower (text : String) : lower (lower text) = lower text := by
  rw [lower, lower, String.toList_ofList]
  exact congrArg String.ofList (lowerBehind_eq_self fun _ => isSmall_of_mem_lowerBehind)

end GraphShell.Text
