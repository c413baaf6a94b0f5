import GraphShell.Text.Splitting
import Mathlib.Data.List.DropRight
import Mathlib.Data.List.TakeWhile

/-! The words of a text are told by its layout: they are free of blanks, a blank or the end
follows each of them, and nothing but blanks stands around them. A text has one layout. Where a
word is added behind a break the words in front of it stay, and trimming takes away the blanks at
the ends and no other part of the text.
-/

namespace GraphShell.Text

-----------------------------------------------------------------------------------------
-- Layouts
-----------------------------------------------------------------------------------------

/-- Nothing follows, or a blank character does. -/
def AtBreak (text : List Char) : Prop :=
  ∀ c ∈ text.head?, isBlank c = true

/-- The text consists of the words in order, each a run without blanks that ends at a break,
and of blanks before, between and after them.
-/
inductive Separated : List Char → List (List Char) → Prop
  | blanks {gap} (blank : ∀ c ∈ gap, isBlank c = true) : Separated gap []
  | word {gap word rest words} (blank : ∀ c ∈ gap, isBlank c = true) (nonempty : word ≠ [])
    (solid : ∀ c ∈ word, isBlank c = false) (stops : AtBreak rest)
    (more : Separated rest words)
    : Separated (gap ++ word ++ rest) (word :: words)

-----------------------------------------------------------------------------------------
-- A layout determines the words
-----------------------------------------------------------------------------------------

/-- Blanks in front of a text add no word. -/
theorem wordsOf_append_of_blank {gap : List Char} (blank : ∀ c ∈ gap, isBlank c = true)
    (text : List Char)
    : wordsOf (gap ++ text) = wordsOf text := by
  induction gap with
  | nil => rfl
  | cons c gap ih =>
      rw [← ih fun d member => blank d (List.mem_cons_of_mem _ member)]
      simp [wordsOf, splitWord, blank c List.mem_cons_self]

/-- A run without blanks in front of a break is the first word. -/
theorem splitWord_append_of_solid {word rest : List Char}
    (solid : ∀ c ∈ word, isBlank c = false) (stops : AtBreak rest)
    : splitWord (word ++ rest) = (word, wordsOf rest) := by
  induction word with
  | nil =>
      cases rest with
      | nil => rfl
      | cons c rest => simp [splitWord, wordsOf, stops c rfl]
  | cons c word ih =>
      have tail := ih fun d member => solid d (List.mem_cons_of_mem _ member)
      simp [splitWord, tail, solid c List.mem_cons_self]

theorem Separated.wordsOf_eq {text : List Char} {words : List (List Char)}
    (layout : Separated text words)
    : wordsOf text = words := by
  induction layout with
  | blanks blank => simpa [wordsOf, splitWord] using wordsOf_append_of_blank blank []
  | word blank nonempty solid stops _ ih =>
      rw [List.append_assoc, wordsOf_append_of_blank blank, wordsOf,
        splitWord_append_of_solid solid stops]
      simp [nonempty, ih]

-----------------------------------------------------------------------------------------
-- Every text has a layout
-----------------------------------------------------------------------------------------

/-- A blank in front of a text extends the gap that the text begins with. -/
theorem Separated.cons_blank {c : Char} {text : List Char} {words : List (List Char)}
    (blank : isBlank c = true) (layout : Separated text words)
    : Separated (c :: text) words := by
  cases layout with
  | blanks gap => exact .blanks (List.forall_mem_cons.mpr ⟨blank, gap⟩)
  | @word gap word rest words gapBlank nonempty solid stops more =>
      exact @Separated.word (c :: gap) word rest words
        (List.forall_mem_cons.mpr ⟨blank, gapBlank⟩) nonempty solid stops more

/-- A run without blanks in front of a break is a word of its own unless it is empty. -/
theorem Separated.append_of_solid {word rest : List Char} {words : List (List Char)}
    (solid : ∀ c ∈ word, isBlank c = false) (stops : AtBreak rest)
    (layout : Separated rest words)
    : Separated (word ++ rest) (if word.isEmpty then words else word :: words) := by
  cases word with
  | nil => exact layout
  | cons c word =>
      exact @Separated.word [] (c :: word) rest words (by simp) (by simp) solid stops layout

/-- The run in front and the words behind it lay the text out, by induction on the text. -/
theorem separated_splitWord (text : List Char)
    : ∃ rest,
        (splitWord text).1 ++ rest = text
        ∧ AtBreak rest
        ∧ Separated rest (splitWord text).2 := by
  induction text with
  | nil => exact ⟨[], rfl, by simp [AtBreak], .blanks (by simp)⟩
  | cons c text ih =>
      obtain ⟨rest, split, stops, more⟩ := ih
      cases hc : isBlank c with
      | false =>
          refine ⟨rest, ?_, stops, ?_⟩
          · simpa only [splitWord, hc, Bool.false_eq_true, if_false, List.cons_append]
              using congrArg (List.cons c) split
          · simpa only [splitWord, hc, Bool.false_eq_true, if_false] using more
      | true =>
          have solid := (not_blank_of_mem_splitWord text).1
          have layout := more.append_of_solid solid stops
          rw [split] at layout
          refine ⟨c :: text, by simp [splitWord, hc], by simp [AtBreak, hc], ?_⟩
          simpa only [splitWord, hc, if_true] using layout.cons_blank hc

theorem separated_wordsOf (text : List Char) : Separated text (wordsOf text) := by
  obtain ⟨rest, split, stops, more⟩ := separated_splitWord text
  have layout := more.append_of_solid (not_blank_of_mem_splitWord text).1 stops
  rw [split] at layout
  exact layout

/-- The layouts of a text are those of its words. -/
theorem separated_iff {text : List Char} {words : List (List Char)}
    : Separated text words ↔ wordsOf text = words :=
  ⟨Separated.wordsOf_eq, fun same => same ▸ separated_wordsOf text⟩

/-- The texts are the words of the line, in order. -/
def AreWords (line : String) (tokens : List String) : Prop :=
  Separated line.toList (tokens.map String.toList)

/-- The texts that are the words of a line are the words that reading finds. -/
theorem areWords_iff {line : String} {tokens : List String}
    : AreWords line tokens ↔ words line = tokens := by
  rw [AreWords, separated_iff, words]
  constructor
  · intro same
    simp [same]
  · rintro rfl
    simp

-----------------------------------------------------------------------------------------
-- Words across a break
-----------------------------------------------------------------------------------------

/-- The text is empty, or its last character is blank. -/
def EndsAtBreak (text : List Char) : Prop :=
  ∀ c ∈ text.getLast?, isBlank c = true

/-- A blank ends the layout in front of it, by induction on that layout. -/
theorem Separated.append_cons_blank {front back : List Char} {words : List (List Char)}
    {c : Char} (blank : isBlank c = true) (layout : Separated front words)
    : Separated (front ++ c :: back) (words ++ wordsOf back) := by
  have behind : Separated (c :: back) (wordsOf back) := (separated_wordsOf back).cons_blank blank
  induction layout with
  | @blanks gap gapBlank =>
      rw [separated_iff, wordsOf_append_of_blank gapBlank]
      exact behind.wordsOf_eq
  | @word gap word rest words gapBlank nonempty solid stops _ ih =>
      have stops' : AtBreak (rest ++ c :: back) := by
        cases rest with
        | nil => simpa [AtBreak] using blank
        | cons d rest => exact stops
      rw [List.append_assoc (gap ++ word)]
      exact .word gapBlank nonempty solid stops' ih

theorem wordsOf_append_cons_blank {c : Char} (blank : isBlank c = true)
    (front back : List Char)
    : wordsOf (front ++ c :: back) = wordsOf front ++ wordsOf back :=
  ((separated_wordsOf front).append_cons_blank blank).wordsOf_eq

/-- A word behind a break is one more word of the text. -/
theorem wordsOf_append_of_solid {before word : List Char} (ends : EndsAtBreak before)
    (nonempty : word ≠ []) (solid : ∀ c ∈ word, isBlank c = false)
    : wordsOf (before ++ word) = wordsOf before ++ [word] := by
  have alone : wordsOf word = [word] := by
    have split := @splitWord_append_of_solid word [] solid (by simp [AtBreak])
    rw [List.append_nil] at split
    simp [wordsOf, split, nonempty, splitWord]
  rcases List.eq_nil_or_concat before with rfl | ⟨front, c, rfl⟩
  · simpa [wordsOf, splitWord] using alone
  · have blank : isBlank c = true := ends c (by simp)
    rw [List.concat_eq_append, List.append_assoc, List.singleton_append,
      wordsOf_append_cons_blank blank, wordsOf_append_cons_blank blank, alone]
    simp [wordsOf, splitWord]

-----------------------------------------------------------------------------------------
-- The last run
-----------------------------------------------------------------------------------------

/-- The run without blanks that the text ends in, possibly empty. -/
def lastRun (text : List Char) : List Char :=
  (text.reverse.takeWhile fun c => !isBlank c).reverse

/-- The text in front of its last run. -/
def beforeRun (text : List Char) : List Char :=
  text.take (text.length - (lastRun text).length)

theorem beforeRun_eq (text : List Char)
    : beforeRun text = (text.reverse.dropWhile fun c => !isBlank c).reverse := by
  have parts := List.takeWhile_append_dropWhile (p := fun c => !isBlank c) (l := text.reverse)
  have whole : text = (text.reverse.dropWhile fun c => !isBlank c).reverse ++ lastRun text := by
    rw [lastRun, ← List.reverse_append, parts, List.reverse_reverse]
  have size := congrArg List.length whole
  rw [List.length_append] at size
  rw [beforeRun, size, Nat.add_sub_cancel]
  exact (congrArg (List.take _) whole).trans List.take_left

theorem beforeRun_append_lastRun (text : List Char) : beforeRun text ++ lastRun text = text := by
  rw [beforeRun_eq, lastRun, ← List.reverse_append, List.takeWhile_append_dropWhile,
    List.reverse_reverse]

theorem not_isBlank_of_mem_lastRun {text : List Char} {c : Char} (member : c ∈ lastRun text)
    : isBlank c = false := by
  have solid := List.mem_takeWhile_imp (List.mem_reverse.mp member)
  simpa using solid

theorem endsAtBreak_beforeRun (text : List Char) : EndsAtBreak (beforeRun text) := by
  intro c last
  rw [beforeRun_eq, List.getLast?_reverse] at last
  have stopped := List.head?_dropWhile_not (fun c => !isBlank c) text.reverse
  rw [Option.mem_def.mp last] at stopped
  simpa using stopped

/-- The last run is empty exactly behind a break. -/
theorem lastRun_eq_nil_iff {text : List Char} : lastRun text = [] ↔ EndsAtBreak text := by
  constructor
  · intro empty
    have ends := endsAtBreak_beforeRun text
    have whole := beforeRun_append_lastRun text
    rw [empty, List.append_nil] at whole
    rwa [whole] at ends
  · intro ends
    by_contra filled
    have last := List.getLast?_eq_some_getLast filled
    have whole := congrArg List.getLast? (beforeRun_append_lastRun text)
    rw [List.getLast?_append, last, Option.some_or] at whole
    have solid := not_isBlank_of_mem_lastRun (List.getLast_mem filled)
    rw [ends _ whole.symm] at solid
    cases solid

/-- Unless a text ends at a break, its last run is its last word. -/
theorem getLast?_wordsOf {text : List Char} (inside : ¬ EndsAtBreak text)
    : (wordsOf text).getLast? = some (lastRun text) := by
  have filled : lastRun text ≠ [] := fun empty => inside (lastRun_eq_nil_iff.mp empty)
  have more := wordsOf_append_of_solid (endsAtBreak_beforeRun text) filled
    fun c member => not_isBlank_of_mem_lastRun member
  rw [beforeRun_append_lastRun] at more
  rw [more, List.getLast?_append]
  rfl

-----------------------------------------------------------------------------------------
-- Trimming
-----------------------------------------------------------------------------------------

/-- Only blanks stand around the inner text, which neither begins nor ends with one. -/
structure Trims (text inner : String) : Prop where
  around
    : ∃ front back,
        text.toList = front ++ inner.toList ++ back
        ∧ (∀ c ∈ front, isBlank c = true)
        ∧ ∀ c ∈ back, isBlank c = true
  starts : ∀ c ∈ inner.toList.head?, isBlank c = false
  ends : ∀ c ∈ inner.toList.getLast?, isBlank c = false

theorem starts_trimStart (text : List Char)
    : ∀ c ∈ (trimStart text).head?, isBlank c = false := by
  intro c first
  have solid := List.head?_dropWhile_not isBlank text
  rw [show (text.dropWhile isBlank).head? = some c from first] at solid
  exact solid

theorem trimStart_eq_self {text : List Char} (starts : ∀ c ∈ text.head?, isBlank c = false)
    : trimStart text = text := by
  cases text with
  | nil => rfl
  | cons c rest => simp [trimStart, starts c rfl]

/-- Blanks in front are dropped, up to a text that does not begin with one. An empty text
begins with none, but lets the blanks behind it be dropped too.
-/
theorem trimStart_around {front inner back : List Char} (blank : ∀ c ∈ front, isBlank c = true)
    (starts : ∀ c ∈ inner.head?, isBlank c = false) (nonempty : inner ≠ [])
    : trimStart (front ++ inner ++ back) = inner ++ back := by
  obtain ⟨c, rest, rfl⟩ := List.exists_cons_of_ne_nil nonempty
  rw [List.append_assoc, trimStart, List.dropWhile_append_of_pos blank]
  exact trimStart_eq_self starts

/-- Trimming finds the inner text: from the front, and from the back in the reversed text. -/
theorem Trims.trimmed_eq {text inner : String} (trims : Trims text inner)
    : trimmed text = inner := by
  obtain ⟨front, back, whole, frontBlank, backBlank⟩ := trims.around
  apply String.toList_inj.mp
  rw [trimmed, String.toList_ofList, whole]
  by_cases empty : inner.toList = []
  · have blank : ∀ c ∈ front ++ inner.toList ++ back, isBlank c = true := by
      simpa [empty, or_imp, forall_and] using And.intro frontBlank backBlank
    have none : trimStart (front ++ inner.toList ++ back) = [] :=
      List.dropWhile_eq_nil_iff.mpr blank
    rw [none, empty]
    rfl
  · have startsReversed : ∀ c ∈ inner.toList.reverse.head?, isBlank c = false := by
      rw [List.head?_reverse]
      exact trims.ends
    calc (trimStart (trimStart (front ++ inner.toList ++ back)).reverse).reverse
        = (trimStart (back.reverse ++ inner.toList.reverse ++ [])).reverse := by
          rw [trimStart_around frontBlank trims.starts empty, List.reverse_append,
            List.append_nil]
      _ = (inner.toList.reverse ++ []).reverse := by
          rw [trimStart_around (by simpa using backBlank) startsReversed (by simpa using empty)]
      _ = inner.toList := by
          rw [List.append_nil, List.reverse_reverse]

theorem trims_trimmed (text : String) : Trims text (trimmed text) := by
  let middle := trimStart text.toList
  have inner : (trimmed text).toList = middle.rdropWhile isBlank := String.toList_ofList
  refine ⟨⟨text.toList.takeWhile isBlank, middle.rtakeWhile isBlank, ?_, ?_, ?_⟩, ?_, ?_⟩
  · rw [inner, List.append_assoc, List.rdropWhile_append_rtakeWhile]
    exact List.takeWhile_append_dropWhile.symm
  · exact fun c => List.mem_takeWhile_imp
  · exact fun c => List.mem_rtakeWhile_imp
  · -- what is dropped at the end leaves the beginning
    obtain ⟨back, whole⟩ := List.rdropWhile_prefix isBlank middle
    intro c first
    rw [inner] at first
    apply starts_trimStart text.toList c
    change c ∈ middle.head?
    rw [← whole, List.head?_append, Option.mem_def.mp first]
    rfl
  · rw [inner, List.rdropWhile, List.getLast?_reverse]
    exact starts_trimStart _

end GraphShell.Text
