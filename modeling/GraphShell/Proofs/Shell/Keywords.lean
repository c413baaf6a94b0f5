import GraphShell.Proofs.Text.Lowercase
import GraphShell.Proofs.Text.Words
import GraphShell.Shell.Session

/-! A line that has been brought to single spaces and small keywords has the same words as
before, but for the case of the first two.
-/

namespace GraphShell

namespace Text

/-- The text is a word: it has a character, and none of its characters is blank. -/
def IsWord (text : String) : Prop :=
  text.toList ≠ [] ∧ ∀ c ∈ text.toList, isBlank c = false

-- over the characters of the text, not over all that there are
instance (text : String) : Decidable (IsWord text) :=
  decidable_of_iff (text.toList ≠ [] ∧ text.toList.any isBlank = false) (by simp [IsWord])

theorem isWord_of_mem_words {line word : String} (member : word ∈ words line)
    : IsWord word := by
  obtain ⟨content, found, rfl⟩ := List.mem_map.mp member
  have solid := not_blank_of_mem_splitWord line.toList
  rw [IsWord, String.toList_ofList]
  unfold wordsOf at found
  dsimp only at found
  split at found
  · exact ⟨ne_nil_of_mem_splitWord found, solid.2 content found⟩
  · next filled =>
      rcases List.mem_cons.mp found with rfl | later
      · exact ⟨by simpa using filled, solid.1⟩
      · exact ⟨ne_nil_of_mem_splitWord later, solid.2 content later⟩

theorem IsWord.lower {text : String} (word : IsWord text) : IsWord (Text.lower text) := by
  rw [IsWord, Text.lower, String.toList_ofList]
  exact ⟨lowerBehind_ne_nil word.1, fun d member => not_isBlank_of_mem_lowerBehind word.2 member⟩

/-- Words joined by single spaces are laid out as these words, by induction on them. -/
theorem separated_intercalate {words : List (List Char)}
    (each : ∀ word ∈ words, word ≠ [] ∧ ∀ c ∈ word, isBlank c = false)
    : Separated ([' '].intercalate words) words := by
  induction words with
  | nil => exact .blanks (by simp)
  | cons first rest ih =>
      obtain ⟨nonempty, solid⟩ := each first List.mem_cons_self
      have later := ih fun word member => each word (List.mem_cons_of_mem _ member)
      cases rest with
      | nil =>
          have end_ := @Separated.word [] first [] [] (by simp) nonempty solid
            (by simp [AtBreak]) later
          simpa using end_
      | cons second rest =>
          have spaced : Separated (' ' :: [' '].intercalate (second :: rest)) (second :: rest) :=
            later.cons_blank rfl
          have whole := @Separated.word [] first _ _ (by simp) nonempty solid
            (by simp [AtBreak, isBlank]) spaced
          simpa [List.intercalate_cons_cons] using whole

theorem words_intercalate {tokens : List String} (each : ∀ token ∈ tokens, IsWord token)
    : words (" ".intercalate tokens) = tokens := by
  refine areWords_iff.mp ?_
  rw [AreWords, String.toList_intercalate]
  refine separated_intercalate ?_
  intro word member
  obtain ⟨token, listed, rfl⟩ := List.mem_map.mp member
  exact each token listed

end Text

namespace Shell

/-- The words of a normalized line are those of the line, the first two in lower case. -/
theorem words_normalize (line : String)
    : Text.words (normalize line) = lowerKeywords (Text.words line) := by
  refine Text.words_intercalate ?_
  have each (word : String) (member : word ∈ Text.words line) : Text.IsWord word :=
    Text.isWord_of_mem_words member
  intro token member
  cases words : Text.words line with
  | nil => simp [lowerKeywords, words] at member
  | cons verb rest =>
      rw [words] at each member
      cases rest with
      | nil =>
          obtain rfl := List.mem_singleton.mp member
          exact (each verb (by simp)).lower
      | cons objective rest =>
          rcases List.mem_cons.mp member with rfl | member
          · exact (each verb (by simp)).lower
          · rcases List.mem_cons.mp member with rfl | later
            · exact (each objective (by simp)).lower
            · exact each token (by simp [later])

/-- The rule by position: of the words in order, the first two are lowered. -/
theorem lowerKeywords_eq_mapIdx (words : List String)
    : lowerKeywords words
      = words.mapIdx fun index word => if index < 2 then Text.lower word else word := by
  apply List.ext_getElem?
  intro index
  rw [List.getElem?_mapIdx]
  have third (index : Nat) : ¬ index + 1 + 1 < 2 := by omega
  rcases words with _ | ⟨verb, _ | ⟨objective, rest⟩⟩ <;> rcases index with _ | _ | index <;>
    simp [lowerKeywords, third]

theorem lowerKeywords_lowerKeywords (words : List String)
    : lowerKeywords (lowerKeywords words) = lowerKeywords words := by
  rcases words with _ | ⟨verb, _ | ⟨objective, rest⟩⟩ <;> simp [lowerKeywords, Text.lower_lower]

/-- Normalizing a line keeps its words apart and in order, lowers the first two, and leaves every
key and value as it is. Normalizing it again changes nothing.
-/
theorem normalize_keeps_words (line : String)
    : Text.words (normalize line)
        = (Text.words line).mapIdx (fun index word => if index < 2 then Text.lower word else word)
      ∧ normalize (normalize line) = normalize line := by
  refine ⟨(words_normalize line).trans (lowerKeywords_eq_mapIdx _), ?_⟩
  calc normalize (normalize line)
      = " ".intercalate (lowerKeywords (Text.words (normalize line))) := rfl
    _ = " ".intercalate (lowerKeywords (lowerKeywords (Text.words line))) := by
        rw [words_normalize]
    _ = normalize line := by rw [lowerKeywords_lowerKeywords, normalize]

end Shell

end GraphShell
