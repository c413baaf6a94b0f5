import GraphShell.Proofs.Command.Grammar
import GraphShell.Proofs.Shell.Keywords
import GraphShell.Proofs.Text.Words

/-! The keywords offered for the word that is being edited are those with which the line in
front of the cursor would be read as far as it goes: as a verb or the end of the session, or
as the two words of a route.
-/

namespace GraphShell.Shell

-----------------------------------------------------------------------------------------
-- The line in front of the cursor
-----------------------------------------------------------------------------------------

/-- The line in front of a byte offset, or all of it if no character of it starts or ends
there.
-/
def IsHead (line : String) (offset : Nat) (head : String) : Prop :=
  (∃ rest, line = head ++ rest ∧ head.utf8ByteSize = offset)
    ∨ head = line ∧ ¬ ∃ front rest, line = front ++ rest ∧ front.utf8ByteSize = offset

/-- The word that a text ends in, or no word at all behind a blank. -/
def IsUnfinished (head unfinished : String) : Prop :=
  (Text.EndsAtBreak head.toList → unfinished = "")
    ∧ (¬ Text.EndsAtBreak head.toList → (Text.words head).getLast? = some unfinished)

theorem utf8ByteSize_ofList_cons (c : Char) (text : List Char)
    : (String.ofList (c :: text)).utf8ByteSize
      = c.utf8Size + (String.ofList text).utf8ByteSize := by
  rw [String.ofList_cons, String.utf8ByteSize_append, String.utf8ByteSize_singleton]

/-- The bytes of a prefix are taken as that prefix, by induction on it. -/
theorem takeBytes?_append (front rest : List Char)
    : takeBytes? (front ++ rest) (String.ofList front).utf8ByteSize = some front := by
  induction front with
  | nil => cases rest <;> rfl
  | cons c front ih =>
      have wide := c.utf8Size_pos
      obtain ⟨size, sum⟩ : ∃ size, c.utf8Size + (String.ofList front).utf8ByteSize = size + 1 :=
        Nat.exists_eq_add_one_of_ne_zero (by omega)
      have fits : ¬ size + 1 < c.utf8Size := by omega
      rw [utf8ByteSize_ofList_cons, sum, List.cons_append, takeBytes?, if_neg fits, ← sum,
        Nat.add_sub_cancel_left, ih]
      rfl

/-- What is taken is a prefix of the number of bytes, by induction as they are taken. -/
theorem parts_of_takeBytes? {text front : List Char} {size : Nat}
    (taken : takeBytes? text size = some front)
    : ∃ rest, text = front ++ rest ∧ (String.ofList front).utf8ByteSize = size := by
  fun_induction takeBytes? text size generalizing front with
  | case1 text =>
      obtain rfl := Option.some.inj taken
      exact ⟨text, rfl, rfl⟩
  | case2 size => cases taken
  | case3 c rest size short => cases taken
  | case4 c rest size fits ih =>
      obtain ⟨front, found, rfl⟩ := Option.map_eq_some_iff.mp taken
      obtain ⟨later, rfl, bytes⟩ := ih found
      refine ⟨later, rfl, ?_⟩
      rw [utf8ByteSize_ofList_cons, bytes]
      omega

theorem isHead_takeBytes? (line : String) (offset : Nat)
    : IsHead line offset (String.ofList ((takeBytes? line.toList offset).getD line.toList)) := by
  cases found : takeBytes? line.toList offset with
  | some front =>
      obtain ⟨rest, parts, bytes⟩ := parts_of_takeBytes? found
      refine .inl ⟨String.ofList rest, ?_, bytes⟩
      rw [Option.getD_some, ← String.ofList_append, ← parts, String.ofList_toList]
  | none =>
      refine .inr ⟨by simp, ?_⟩
      intro split
      obtain ⟨front, rest, rfl, rfl⟩ := split
      have taken := takeBytes?_append front.toList rest.toList
      rw [String.ofList_toList, ← String.toList_append, found] at taken
      cases taken

-----------------------------------------------------------------------------------------
-- The keywords
-----------------------------------------------------------------------------------------

/-- The words are a verb or the end of the session alone, or the two words of a route. -/
def AreKeywords (tokens : List String) : Prop :=
  (∃ token, tokens = [token] ∧ (token = exitWord ∨ (Verb.ofWord? token).isSome))
    ∨ tokens.length = 2
      ∧ ∃ route after, outcome Route.read (.ofTokens tokens) = (.ok route, after)

theorem areKeywords_singleton {token : String}
    : AreKeywords [token] ↔ token = exitWord ∨ ∃ verb : Verb, token = verb.word := by
  simp [AreKeywords, Option.isSome_iff_exists, Verb.ofWord?_eq_some_iff]

theorem areKeywords_pair {first second : String}
    : AreKeywords [first, second]
      ↔ ∃ route : Route, first = route.verb.word ∧ second = route.objective.word := by
  simp [AreKeywords, Route.outcome_read_ok, Cursor.ofTokens]

/-- A small word is offered behind others exactly if it makes keywords of them all. -/
theorem mem_keywordsBehind_iff {before : List String} {token : String}
    (small : Text.lower token = token)
    : token ∈ keywordsBehind before ↔ AreKeywords (lowerKeywords (before ++ [token])) := by
  match before with
  | [] =>
      have alone : lowerKeywords ([] ++ [token]) = [token] := by simp [lowerKeywords, small]
      rw [alone, areKeywords_singleton]
      simp [keywordsBehind, Verb.mem_all, eq_comm, or_comm]
  | [first] =>
      have pair : lowerKeywords ([first] ++ [token]) = [Text.lower first, token] := by
        simp [lowerKeywords, small]
      rw [pair, areKeywords_pair, keywordsBehind]
      constructor
      · intro offered
        cases named : Verb.ofWord? (Text.lower first) with
        | none => simp [named] at offered
        | some verb =>
            rw [named, Option.elim_some] at offered
            obtain ⟨objective, taken, rfl⟩ := List.mem_map.mp offered
            obtain ⟨route, rfl, rfl⟩ := Verb.mem_objectives_iff.mp taken
            exact ⟨route, Verb.ofWord?_eq_some_iff.mp named, rfl⟩
      · intro keywords
        obtain ⟨route, named, rfl⟩ := keywords
        rw [Verb.ofWord?_eq_some_iff.mpr named, Option.elim_some]
        exact List.mem_map_of_mem (Verb.mem_objectives_iff.mpr ⟨route, rfl, rfl⟩)
  | first :: second :: more => simp [lowerKeywords, keywordsBehind, AreKeywords]

/-- The keywords in their order: those that open a line, or those behind one verb. -/
def IsTable (keywords : List String) : Prop :=
  keywords = Verb.all.map Verb.word ++ [exitWord]
    ∨ ∃ verb : Verb, keywords = verb.objectives.map Objective.word

theorem keywordsBehind_sublist (before : List String)
    : ∃ table, IsTable table ∧ (keywordsBehind before).Sublist table := by
  match before with
  | [] => exact ⟨_, .inl rfl, .refl _⟩
  | [first] =>
      rw [keywordsBehind]
      cases Verb.ofWord? (Text.lower first) with
      | none => exact ⟨_, .inl rfl, List.nil_sublist _⟩
      | some verb => exact ⟨_, .inr ⟨verb, rfl⟩, .refl _⟩
  | first :: second :: more => exact ⟨_, .inl rfl, List.nil_sublist _⟩

/-- The keywords of a table are different small words. -/
theorem IsTable.small {keywords : List String} (table : IsTable keywords)
    : keywords.Nodup ∧ ∀ token ∈ keywords, Text.IsWord token ∧ Text.lower token = token := by
  rcases table with rfl | ⟨verb, rfl⟩
  · decide +kernel
  · cases verb <;> decide +kernel

-----------------------------------------------------------------------------------------
-- Completion
-----------------------------------------------------------------------------------------

/-- The last run of a text is its unfinished word. -/
theorem isUnfinished_lastRun (head : List Char)
    : IsUnfinished (String.ofList head) (String.ofList (Text.lastRun head)) := by
  rw [IsUnfinished, String.toList_ofList]
  constructor
  · intro ends
    rw [Text.lastRun_eq_nil_iff.mpr ends, String.ofList_nil]
  · intro inside
    rw [Text.words, List.getLast?_map, String.toList_ofList, Text.getLast?_wordsOf inside]
    rfl

theorem words_append_of_isWord {before token : String}
    (ends : Text.EndsAtBreak before.toList) (word : Text.IsWord token)
    : Text.words (before ++ token) = Text.words before ++ [token] := by
  rw [Text.words, String.toList_append, Text.wordsOf_append_of_solid ends word.1 word.2]
  simp [Text.words]

/-- The last run of the line in front of the offset is what is to be completed. -/
theorem complete_eq (line : String) (offset : Nat)
    : ∃ head before unfinished : String,
        IsHead line offset head
        ∧ head = before ++ unfinished
        ∧ IsUnfinished head unfinished
        ∧ Text.EndsAtBreak before.toList
        ∧ complete line offset
          = (before.utf8ByteSize,
            (keywordsBehind (Text.words before)).filter fun token =>
              (Text.lower unfinished).toList.isPrefixOf token.toList) := by
  refine ⟨_, String.ofList (Text.beforeRun _), String.ofList (Text.lastRun _),
    isHead_takeBytes? line offset, ?_, isUnfinished_lastRun _, ?_, rfl⟩
  · rw [← String.ofList_append, Text.beforeRun_append_lastRun]
  · rw [String.toList_ofList]
    exact Text.endsAtBreak_beforeRun _

/-- Completion splits what stands in front of the offset at the beginning of its unfinished
word, and offers the small words, in the order of the keywords and each once, that extend the
lower case of that word and make keywords of the line up to them.
-/
theorem complete_offers_keywords (line : String) (offset : Nat)
    : ∃ head before unfinished : String,
        IsHead line offset head
        ∧ head = before ++ unfinished
        ∧ IsUnfinished head unfinished
        ∧ (complete line offset).1 = before.utf8ByteSize
        ∧ (∃ table, IsTable table ∧ (complete line offset).2.Sublist table)
        ∧ (complete line offset).2.Nodup
        ∧ ∀ token,
            token ∈ (complete line offset).2
            ↔ Text.IsWord token
              ∧ Text.lower token = token
              ∧ (Text.lower unfinished).toList <+: token.toList
              ∧ AreKeywords (Text.words (normalize (before ++ token))) := by
  obtain ⟨head, before, unfinished, isHead, parts, isUnfinished, ends, answer⟩ :=
    complete_eq line offset
  obtain ⟨table, isTable, within⟩ := keywordsBehind_sublist (Text.words before)
  have listed : (complete line offset).2.Sublist table := by
    rw [answer]
    exact List.filter_sublist.trans within
  refine ⟨head, before, unfinished, isHead, parts, isUnfinished, by rw [answer],
    ⟨table, isTable, listed⟩, isTable.small.1.sublist listed, ?_⟩
  intro token
  rw [answer, List.mem_filter, List.isPrefixOf_iff_prefix, words_normalize]
  constructor
  · intro offered
    obtain ⟨word, small⟩ := isTable.small.2 token (within.mem offered.1)
    rw [words_append_of_isWord ends word, ← mem_keywordsBehind_iff small]
    exact ⟨word, small, offered.2, offered.1⟩
  · intro fits
    obtain ⟨word, small, extended, keywords⟩ := fits
    rw [words_append_of_isWord ends word, ← mem_keywordsBehind_iff small] at keywords
    exact ⟨keywords, extended⟩

end GraphShell.Shell
