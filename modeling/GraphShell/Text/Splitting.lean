/-! Texts taken apart. Words are what stands between blank characters, which are those with the
Unicode property White_Space, so a line splits at ideographic and no-break spaces too. Pieces
stand between marks, every one or the first, and may be empty. The lines of a byte stream end
with a line feed, which takes a carriage return before it along; what follows the last line feed
is a line unless it is empty.
-/

namespace GraphShell.Text

-----------------------------------------------------------------------------------------
-- Words
-----------------------------------------------------------------------------------------

/-- The characters with the Unicode property White_Space. -/
def isBlank (c : Char) : Bool :=
  let n := c.toNat
  (9 ≤ n && n ≤ 13) || n == 0x20 || n == 0x85 || n == 0xA0 || n == 0x1680
    || (0x2000 ≤ n && n ≤ 0x200A) || n == 0x2028 || n == 0x2029 || n == 0x202F
    || n == 0x205F || n == 0x3000

/-- The run of characters before the first blank one, possibly empty, and the words behind
it.
-/
def splitWord : List Char → List Char × List (List Char)
  | [] => ([], [])
  | c :: rest =>
      let (word, more) := splitWord rest
      if isBlank c then ([], if word.isEmpty then more else word :: more)
      else (c :: word, more)

/-- The maximal runs of characters that are not blank, in order; none of them is empty. -/
def wordsOf (text : List Char) : List (List Char) :=
  let (word, more) := splitWord text
  if word.isEmpty then more else word :: more

/-- The words of a text. -/
def words (text : String) : List String :=
  (wordsOf text.toList).map String.ofList

/-- The text without the blanks it begins with. -/
def trimStart (text : List Char) : List Char :=
  text.dropWhile isBlank

/-- The text without the blanks at either end. -/
def trimmed (text : String) : String :=
  String.ofList (trimStart (trimStart text.toList).reverse).reverse

/-- No word is empty, by induction on the text. -/
theorem ne_nil_of_mem_splitWord {text word : List Char} (h : word ∈ (splitWord text).2)
    : word ≠ [] := by
  induction text with
  | nil => simp [splitWord] at h
  | cons c rest ih =>
      simp only [splitWord] at h
      split at h
      · split at h
        · exact ih h
        · rcases List.mem_cons.mp h with rfl | h
          · exact fun hn => by simp_all
          · exact ih h
      · exact ih h

/-- Words hold no blank character, by induction on the text. -/
theorem not_blank_of_mem_splitWord (text : List Char)
    : (∀ c ∈ (splitWord text).1, isBlank c = false)
      ∧ ∀ word ∈ (splitWord text).2, ∀ c ∈ word, isBlank c = false := by
  induction text with
  | nil => simp [splitWord]
  | cons c rest ih =>
      obtain ⟨first, more⟩ := ih
      cases hb : isBlank c with
      | true =>
          refine ⟨by simp [splitWord, hb], ?_⟩
          simp only [splitWord, hb, if_true]
          split
          · exact more
          · intro word hw
            rcases List.mem_cons.mp hw with rfl | hw
            · exact first
            · exact more word hw
      | false =>
          refine ⟨?_, by simpa [splitWord, hb] using more⟩
          simpa [splitWord, hb] using first

-----------------------------------------------------------------------------------------
-- Pieces
-----------------------------------------------------------------------------------------

/-- The piece in front of the first mark, and the pieces behind it. -/
def splitPiece (isMark : Char → Bool) : List Char → List Char × List (List Char)
  | [] => ([], [])
  | c :: rest =>
      let (piece, more) := splitPiece isMark rest
      if isMark c then ([], piece :: more) else (c :: piece, more)

/-- The pieces between marks, one more than there are marks. -/
def pieces (isMark : Char → Bool) (text : List Char) : List (List Char) :=
  let (piece, more) := splitPiece isMark text
  piece :: more

/-- The text in front of the first mark, and what stands behind the mark if there is one. -/
def cut (isMark : Char → Bool) : List Char → List Char × Option (List Char)
  | [] => ([], none)
  | c :: rest =>
      if isMark c then ([], some rest)
      else
        let (front, behind) := cut isMark rest
        (c :: front, behind)

/-- The text in front of the last mark, if there is a mark, and what stands behind it. -/
def cutLast (isMark : Char → Bool) (text : List Char) : Option (List Char) × List Char :=
  let (behind, front) := cut isMark text.reverse
  (front.map List.reverse, behind.reverse)

-----------------------------------------------------------------------------------------
-- Lines
-----------------------------------------------------------------------------------------

/-- The first line of a stream and the lines behind it; the first one is still open. -/
def splitLines : List UInt8 → List UInt8 × List (List UInt8)
  | [] => ([], [])
  | byte :: rest =>
      let (line, more) := splitLines rest
      if byte = 10 then ([], line :: more) else (byte :: line, more)

/-- The line without the carriage return at its end. -/
def dropReturn (line : List UInt8) : List UInt8 :=
  if line.getLast? = some 13 then line.dropLast else line

/-- The lines of a stream. A line whose end the stream leaves out keeps its carriage return. -/
def byteLines (bytes : List UInt8) : List (List UInt8) :=
  let (first, more) := splitLines bytes
  match (first :: more).reverse with
  | [] => []
  | last :: ended => (ended.map dropReturn).reverse ++ if last.isEmpty then [] else [last]

/-- The text of bytes, if they are UTF-8. -/
def decode? (bytes : List UInt8) : Option String :=
  String.fromUTF8? ⟨bytes.toArray⟩

/-- The lines of a text. -/
def lines (text : String) : List String :=
  (byteLines text.toUTF8.toList).filterMap decode?

end GraphShell.Text
