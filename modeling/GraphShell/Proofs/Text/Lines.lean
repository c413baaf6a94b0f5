import GraphShell.Text.Splitting
import Mathlib.Data.List.Basic

/-! The lines of a byte stream are told by its layout: each but the last ends at a line feed, and
none has one inside. Bytes that are a text can be cut at a line feed, as no character but the
line feed itself has its byte.
-/

namespace GraphShell.Text

-----------------------------------------------------------------------------------------
-- Layout of a stream
-----------------------------------------------------------------------------------------

/-- The stream consists of the lines in order, each in front of a line feed, with a carriage
return between the two if there is one; only the last line may miss its line feed.
-/
inductive Lined : List UInt8 → List (List UInt8) → Prop
  | last {line} (solid : 10 ∉ line) : Lined line (if line.isEmpty then [] else [line])
  | line {line rest lines} (solid : 10 ∉ line) (more : Lined rest lines)
    : Lined (line ++ 10 :: rest) (dropReturn line :: lines)

variable {line front back bytes : List UInt8} {lines : List (List UInt8)}

theorem splitLines_of_solid (solid : 10 ∉ line) : splitLines line = (line, []) := by
  induction line with
  | nil => rfl
  | cons byte line ih =>
      obtain ⟨differs, later⟩ := not_or.mp (List.mem_cons.not.mp solid)
      simp [splitLines, ih later, Ne.symm differs]

theorem splitLines_append (solid : 10 ∉ line) (rest : List UInt8)
    : splitLines (line ++ 10 :: rest) = (line, (splitLines rest).1 :: (splitLines rest).2) := by
  induction line with
  | nil => rfl
  | cons byte line ih =>
      obtain ⟨differs, later⟩ := not_or.mp (List.mem_cons.not.mp solid)
      simp [splitLines, ih later, Ne.symm differs]

theorem byteLines_append_of_solid (solid : 10 ∉ line) (rest : List UInt8)
    : byteLines (line ++ 10 :: rest) = dropReturn line :: byteLines rest := by
  unfold byteLines
  rw [splitLines_append solid]
  -- both sides look at the last of the pieces of the rest
  rcases List.eq_nil_or_concat (splitLines rest).2 with none | ⟨pieces, last, some⟩
  · simp [none]
  · simp [some]

/-- A layout determines the lines. -/
theorem Lined.byteLines_eq (layout : Lined bytes lines) : byteLines bytes = lines := by
  induction layout with
  | last solid => simp [byteLines, splitLines_of_solid solid]
  | line solid _ ih => rw [byteLines_append_of_solid solid, ih]

/-- Every stream has a layout, by induction on its length. -/
theorem lined_byteLines (bytes : List UInt8) : Lined bytes (byteLines bytes) := by
  induction measure : bytes.length using Nat.strongRecOn generalizing bytes with
  | ind size ih =>
      by_cases member : 10 ∈ bytes
      · obtain ⟨line, rest, rfl, solid⟩ := List.eq_append_cons_of_mem member
        have shorter : rest.length < size := by
          rw [← measure, List.length_append, List.length_cons]
          omega
        rw [byteLines_append_of_solid solid]
        exact .line solid (ih rest.length shorter rest rfl)
      · have layout := Lined.last member
        rwa [← layout.byteLines_eq] at layout

/-- No line is cut in two at the end of the stream: it is empty or ends with a line feed. -/
def EndsLine (bytes : List UInt8) : Prop :=
  bytes = [] ∨ ∃ front, bytes = front ++ [10]

theorem EndsLine.rest {rest : List UInt8} (ends : EndsLine (line ++ 10 :: rest))
    : EndsLine rest := by
  rcases List.eq_nil_or_concat rest with rfl | ⟨front, last, rfl⟩
  · exact .inl rfl
  · obtain ⟨start, same⟩ := ends.resolve_left (by simp)
    rw [List.concat_eq_append, ← List.cons_append, ← List.append_assoc] at same
    exact .inr ⟨front, by simp [List.append_inj_right' same rfl]⟩

/-- The lines of a stream that goes on behind the end of a line are those of both parts, by
induction on the layout of the first one.
-/
theorem byteLines_append (ends : EndsLine front) (back : List UInt8)
    : byteLines (front ++ back) = byteLines front ++ byteLines back := by
  have layout := lined_byteLines front
  generalize byteLines front = lines at layout
  induction layout with
  | @last line solid =>
      rcases ends with rfl | ⟨start, rfl⟩
      · rfl
      · simp at solid
  | line solid _ ih =>
      rw [List.append_assoc, List.cons_append, byteLines_append_of_solid solid, ih ends.rest]
      rfl

-----------------------------------------------------------------------------------------
-- Texts
-----------------------------------------------------------------------------------------

/-- Bytes are decoded as a text exactly if they are what its characters are encoded as. -/
theorem decode?_eq_some_iff {text : String}
    : decode? bytes = some text ↔ bytes = text.toList.flatMap String.utf8EncodeChar := by
  have decoded : decode? bytes = some text ↔ text.toByteArray = ⟨bytes.toArray⟩ := by
    unfold decode? String.fromUTF8?
    split
    · constructor
      · rintro ⟨⟩
        rfl
      · intro same
        exact congrArg some (String.toByteArray_inj.mp same.symm)
    · next invalid =>
        refine ⟨nofun, fun same => absurd ?_ invalid⟩
        exact same ▸ text.isValidUTF8
  have encoded := String.toByteArray_ofList (l := text.toList)
  rw [String.ofList_toList] at encoded
  rw [decoded, encoded, List.utf8Encode]
  constructor
  · intro same
    have data := congrArg (fun array : ByteArray => array.data.toList) same
    simpa using data.symm
  · rintro rfl
    exact ByteArray.ext (by simp)

/-- The bytes are those of a text. -/
def IsText (bytes : List UInt8) : Prop :=
  ∃ text, decode? bytes = some text

theorem isText_iff
    : IsText bytes ↔ ∃ chars : List Char, bytes = chars.flatMap String.utf8EncodeChar := by
  simp only [IsText, decode?_eq_some_iff]
  constructor
  · rintro ⟨text, same⟩
    exact ⟨text.toList, same⟩
  · rintro ⟨chars, same⟩
    exact ⟨String.ofList chars, by rwa [String.toList_ofList]⟩

theorem IsText.append (left : IsText front) (right : IsText back) : IsText (front ++ back) := by
  obtain ⟨first, rfl⟩ := isText_iff.mp left
  obtain ⟨second, rfl⟩ := isText_iff.mp right
  exact isText_iff.mpr ⟨first ++ second, List.flatMap_append.symm⟩

/-- A byte below 128 stands for a character on its own. -/
theorem utf8EncodeChar_eq_of_mem {c : Char} {byte : UInt8}
    (member : byte ∈ String.utf8EncodeChar c) (ascii : byte < 0x80)
    : String.utf8EncodeChar c = [byte] := by
  have code := UInt8.lt_iff_toNat_lt.mp ascii
  unfold String.utf8EncodeChar at member ⊢
  dsimp only at member ⊢
  split_ifs at member ⊢
  · exact congrArg (fun byte => [byte]) (List.mem_singleton.mp member).symm
  all_goals
    simp only [List.mem_cons, List.not_mem_nil, or_false] at member
    exfalso
    rcases member with rfl | rfl | rfl | rfl <;> simp at code <;> omega

/-- A text can be cut at a byte below 128, by induction on its characters. -/
theorem IsText.split {byte : UInt8} (ascii : byte < 0x80) (text : IsText (front ++ byte :: back))
    : IsText front ∧ IsText back := by
  obtain ⟨chars, same⟩ := isText_iff.mp text
  clear text
  induction chars generalizing front with
  | nil => simp at same
  | cons c chars ih =>
      have encoded : IsText (String.utf8EncodeChar c) := isText_iff.mpr ⟨[c], by simp⟩
      have others : IsText (chars.flatMap String.utf8EncodeChar) := isText_iff.mpr ⟨chars, rfl⟩
      rw [List.flatMap_cons, List.append_eq_append_iff] at same
      rcases same with ⟨inner, whole, rest⟩ | ⟨inner, rfl, rest⟩
      · cases inner with
        | nil =>
            -- the character ends in front of the byte
            rw [List.append_nil] at whole
            exact ⟨whole ▸ encoded, (@ih [] rest).2⟩
        | cons first inner =>
            -- the character has the byte, and is nothing else
            obtain ⟨rfl, behind⟩ := List.cons.inj rest
            have member : byte ∈ String.utf8EncodeChar c := by simp [whole]
            have alone := utf8EncodeChar_eq_of_mem member ascii
            rw [whole, List.append_eq_singleton_iff] at alone
            simp only [List.cons_ne_nil, and_false, or_false, List.cons.injEq] at alone
            obtain ⟨rfl, -, rfl⟩ := alone
            exact ⟨isText_iff.mpr ⟨[], rfl⟩, behind ▸ others⟩
      · obtain ⟨later, behind⟩ := ih rest.symm
        exact ⟨encoded.append later, behind⟩

/-- What is in front of the end of a line of a text, and what is behind it, are texts. -/
theorem IsText.cut (ends : EndsLine front) (text : IsText (front ++ back))
    : IsText front ∧ IsText back := by
  rcases ends with rfl | ⟨start, rfl⟩
  · exact ⟨isText_iff.mpr ⟨[], rfl⟩, text⟩
  · rw [List.append_assoc] at text
    obtain ⟨first, behind⟩ := text.split (by decide)
    exact ⟨first.append (isText_iff.mpr ⟨['\n'], rfl⟩), behind⟩

/-- The lines of a text are texts. -/
theorem IsText.of_mem_byteLines (text : IsText bytes) : ∀ line ∈ byteLines bytes, IsText line := by
  have layout := lined_byteLines bytes
  generalize byteLines bytes = lines at layout
  induction layout with
  | last solid =>
      intro line member
      split at member
      · cases member
      · exact List.mem_singleton.mp member ▸ text
  | @line line rest lines solid _ ih =>
      obtain ⟨first, behind⟩ := text.split (by decide)
      refine List.forall_mem_cons.mpr ⟨?_, ih behind⟩
      unfold dropReturn
      split
      · next returns =>
          obtain ⟨start, rfl⟩ := List.getLast?_eq_some_iff.mp returns
          rw [List.dropLast_concat]
          have ended : IsText (start ++ 13 :: []) := first
          exact (ended.split (by decide)).1
      · exact first

end GraphShell.Text
