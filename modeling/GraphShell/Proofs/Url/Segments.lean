import GraphShell.Proofs.Url.Escapes
import GraphShell.Remote.Store

/-! The path of an address that has been read can be told from its text: its segments have no
mark of a path, so cutting the text at its slashes gives them back. Segments added behind them
are words in their written form, less those that are dots.
-/

namespace GraphShell

/-- Two steps succeed together only if the first does, and the second with its result. -/
theorem bind_eq_ok {ε α β : Type} {first : Except ε α} {next : α → Except ε β} {result : β}
    (succeeds : first >>= next = .ok result)
    : ∃ value, first = .ok value ∧ next value = .ok result := by
  cases first with
  | error cause => cases succeeds
  | ok value => exact ⟨value, rfl, succeeds⟩

-----------------------------------------------------------------------------------------
-- Texts cut at marks
-----------------------------------------------------------------------------------------

namespace Text

variable {isMark : Char → Bool} {c : Char} {text front piece : List Char}

theorem pieces_of_free (free : ∀ c ∈ text, isMark c = false) : pieces isMark text = [text] := by
  induction text with
  | nil => rfl
  | cons c text ih =>
      obtain ⟨first, others⟩ := List.forall_mem_cons.mp free
      have later := ih others
      simp only [pieces, List.cons.injEq] at later
      simp [pieces, splitPiece, first, later]

theorem pieces_append (free : ∀ c ∈ front, isMark c = false) (mark : isMark c = true)
    (rest : List Char)
    : pieces isMark (front ++ c :: rest) = front :: pieces isMark rest := by
  induction front with
  | nil => simp [pieces, splitPiece, mark]
  | cons d front ih =>
      obtain ⟨first, others⟩ := List.forall_mem_cons.mp free
      have later := ih others
      simp only [pieces, List.cons.injEq] at later
      simp [pieces, splitPiece, first, later]

/-- No piece has a mark, by induction on the text. -/
theorem free_of_mem_pieces (member : piece ∈ pieces isMark text)
    : ∀ c ∈ piece, isMark c = false := by
  induction text generalizing piece with
  | nil =>
      obtain rfl := List.mem_singleton.mp member
      simp
  | cons c text ih =>
      simp only [pieces, splitPiece] at member ih
      split at member
      · rcases List.mem_cons.mp member with rfl | member
        · simp
        · exact ih member
      · next plain =>
          rcases List.mem_cons.mp member with rfl | member
          · exact List.forall_mem_cons.mpr
              ⟨by simpa using plain, ih List.mem_cons_self⟩
          · exact ih (List.mem_cons_of_mem _ member)

theorem cut_of_free (free : ∀ c ∈ front, isMark c = false) : (cut isMark front).1 = front := by
  induction front with
  | nil => rfl
  | cons c front ih =>
      obtain ⟨first, others⟩ := List.forall_mem_cons.mp free
      simp [cut, first, ih others]

theorem cut_append (free : ∀ c ∈ front, isMark c = false) (mark : isMark c = true)
    (rest : List Char)
    : (cut isMark (front ++ c :: rest)).1 = front := by
  induction front with
  | nil => simp [cut, mark]
  | cons d front ih =>
      obtain ⟨first, others⟩ := List.forall_mem_cons.mp free
      simp [cut, first, ih others]

/-- The bytes of a text. -/
def utf8 (text : String) : List UInt8 :=
  text.toList.flatMap String.utf8EncodeChar

theorem utf8_inj {text other : String} : utf8 text = utf8 other ↔ text = other := by
  refine ⟨fun same => ?_, congrArg utf8⟩
  have decoded := decode?_eq_some_iff.mpr (rfl : utf8 text = _)
  rw [same, decode?_eq_some_iff.mpr (rfl : utf8 other = _)] at decoded
  exact (Option.some.inj decoded).symm

end Text

-----------------------------------------------------------------------------------------
-- Plain segments
-----------------------------------------------------------------------------------------

namespace UrlPath

variable {segment text : List Char} {segments raw : List (List Char)} {ofFile : Bool}

/-- The segment can be told in a path: it has no slash, and nothing that would end the path. -/
def IsPlain (segment : List Char) : Prop :=
  ∀ c ∈ segment, c ≠ '/' ∧ c ≠ '?' ∧ c ≠ '#'

/-- All segments of the path are plain, if it has segments. -/
def AllPlain (path : UrlPath) : Prop :=
  ∀ segments, path = .rooted segments → ∀ segment ∈ segments, IsPlain segment

theorem isPlain_nil : IsPlain [] :=
  nofun

/-- What is escaped is plain if slashes do not come up, and the other marks are escaped. -/
theorem isPlain_encode {escapes : Percent.Escapes} (query : escapes '?' = true)
    (fragment : escapes '#' = true) (slash : '/' ∈ text → escapes '/' = true)
    : IsPlain (Percent.encode escapes text) := by
  intro c member
  rcases Percent.mem_encode member with rfl | digit | ⟨source, plain⟩
  · decide
  · refine ⟨?_, ?_, ?_⟩ <;> rintro rfl <;> exact absurd digit (by decide)
  · refine ⟨?_, ?_, ?_⟩ <;> rintro rfl
    · simp [Percent.needsEscape, slash source] at plain
    · simp [Percent.needsEscape, query] at plain
    · simp [Percent.needsEscape, fragment] at plain

theorem isPlain_of_mem_place {added : List Char} {atEnd : Bool}
    (all : ∀ segment ∈ segments, IsPlain segment) (plain : IsPlain added)
    (member : segment ∈ place ofFile segments added atEnd)
    : IsPlain segment := by
  have atLast (ended : segment ∈ if atEnd then [[]] else []) : IsPlain segment := by
    split at ended
    · exact List.mem_singleton.mp ended ▸ isPlain_nil
    · cases ended
  have taken (member : segment ∈ parent ofFile segments) : segment ∈ segments := by
    unfold parent at member
    split at member
    · split at member
      · exact member
      · exact (List.dropLast_sublist _).subset member
    · cases member
  unfold place at member
  split at member
  · rcases List.mem_append.mp member with member | ended
    · exact all segment (taken member)
    · exact atLast ended
  · split at member
    · rcases List.mem_append.mp member with member | ended
      · exact all segment member
      · exact atLast ended
    · rcases List.mem_append.mp member with member | same
      · exact all segment member
      · exact List.mem_singleton.mp same ▸ plain

/-- Placing plain segments leaves plain ones, by induction along the raw ones. -/
theorem isPlain_of_mem_placeAll (all : ∀ segment ∈ segments, IsPlain segment)
    (others : ∀ segment ∈ raw, IsPlain segment)
    (member : segment ∈ placeAll ofFile segments raw)
    : IsPlain segment := by
  fun_induction placeAll ofFile segments raw with
  | case1 segments => exact all segment member
  | case2 segments last => exact isPlain_of_mem_place all (others last (by simp)) member
  | case3 segments first rest _ ih =>
      obtain ⟨plain, later⟩ := List.forall_mem_cons.mp others
      exact ih (fun _ => isPlain_of_mem_place all plain) later member

theorem isPlain_of_mem_read {takesBackslash : Bool}
    (member : segment ∈ read takesBackslash ofFile text)
    : IsPlain segment := by
  refine isPlain_of_mem_placeAll (by simp) ?_ member
  intro written listed
  obtain ⟨piece, found, rfl⟩ := List.mem_map.mp listed
  refine isPlain_encode rfl rfl fun slash => ?_
  have free := Text.free_of_mem_pieces found '/' slash
  simp at free

-----------------------------------------------------------------------------------------
-- Paths told from their texts
-----------------------------------------------------------------------------------------

/-- The segments that the text of a path spells: what is behind each slash, with its escapes
undone.
-/
def spelled (text : List Char) : List (List UInt8) :=
  ((Text.pieces (· = '/') text).drop 1).map Percent.decode

/-- The pieces of a path with something in front are that and the segments, by induction on
these.
-/
theorem pieces_append_text {front : List Char} (plain : IsPlain front)
    (all : ∀ segment ∈ segments, IsPlain segment)
    : Text.pieces (· = '/') (front ++ (rooted segments).text) = front :: segments := by
  induction segments generalizing front with
  | nil =>
      have free : ∀ c ∈ front, decide (c = '/') = false := fun c member => by
        simp [(plain c member).1]
      simpa [UrlPath.text] using Text.pieces_of_free free
  | cons segment segments ih =>
      have free : ∀ c ∈ front, decide (c = '/') = false := fun c member => by
        simp [(plain c member).1]
      obtain ⟨first, others⟩ := List.forall_mem_cons.mp all
      have slash : decide ('/' = '/') = true := rfl
      have split := Text.pieces_append free slash (segment ++ (rooted segments).text)
      rwa [ih first others] at split

theorem spelled_text (all : ∀ segment ∈ segments, IsPlain segment)
    : spelled (rooted segments).text = segments.map Percent.decode := by
  have pieces := pieces_append_text isPlain_nil all
  rw [List.nil_append] at pieces
  simp [spelled, pieces]

/-- The segments that others are put behind: all but one empty segment at the end, and none if
that leaves but an empty one.
-/
def leading {α : Type} [DecidableEq α] (segments : List (List α)) : List (List α) :=
  let front := if segments.getLast? = some [] then segments.dropLast else segments
  if front = [[]] then [] else front

/-- A lone empty segment is left out in either way. -/
theorem leading_eq {α : Type} [DecidableEq α] (segments : List (List α))
    : leading segments
      = let start := if 1 < segments.length ∧ segments.getLast? = some [] then segments.dropLast
          else segments
        if start = [[]] then [] else start := by
  unfold leading
  by_cases ended : segments.getLast? = some []
  · by_cases several : 1 < segments.length
    · simp [ended, several]
    · obtain rfl : segments = [[]] := by
        obtain ⟨rest, rfl⟩ := List.getLast?_eq_some_iff.mp ended
        rw [List.length_append, List.length_singleton] at several
        rw [List.length_eq_zero_iff.mp (by omega : rest.length = 0)]
        rfl
      simp
  · simp [ended]

theorem leading_map_decode (segments : List (List Char))
    : leading (segments.map Percent.decode) = (leading segments).map Percent.decode := by
  have last : (segments.map Percent.decode).getLast? = some [] ↔ segments.getLast? = some [] := by
    simp [Percent.decode_eq_nil_iff]
  have lone (front : List (List Char)) : front.map Percent.decode = [[]] ↔ front = [[]] := by
    simp [List.map_eq_singleton_iff, Percent.decode_eq_nil_iff]
  unfold leading
  simp only [last, ← List.map_dropLast]
  split <;> simp only [lone] <;> split <;> rfl

end UrlPath

namespace Url

open UrlPath

variable {segment text place : List Char} {scheme : String} {url base : Url}

theorem isPlain_of_mem_filePath (member : segment ∈ filePath text) : IsPlain segment := by
  have each : ∀ segment ∈ (UrlPath.read true true text).map fun segment =>
      if isDrive segment then segment.take 1 ++ [':'] else segment, IsPlain segment := by
    intro segment listed
    obtain ⟨source, found, rfl⟩ := List.mem_map.mp listed
    have plain := isPlain_of_mem_read found
    split
    · intro c member
      rcases List.mem_append.mp member with member | colon
      · exact plain c (List.mem_of_mem_take member)
      · rw [List.mem_singleton.mp colon]
        decide
    · exact plain
  unfold filePath at member
  dsimp only at member
  split at member
  · exact List.mem_singleton.mp member ▸ isPlain_nil
  · exact each segment ((List.dropWhile_sublist _).subset member)

theorem allPlain_of_readPlace {goesOn : Bool} {authority : Authority} {path : UrlPath}
    (reads : readPlace scheme text goesOn = .ok (authority, path))
    : path.AllPlain := by
  unfold readPlace at reads
  obtain ⟨read, -, reads⟩ := bind_eq_ok reads
  cases reads
  rintro segments ⟨⟩ segment member
  split at member
  · exact isPlain_of_mem_read member
  · split at member
    · exact List.mem_singleton.mp member ▸ isPlain_nil
    · cases member

theorem allPlain_of_readFilePlace {authority : Authority} {path : UrlPath}
    (reads : readFilePlace text = .ok (authority, path))
    : path.AllPlain := by
  unfold readFilePlace at reads
  obtain ⟨read, -, reads⟩ := bind_eq_ok reads
  cases reads
  rintro segments ⟨⟩ segment member
  exact isPlain_of_mem_filePath member

/-- An address that has been read has plain segments. -/
theorem allPlain_of_read {text : String} (reads : Url.read text = .ok url)
    : url.path.AllPlain := by
  unfold Url.read at reads
  split at reads
  · dsimp only at reads
    split at reads
    · obtain ⟨⟨authority, path⟩, read, reads⟩ := bind_eq_ok reads
      cases reads
      exact allPlain_of_readFilePlace read
    · split at reads
      · obtain ⟨⟨authority, path⟩, read, reads⟩ := bind_eq_ok reads
        cases reads
        exact allPlain_of_readPlace read
      · split at reads
        · obtain ⟨⟨authority, path⟩, read, reads⟩ := bind_eq_ok reads
          cases reads
          exact allPlain_of_readPlace read
        · cases reads
          rintro segments ⟨⟩ segment member
          exact isPlain_of_mem_read member
        · cases reads
          exact nofun
  · cases reads

-----------------------------------------------------------------------------------------
-- Requested segments
-----------------------------------------------------------------------------------------

/-- The segments that a request to an address asks for: those of its path, without the query. -/
def requested (url : Url) : List (List UInt8) :=
  spelled (Text.cut (· = '?') url.target).1

theorem requested_of_rooted {segments : List (List Char)} (path : url.path = .rooted segments)
    (all : ∀ segment ∈ segments, IsPlain segment)
    : url.requested = segments.map Percent.decode := by
  have free : ∀ c ∈ url.path.text, decide (c = '?') = false := by
    intro c member
    rw [path, UrlPath.text] at member
    obtain ⟨segment, listed, member⟩ := List.mem_flatMap.mp member
    rcases List.mem_cons.mp member with rfl | member
    · rfl
    · simp [(all segment listed c member).2.1]
  have cut : (Text.cut (· = '?') url.target).1 = url.path.text := by
    unfold target
    cases url.query with
    | none => simpa using Text.cut_of_free free
    | some query => exact Text.cut_append free (by simp) query
  rw [requested, cut, path, spelled_text all]

/-- What is in front of the segments that are added to an address. -/
def front (url : Url) : List (List UInt8) :=
  leading url.requested

-----------------------------------------------------------------------------------------
-- Segments added
-----------------------------------------------------------------------------------------

/-- The segments that are not passed over when they are added. -/
def undotted (segments : List String) : List String :=
  segments.filter fun segment => segment ≠ "." ∧ segment ≠ ".."

theorem undotted_cons {segment : String} (plain : segment ≠ "." ∧ segment ≠ "..")
    (added : List String)
    : undotted (segment :: added) = segment :: undotted added := by
  simp [undotted, plain]

/-- The text has no line end or tab, which addresses would drop. -/
def IsSteady (segment : String) : Prop :=
  ∀ c ∈ segment.toList, c ≠ '\t' ∧ c ≠ '\n' ∧ c ≠ '\r'

theorem decode_writtenSegment (scheme : String) {segment : String} (steady : IsSteady segment)
    : Percent.decode (writtenSegment scheme segment) = Text.utf8 segment := by
  have kept : segment.toList.filter (fun c => c ≠ '\t' ∧ c ≠ '\n' ∧ c ≠ '\r')
      = segment.toList := by
    simpa [List.filter_eq_self, IsSteady] using steady
  unfold writtenSegment
  dsimp only
  rw [kept]
  split <;> exact Percent.decode_encode rfl _

theorem writtenSegment_ne_nil (scheme : String) {segment : String} (steady : IsSteady segment)
    (filled : segment ≠ "")
    : writtenSegment scheme segment ≠ [] := by
  intro none
  have decoded := decode_writtenSegment scheme steady
  rw [none] at decoded
  exact filled (Text.utf8_inj.mp decoded.symm)

theorem isPlain_writtenSegment (segment : String) : IsPlain (writtenSegment scheme segment) := by
  unfold writtenSegment
  dsimp only
  split <;> exact isPlain_encode rfl rfl fun _ => rfl

/-- A segment that is no dots is put behind the others, as what is written is no dots either. -/
theorem addSegment_eq {segments : List (List Char)} {segment : String} (steady : IsSteady segment)
    (undotted : segment ≠ "." ∧ segment ≠ "..")
    : addSegment scheme segments segment
      = (if segments = [[]] then [] else segments) ++ [writtenSegment scheme segment] := by
  have decoded := decode_writtenSegment scheme steady
  have single : ¬ isSingleDot (writtenSegment scheme segment) = true := fun dot => by
    rw [Percent.decode_of_isSingleDot dot] at decoded
    exact undotted.1 (Text.utf8_inj.mp (decoded.symm.trans (by rfl : _ = Text.utf8 ".")))
  have double : ¬ isDoubleDot (writtenSegment scheme segment) = true := fun dots => by
    rw [Percent.decode_of_isDoubleDot dots] at decoded
    exact undotted.2 (Text.utf8_inj.mp (decoded.symm.trans (by rfl : _ = Text.utf8 "..")))
  rw [addSegment, if_neg (not_or.mpr undotted), place, if_neg double, if_neg single]

/-- Behind a segment that is not empty all are put but the dots, by induction on them. -/
theorem foldl_addSegment {segments : List (List Char)} {added : List String}
    (steady : ∀ segment ∈ added, IsSteady segment) (filled : ∃ segment ∈ segments, segment ≠ [])
    : added.foldl (addSegment scheme) segments
      = segments ++ (undotted added).map (writtenSegment scheme) := by
  induction added generalizing segments with
  | nil => simp [undotted]
  | cons segment added ih =>
      obtain ⟨first, others⟩ := List.forall_mem_cons.mp steady
      rw [List.foldl_cons]
      by_cases dots : segment = "." ∨ segment = ".."
      · have passed : addSegment scheme segments segment = segments := if_pos dots
        have skipped : undotted (segment :: added) = undotted added := by
          rcases dots with rfl | rfl <;> simp [undotted]
        rw [passed, skipped, ih others filled]
      · have plain := not_or.mp dots
        have some : segments ≠ [[]] := by
          rintro rfl
          simp at filled
        obtain ⟨one, member, content⟩ := filled
        rw [addSegment_eq first plain, if_neg some, undotted_cons plain,
          ih others ⟨one, List.mem_append_left _ member, content⟩]
        simp

theorem mem_of_mem_leading {α : Type} [DecidableEq α] {segments : List (List α)}
    {segment : List α} (member : segment ∈ leading segments)
    : segment ∈ segments := by
  unfold leading at member
  dsimp only at member
  split_ifs at member
  · cases member
  · exact (List.dropLast_sublist _).subset member
  · cases member
  · exact member

/-- What an address with segments added is, the first of which is no dots. -/
theorem append_eq {segments : List (List Char)} {kind : String} {added : List String}
    (path : base.path = .rooted segments) (steady : ∀ segment ∈ kind :: added, IsSteady segment)
    (plain : kind ≠ "." ∧ kind ≠ "..") (filled : kind ≠ "")
    : base.append (kind :: added)
      = { base with
          path := .rooted
            (leading segments
              ++ (undotted (kind :: added)).map (writtenSegment base.scheme)) } := by
  obtain ⟨first, others⟩ := List.forall_mem_cons.mp steady
  have content := writtenSegment_ne_nil base.scheme first filled
  unfold append
  rw [path]
  dsimp only
  rw [List.foldl_cons, addSegment_eq first plain, ← leading_eq,
    foldl_addSegment others ⟨_, by simp, content⟩, undotted_cons plain]
  simp

end Url

end GraphShell
