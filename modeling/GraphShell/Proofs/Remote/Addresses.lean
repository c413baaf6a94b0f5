import GraphShell.Proofs.Shell.Keywords
import GraphShell.Proofs.Url.Segments
import GraphShell.Remote.Store

/-! The address of a request names what is asked for: behind the segments of the store it has
the kind of the entity and the keys, and it has nothing else. Keys that are dots do not show.
-/

namespace GraphShell

open Url UrlPath

variable {base : Url} {text : String}

-----------------------------------------------------------------------------------------
-- Segments of a request
-----------------------------------------------------------------------------------------

/-- The segments that a request adds to the address of the store. -/
def Request.segments : Request → List String
  | getVertex key => ["vertex", key]
  | putVertex .. => ["vertex"]
  | getEdge tail head => ["edge", tail, head]
  | addEdge .. => ["edge"]
  | illuminate .. => ["illuminate"]

theorem Request.message_url (request : Request) (base : Url)
    : (request.message base).url = base.append request.segments := by
  cases request <;> rfl

theorem isSteady_of_isWord (word : Text.IsWord text) : IsSteady text := by
  intro c member
  have solid := word.2 c member
  refine ⟨?_, ?_, ?_⟩ <;> rintro rfl <;> cases solid

theorem Request.segments_eq (request : Request)
    : ∃ kind keys,
        request.segments = kind :: keys ∧ (kind ≠ "." ∧ kind ≠ "..") ∧ kind ≠ "" := by
  cases request <;> exact ⟨_, _, rfl, by decide⟩

-----------------------------------------------------------------------------------------
-- Addresses of requests
-----------------------------------------------------------------------------------------

/-- The address of a store has a path of plain segments. -/
theorem exists_rooted_of_endpoint (reads : Url.endpoint text = .ok base)
    : ∃ segments, base.path = .rooted segments ∧ ∀ segment ∈ segments, IsPlain segment := by
  unfold Url.endpoint at reads
  split at reads
  · cases reads
  · next url read =>
      split at reads
      · next hierarchical =>
          cases reads
          unfold Url.isHierarchical at hierarchical
          split at hierarchical
          · next segments path => exact ⟨segments, path, allPlain_of_read read segments path⟩
          · cases hierarchical
      · cases reads

/-- The address of a request is that of the store with its path led on by the segments. -/
theorem url_message {segments : List (List Char)} (path : base.path = .rooted segments)
    {request : Request} (words : ∀ segment ∈ request.segments, Text.IsWord segment)
    : (request.message base).url
      = { base with
          path := .rooted
            (leading segments
              ++ (undotted request.segments).map (writtenSegment base.scheme)) } := by
  obtain ⟨kind, keys, split, plain, filled⟩ := request.segments_eq
  rw [split] at words
  rw [request.message_url, split]
  exact append_eq path (fun segment member => isSteady_of_isWord (words segment member)) plain
    filled

/-- A request asks for what its segments name, behind the segments of the store. -/
theorem requested_message (reads : Url.endpoint text = .ok base) {request : Request}
    (words : ∀ segment ∈ request.segments, Text.IsWord segment)
    : (request.message base).url.requested
      = base.front ++ (undotted request.segments).map Text.utf8 := by
  obtain ⟨segments, path, all⟩ := exists_rooted_of_endpoint reads
  have plain : ∀ segment ∈ leading segments
      ++ (undotted request.segments).map (writtenSegment base.scheme), IsPlain segment := by
    intro segment member
    rcases List.mem_append.mp member with member | member
    · exact all segment (mem_of_mem_leading member)
    · obtain ⟨source, _, rfl⟩ := List.mem_map.mp member
      exact isPlain_writtenSegment source
  have written : ((undotted request.segments).map (writtenSegment base.scheme)).map Percent.decode
      = (undotted request.segments).map Text.utf8 := by
    rw [List.map_map]
    refine List.map_congr_left fun segment member => ?_
    have word := words segment (List.mem_of_mem_filter member)
    exact decode_writtenSegment _ (isSteady_of_isWord word)
  rw [url_message path words, requested_of_rooted rfl plain, List.map_append, written, front,
    requested_of_rooted path all, leading_map_decode]

-----------------------------------------------------------------------------------------
-- Texts of addresses
-----------------------------------------------------------------------------------------

/-- What keeps a path from looking like an authority is decided in front of the segments added,
if the first of these is not empty.
-/
theorem pathGuard_append {front rest : List (List Char)} {first : List Char}
    (filled : first ≠ []) (base : Url)
    : ({ base with path := .rooted (front ++ first :: rest) } : Url).pathGuard
      = if base.authority = none ∧ front.head? = some [] then ['/', '.'] else [] := by
  obtain ⟨c, content, rfl⟩ := List.exists_cons_of_ne_nil filled
  unfold pathGuard
  cases base.authority with
  | some authority => simp
  | none =>
      rcases front with _ | ⟨_ | ⟨d, segment⟩, _ | ⟨next, front⟩⟩ <;> simp

/-- Addresses of one store that differ in their paths only have different texts. -/
theorem target_eq_of_text_eq {path other : UrlPath}
    (guard : ({ base with path := path } : Url).pathGuard
      = ({ base with path := other } : Url).pathGuard)
    (same : ({ base with path := path } : Url).text = ({ base with path := other } : Url).text)
    : ({ base with path := path } : Url).target = ({ base with path := other } : Url).target := by
  have chars := String.ofList_injective same
  dsimp only at chars
  rw [guard] at chars
  simpa using chars

theorem pathGuard_message {segments : List (List Char)} (path : base.path = .rooted segments)
    {request : Request} (words : ∀ segment ∈ request.segments, Text.IsWord segment)
    : (request.message base).url.pathGuard
      = if base.authority = none ∧ (leading segments).head? = some [] then ['/', '.'] else [] := by
  rw [url_message path words]
  obtain ⟨kind, keys, split, plain, filled⟩ := request.segments_eq
  have steady : IsSteady kind := isSteady_of_isWord (words kind (by simp [split]))
  rw [split, undotted_cons plain, List.map_cons]
  exact pathGuard_append (writtenSegment_ne_nil _ steady filled) base

/-- Requests have the same address exactly if their segments are the same but for dots. -/
theorem text_message_eq_iff (reads : Url.endpoint text = .ok base) {request other : Request}
    (words : ∀ segment ∈ request.segments, Text.IsWord segment)
    (others : ∀ segment ∈ other.segments, Text.IsWord segment)
    : (request.message base).url.text = (other.message base).url.text
      ↔ undotted request.segments = undotted other.segments := by
  obtain ⟨segments, path, -⟩ := exists_rooted_of_endpoint reads
  constructor
  · intro same
    have guard := (pathGuard_message path words).trans (pathGuard_message path others).symm
    have target : (request.message base).url.target = (other.message base).url.target := by
      rw [url_message path words, url_message path others] at *
      exact target_eq_of_text_eq guard same
    have asked := requested_message reads words
    rw [requested, target, ← requested, requested_message reads others] at asked
    exact (List.map_injective_iff.mpr fun _ _ => Text.utf8_inj.mp)
      (List.append_cancel_left asked.symm)
  · intro same
    rw [url_message path words, url_message path others, same]

-----------------------------------------------------------------------------------------
-- Entities told by addresses
-----------------------------------------------------------------------------------------

/-- Whatever store is reached, a request to read names its entity: its path is that of the
store, without an empty segment at the end, then the kind of the entity and its keys. Keys that
are dots are left out; but for these no two requests have the same address.
-/
theorem reads_name_entity (reads : Url.endpoint text = .ok base)
    : (∀ key,
        Text.IsWord key
        → ((Request.getVertex key).message base).url.requested
          = base.front ++ (undotted ["vertex", key]).map Text.utf8)
      ∧ (∀ tail head,
          Text.IsWord tail
          → Text.IsWord head
          → ((Request.getEdge tail head).message base).url.requested
            = base.front ++ (undotted ["edge", tail, head]).map Text.utf8)
      ∧ ∀ request other : Request,
          (∀ segment ∈ request.segments, Text.IsWord segment)
          → (∀ segment ∈ other.segments, Text.IsWord segment)
          → ((request.message base).url.text = (other.message base).url.text
            ↔ undotted request.segments = undotted other.segments) := by
  have vertex : Text.IsWord "vertex" := by decide
  have edge : Text.IsWord "edge" := by decide
  refine ⟨fun key word => ?_, fun tail head word other => ?_, fun request other words others => ?_⟩
  · exact requested_message reads (by simp [Request.segments, vertex, word])
  · exact requested_message reads (by simp [Request.segments, edge, word, other])
  · exact text_message_eq_iff reads words others

/-- A key with the marks of a path and something like an escape, behind the path of a store. -/
theorem reads_name_entity_of_marks
    : ∃ base,
        Url.endpoint "HTTP://Store:80/api/?q#f" = .ok base
        ∧ base.front = [Text.utf8 "api"]
        ∧ Text.IsWord "a/b?%2e#é"
        ∧ ((Request.getVertex "a/b?%2e#é").message base).url.requested
          = ["api", "vertex", "a/b?%2e#é"].map Text.utf8
        ∧ ((Request.getVertex "a/b?%2e#é").message base).url.text
          = "http://store/api/vertex/a%2Fb%3F%252e%23%C3%A9?q#f" := by
  have word : Text.IsWord "a/b?%2e#é" := by decide
  have reads : Url.endpoint "HTTP://Store:80/api/?q#f"
      = .ok ⟨"http", some ⟨[], [], some (.domain "store".toList), none⟩,
          .rooted ["api".toList, []], some ['q'], some ['f']⟩ := by
    decide +kernel
  refine ⟨_, reads, by decide +kernel, word, ?_, by decide +kernel⟩
  rw [(reads_name_entity reads).1 _ word]
  decide +kernel

/-- What is asked for under a single dot is asked for under a double dot too, and it is no vertex.
A path of two slashes is given up.
-/
theorem reads_pass_over_dots
    : (∃ base,
        Url.endpoint "http://store/" = .ok base
        ∧ ((Request.getVertex ".").message base).url.text = "http://store/vertex"
        ∧ ((Request.getVertex "..").message base).url.text = "http://store/vertex"
        ∧ ((Request.getEdge "a" ".").message base).url.requested = ["edge", "a"].map Text.utf8)
      ∧ ∃ base,
          Url.endpoint "http://store//" = .ok base
          ∧ base.requested = [[], []]
          ∧ ((Request.getVertex "k").message base).url.requested
            = ["vertex", "k"].map Text.utf8 := by
  refine ⟨⟨⟨"http", some ⟨[], [], some (.domain "store".toList), none⟩, .rooted [[]], none, none⟩,
    ?_⟩, ⟨"http", some ⟨[], [], some (.domain "store".toList), none⟩, .rooted [[], []], none,
    none⟩, ?_⟩
  all_goals decide +kernel

end GraphShell
