import GraphShell.Json.Decoder
import GraphShell.Proofs.Json.Words
import GraphShell.Proofs.Lookup

/-! An object that has been written is read field by field, on one line or spread over many. If
each value is read as something in front of whatever may follow it, a map of such values is
read as the map of what they are read as.
-/

namespace GraphShell

-----------------------------------------------------------------------------------------
-- Maps changed by steps that may fail
-----------------------------------------------------------------------------------------

namespace KeyMap

variable {ε α β : Type} {step : α → Except ε β} {map : KeyMap α}

/-- The map with every value changed by a step, which fails if one of the steps does. -/
def traverse (step : α → Except ε β) (map : KeyMap α) : Except ε (KeyMap β) :=
  map.entries.foldlM (fun changed entry => (step entry.2).map (changed.insert entry.1)) empty

/-- Distinct keys that are put into a map hide what it had under them, by induction on them. -/
theorem get?_foldl_insert {entries : List (String × α)} (distinct : (entries.map Prod.fst).Nodup)
    (map : KeyMap α) (key : String)
    : (entries.foldl (fun changed entry => changed.insert entry.1 entry.2) map).get? key
      = ((entries.find? fun entry => entry.1 = key).map Prod.snd).or (map.get? key) := by
  induction entries generalizing map with
  | nil => rfl
  | cons entry entries ih =>
      obtain ⟨fresh, distinct⟩ := List.nodup_cons.mp distinct
      rw [List.foldl_cons, ih distinct, get?_insert]
      by_cases same : entry.1 = key
      · have none : entries.find? (fun entry => entry.1 = key) = none := by
          refine List.find?_eq_none.mpr fun other member => ?_
          have apart : other.1 ≠ entry.1 := fun equal =>
            fresh (equal ▸ List.mem_map_of_mem member)
          simpa [← same] using apart
        simp [none, same]
      · simp [same, Ne.symm same]

theorem foldl_insert_entries (map : KeyMap α)
    : map.entries.foldl (fun changed entry => changed.insert entry.1 entry.2) empty = map := by
  ext1 key
  rw [get?_foldl_insert map.nodup_keys, get?_empty, Option.or_none]
  rfl

theorem traverse_eq_ok {change : α → β}
    (each : ∀ value ∈ map.values, step value = .ok (change value))
    : map.traverse step = .ok (map.mapValues change) := by
  have steps : ∀ entries : List (String × α),
      (∀ entry ∈ entries, step entry.2 = .ok (change entry.2))
      → ∀ start : KeyMap β,
        entries.foldlM (fun changed entry => (step entry.2).map (changed.insert entry.1)) start
        = .ok ((entries.map fun entry => (entry.1, change entry.2)).foldl
            (fun changed entry => changed.insert entry.1 entry.2) start) := by
    intro entries each
    induction entries with
    | nil => exact fun _ => rfl
    | cons entry entries ih =>
        obtain ⟨first, others⟩ := List.forall_mem_cons.mp each
        intro start
        rw [List.foldlM_cons, first]
        exact ih others _
  rw [traverse, steps _ fun entry member => each _ (List.mem_map_of_mem member)]
  exact congrArg Except.ok (foldl_insert_entries (map.mapValues change))

theorem traverse_eq_self {step : α → Except ε α}
    (each : ∀ value ∈ map.values, step value = .ok value)
    : map.traverse step = .ok map := by
  have whole : map.mapValues id = map := by
    ext1 key
    simp
  exact (traverse_eq_ok each).trans (congrArg Except.ok whole)

/-- Each step succeeded if all did, by induction on the entries. -/
theorem exists_of_traverse_eq_ok {changed : KeyMap β} (whole : map.traverse step = .ok changed)
    {value : α} (member : value ∈ map.values)
    : ∃ result, step value = .ok result := by
  obtain ⟨entry, listed, rfl⟩ := List.mem_map.mp member
  have taken : ∀ entries : List (String × α),
      entry ∈ entries
      → ∀ start,
        entries.foldlM (fun changed entry => (step entry.2).map (changed.insert entry.1)) start
          = .ok changed
        → ∃ result, step entry.2 = .ok result := by
    intro entries listed
    induction entries with
    | nil => cases listed
    | cons head entries ih =>
        intro start whole
        rw [List.foldlM_cons] at whole
        cases stepped : step head.2 with
        | error fault =>
            rw [stepped] at whole
            cases whole
        | ok result =>
            rcases List.mem_cons.mp listed with rfl | later
            · exact ⟨result, stepped⟩
            · rw [stepped] at whole
              exact ih later _ whole
  exact taken map.entries listed empty whole

theorem values_insert {kind : α → Prop} (key : String) {value : α} (here : kind value)
    (others : ∀ other ∈ map.values, kind other)
    : ∀ other ∈ (map.insert key value).values, kind other := by
  intro other member
  obtain ⟨name, found⟩ := mem_values_iff.mp member
  rw [get?_insert] at found
  split at found
  · obtain rfl := Option.some.inj found
    exact here
  · exact others other (mem_values_iff.mpr ⟨name, found⟩)

/-- Steps that succeed with values of a kind make a map of such values, by induction on the
entries.
-/
theorem exists_traverse_eq_ok (kind : β → Prop)
    (each : ∀ value ∈ map.values, ∃ result, step value = .ok result ∧ kind result)
    : ∃ changed, map.traverse step = .ok changed ∧ ∀ value ∈ changed.values, kind value := by
  have steps : ∀ entries : List (String × α),
      (∀ entry ∈ entries, ∃ result, step entry.2 = .ok result ∧ kind result)
      → ∀ start : KeyMap β,
        (∀ value ∈ start.values, kind value)
        → ∃ changed,
          entries.foldlM (fun changed entry => (step entry.2).map (changed.insert entry.1)) start
            = .ok changed
          ∧ ∀ value ∈ changed.values, kind value := by
    intro entries each
    induction entries with
    | nil => exact fun start started => ⟨start, rfl, started⟩
    | cons entry entries ih =>
        obtain ⟨⟨result, stepped, good⟩, others⟩ := List.forall_mem_cons.mp each
        intro start started
        rw [List.foldlM_cons, stepped]
        exact ih others _ (values_insert entry.1 good started)
  exact steps map.entries (fun entry member => each _ (List.mem_map_of_mem member)) empty nofun

end KeyMap

namespace Json

variable {α β σ : Type} {layout : Layout} {rest : List Char}

-----------------------------------------------------------------------------------------
-- Texts of objects
-----------------------------------------------------------------------------------------

/-- What is written of an object behind its opening brace, `first` if no field has been written
yet.
-/
def Layout.body (layout : Layout) : Bool → List (String × String) → List Char
  | first, [] => (if first then [] else layout.lineBreak.toList) ++ ['\x7d']
  | first, (name, value) :: others =>
      (if first then [] else [','])
        ++ layout.inner.lineBreak.toList
        ++ (quote name).toList
        ++ layout.colon.toList
        ++ value.toList
        ++ body layout false others

/-- One field of an object, without what is between it and other fields. -/
def Layout.field (layout : Layout) (field : String × String) : String :=
  layout.inner.lineBreak ++ quote field.1 ++ layout.colon ++ field.2

theorem intercalate_field (layout : Layout) (field : String × String)
    (others : List (String × String))
    : [','].intercalate ((field :: others).map fun field => (layout.field field).toList)
        ++ (layout.lineBreak.toList ++ ['\x7d'])
      = (layout.field field).toList ++ layout.body false others := by
  induction others generalizing field with
  | nil => simp [Layout.body]
  | cons next others ih =>
      have later := ih next
      rw [List.map_cons] at later
      rw [List.map_cons, List.map_cons, List.intercalate_cons_cons, List.append_assoc, later]
      simp [Layout.body, Layout.field]

theorem toList_object (layout : Layout) (fields : List (String × String))
    : (layout.object fields).toList = '\x7b' :: layout.body true fields := by
  cases fields with
  | nil => simp [Layout.object, Layout.body]
  | cons field others =>
      have whole := intercalate_field layout field others
      have text : layout.object (field :: others)
          = "\x7b" ++ ",".intercalate ((field :: others).map layout.field) ++ layout.lineBreak
            ++ "\x7d" := rfl
      have start : layout.body true (field :: others)
          = (layout.field field).toList ++ layout.body false others := by
        simp [Layout.body, Layout.field]
      rw [text, start, ← whole]
      simp [Function.comp_def]

theorem skipSpace_lineBreak (layout : Layout) (text : List Char)
    : skipSpace (layout.lineBreak.toList ++ text) = skipSpace text := by
  cases layout with
  | compact => rfl
  | spread depth =>
      simp only [Layout.lineBreak, String.toList_ofList, List.cons_append]
      refine (List.dropWhile_cons_of_pos (by decide)).trans ?_
      induction 2 * depth with
      | zero => rfl
      | succ n ih =>
          rw [List.replicate_succ, List.cons_append]
          exact (List.dropWhile_cons_of_pos (by decide)).trans ih

-----------------------------------------------------------------------------------------
-- Fields
-----------------------------------------------------------------------------------------

theorem nextField_close (layout : Layout) (first : Bool) (rest : List Char)
    : Decoder.nextField first (layout.body first [] ++ rest) = .ok none := by
  cases first with
  | true => rfl
  | false =>
      simp only [Decoder.nextField, Layout.body, Bool.false_eq_true, if_false, List.append_assoc,
        skipSpace_lineBreak]
      rfl

theorem close_body (layout : Layout) (first : Bool) (rest : List Char)
    : Decoder.close '\x7d' (layout.body first [] ++ rest) = .ok rest := by
  cases first with
  | true => rfl
  | false =>
      simp only [Decoder.close, Layout.body, Bool.false_eq_true, if_false, List.append_assoc,
        skipSpace_lineBreak]
      rfl

theorem nextField_name (layout : Layout) (first : Bool) (rest : List Char)
    : Decoder.nextField first
        ((if first then [] else [',']) ++ (layout.lineBreak.toList ++ '"' :: rest))
      = .ok (some rest) := by
  cases first with
  | true =>
      simp only [Decoder.nextField, if_true, List.nil_append, skipSpace_lineBreak]
      rfl
  | false =>
      have comma : skipSpace (',' :: (layout.lineBreak.toList ++ '"' :: rest))
          = ',' :: (layout.lineBreak.toList ++ '"' :: rest) := rfl
      have quote : skipSpace (layout.lineBreak.toList ++ '"' :: rest) = '"' :: rest :=
        (skipSpace_lineBreak layout _).trans rfl
      simp [Decoder.nextField, comma, quote]

/-- The decoder reads the text as the result, whatever follows that does not belong to a number,
and with a blank in front as without.
-/
structure Decoder.Reads (decoder : Decoder α) (levels : Nat) (text : String)
    (result : Except Fault α) : Prop where
  plain
    : ∀ rest,
        NumberEnds rest
        → decoder levels (text.toList ++ rest) = result.map fun value => (value, rest)
  blank : ∀ text, decoder levels (' ' :: text) = decoder levels text

/-- A text that is read whatever follows is decoded as a whole. -/
theorem Decoder.Reads.decode_eq {decoder : Decoder α} {text : String} {result : Except Fault α}
    (reads : decoder.Reads Decoder.levels text result)
    : decode decoder text = result := by
  have read := reads.plain [] nofun
  rw [List.append_nil] at read
  rw [decode, read]
  cases result <;> rfl

/-- The end of the line in which a text is printed does not matter. -/
theorem Decoder.Reads.decode_line {decoder : Decoder α} {text : String}
    {result : Except Fault α} (reads : decoder.Reads Decoder.levels text result)
    : decode decoder (text ++ "\n") = result := by
  have ends : NumberEnds ['\n'] := by
    rintro c ⟨⟩
    decide
  have read := reads.plain ['\n'] ends
  rw [decode, String.toList_append]
  refine (congrArg (fun read => read >>= _) read).trans ?_
  cases result <;> rfl

/-- Nothing that follows a field in an object belongs to a number. -/
theorem numberEnds_body (layout : Layout) (fields : List (String × String)) (rest : List Char)
    : NumberEnds (layout.body false fields ++ rest) := by
  cases fields with
  | nil =>
      cases layout with
      | compact =>
          rintro c ⟨⟩
          decide
      | spread depth =>
          simp only [Layout.body, Layout.lineBreak, Bool.false_eq_true, if_false,
            String.toList_ofList]
          rintro c ⟨⟩
          decide
  | cons field others =>
      rintro c ⟨⟩
      decide

/-- A colon and a value are read as the value. -/
theorem skipColon_colon {decoder : Decoder α} {levels : Nat} {text : String}
    {result : Except Fault α} (reads : decoder.Reads levels text result) (layout : Layout)
    (ends : NumberEnds rest)
    : (skipColon (layout.colon.toList ++ (text.toList ++ rest)) >>= decoder levels)
      = result.map fun value => (value, rest) := by
  cases layout with
  | compact => exact reads.plain rest ends
  | spread depth =>
      have colon : (Layout.spread depth).colon.toList ++ (text.toList ++ rest)
          = ':' :: ' ' :: (text.toList ++ rest) := by
        simp [Layout.colon]
      rw [colon]
      exact (reads.blank _).trans (reads.plain rest ends)

/-- The fields of a written object are taken in one after the other, by induction on them. -/
theorem fields_body {field : String → σ → List Char → Except Fault (σ × List Char)}
    {print : α → String} {take : σ → String × α → Except Fault σ} {entries : List (String × α)}
    (each
      : ∀ entry ∈ entries, ∀ state rest,
          NumberEnds rest
          → field entry.1 state (layout.colon.toList ++ ((print entry.2).toList ++ rest))
            = (take state entry).map fun state => (state, rest))
    {steps : Nat} (bound : entries.length < steps) (first : Bool) (state : σ) (rest : List Char)
    : Decoder.fields field steps first state
        (layout.body first (entries.map fun entry => (entry.1, print entry.2)) ++ rest)
      = (entries.foldlM take state).map fun state =>
          (state, layout.body (first && entries.isEmpty) [] ++ rest) := by
  induction entries generalizing steps first state with
  | nil =>
      obtain ⟨steps, rfl⟩ := Nat.exists_eq_add_of_lt bound
      simp only [Decoder.fields, List.map_nil, nextField_close]
      simp [Except.map, bind, Except.bind, pure, Except.pure]
  | cons entry entries ih =>
      obtain ⟨name, content⟩ := entry
      obtain ⟨here, others⟩ := List.forall_mem_cons.mp each
      obtain ⟨steps, rfl⟩ := Nat.exists_eq_add_of_lt (Nat.zero_lt_of_lt bound)
      let others' := entries.map fun entry => (entry.1, print entry.2)
      have text : layout.body first ((name, print content) :: others') ++ rest
          = (if first then [] else [','])
            ++ (layout.inner.lineBreak.toList
              ++ '"' :: (name.toList.flatMap escape
                ++ '"' :: (layout.colon.toList
                  ++ ((print content).toList ++ (layout.body false others' ++ rest))))) := by
        simp [Layout.body, quote]
      have taken := here state _ (numberEnds_body layout others' rest)
      have later (state : σ) :=
        ih others (by simpa using bound : entries.length < 0 + steps) false state
      dsimp only at taken
      rw [List.map_cons, Decoder.fields, text, nextField_name]
      simp only [bind, Except.bind, readString_flatMap_escape, String.ofList_toList, taken,
        List.foldlM_cons]
      cases take state (name, content) with
      | error fault => rfl
      | ok state => simpa [Except.map] using later state

theorem length_le_length_body (layout : Layout) (first : Bool) (fields : List (String × String))
    : fields.length ≤ (layout.body first fields).length := by
  induction fields generalizing first with
  | nil => simp
  | cons field fields ih =>
      have later := ih false
      simp only [Layout.body, quote, String.toList_ofList, List.length_append, List.length_cons]
      omega

/-- All fields are taken in, as there are no more of them than characters. -/
theorem fields_of_body {field : String → σ → List Char → Except Fault (σ × List Char)}
    (print : α → String) {take : σ → String × α → Except Fault σ} {entries : List (String × α)}
    (each
      : ∀ entry ∈ entries, ∀ state rest,
          NumberEnds rest
          → field entry.1 state (layout.colon.toList ++ ((print entry.2).toList ++ rest))
            = (take state entry).map fun state => (state, rest))
    (state : σ) (rest : List Char)
    : let text := layout.body true (entries.map fun entry => (entry.1, print entry.2)) ++ rest
      Decoder.fields field (text.length + 1) true state text
      = (entries.foldlM take state).map fun state =>
          (state, layout.body entries.isEmpty [] ++ rest) := by
  refine fields_body each ?_ true state rest
  have short := length_le_length_body layout true
    (entries.map fun entry => (entry.1, print entry.2))
  rw [List.length_map] at short
  rw [List.length_append]
  omega

/-- Takes in one entry of a map. -/
def Decoder.takeEntry (value : Decoder α) (levels : Nat) (name : String) (entries : KeyMap α)
    (text : List Char)
    : Except Fault (KeyMap α × List Char) :=
  (skipColon text >>= value levels).map fun read => (entries.insert name read.1, read.2)

theorem keyMap_brace {value : Decoder α} {levels : Nat} (inside : 0 < levels) (text : List Char)
    : Decoder.keyMap value (levels + 1) ('\x7b' :: text)
      = Decoder.fields (value.takeEntry levels) (text.length + 1) true .empty text
          >>= fun read => (Decoder.close '\x7d' read.2).map fun rest => (read.1, rest) := by
  have brace : skipSpace ('\x7b' :: text) = '\x7b' :: text := rfl
  have more : ¬ levels + 1 ≤ 1 := by omega
  simp only [Decoder.keyMap, brace, Decoder.enter, Nat.add_sub_cancel, if_neg more]
  rfl

/-- A map of values that are each read as something is read as the map of these. -/
theorem reads_keyMap {value : Decoder β} {print : α → String} {reread : α → Except Fault β}
    {map : KeyMap α} {levels : Nat}
    (each : ∀ content ∈ map.values, value.Reads levels (print content) (reread content))
    (inside : 0 < levels)
    : (Decoder.keyMap value).Reads (levels + 1)
        (layout.object (map.entries.map fun entry => (entry.1, print entry.2)))
        (map.traverse reread) where
  plain rest _ := by
    have taken : ∀ entry ∈ map.entries, ∀ changed rest,
        NumberEnds rest
        → value.takeEntry levels entry.1 changed
            (layout.colon.toList ++ ((print entry.2).toList ++ rest))
          = ((reread entry.2).map (changed.insert entry.1)).map fun changed => (changed, rest) := by
      intro entry member changed rest ends
      rw [Decoder.takeEntry, skipColon_colon (each _ (List.mem_map_of_mem member)) layout ends]
      cases reread entry.2 <;> rfl
    rw [toList_object, List.cons_append, keyMap_brace inside, fields_of_body print taken,
      ← KeyMap.traverse]
    cases map.traverse reread with
    | error fault => rfl
    | ok changed => simp [Except.map, bind, Except.bind, close_body]
  blank _ := rfl

-----------------------------------------------------------------------------------------
-- Records
-----------------------------------------------------------------------------------------

variable {shape : Shape σ α} {levels : Nat}

theorem Decoder.Reads.map {decoder : Decoder α} {text : String} {result : Except Fault α}
    (reads : decoder.Reads levels text result) (change : α → β)
    : (decoder.map change).Reads levels text (result.map change) where
  plain rest ends := by
    rw [Decoder.map, reads.plain rest ends]
    cases result <;> rfl
  blank text := by
    rw [Decoder.map, reads.blank, Decoder.map]

/-- The state with a field taken in, unless it has been given before. -/
def RecordField.take (field : RecordField σ) (result : Except Fault (σ → σ)) (state : σ)
    : Except Fault σ :=
  if field.isGiven state then .error .mismatched else result.map fun put => put state

theorem takeField_colon {field : RecordField σ} {text : String} {result : Except Fault (σ → σ)}
    (known : shape.fields.find? (fun other => other.name = field.name) = some field)
    (reads : field.decoder.Reads levels text result) (layout : Layout) (state : σ)
    (ends : NumberEnds rest)
    : shape.takeField levels field.name state (layout.colon.toList ++ (text.toList ++ rest))
      = (field.take result state).map fun state => (state, rest) := by
  unfold Shape.takeField RecordField.take
  rw [known]
  dsimp only
  split
  · rfl
  · rw [skipColon_colon reads layout ends]
    cases result <;> rfl

theorem decoder_brace (inside : 0 < levels) (text : List Char)
    : shape.decoder (levels + 1) ('\x7b' :: text)
      = Decoder.fields (shape.takeField levels) (text.length + 1) true shape.start text
          >>= fun read => shape.complete read.1 >>= fun record =>
            (Decoder.close '\x7d' read.2).map fun rest => (record, rest) := by
  have brace : skipSpace ('\x7b' :: text) = '\x7b' :: text := rfl
  have more : ¬ levels + 1 ≤ 1 := by omega
  simp only [Shape.decoder, brace, Decoder.enter, Nat.add_sub_cancel, if_neg more]
  rfl

/-- A record is read as what its fields make of it, one after the other. -/
theorem reads_record {entries : List (RecordField σ × String × Except Fault (σ → σ))}
    (known
      : ∀ entry ∈ entries,
          shape.fields.find? (fun field => field.name = entry.1.name) = some entry.1)
    (reads : ∀ entry ∈ entries, entry.1.decoder.Reads levels entry.2.1 entry.2.2)
    (inside : 0 < levels)
    : shape.decoder.Reads (levels + 1)
        (layout.object (entries.map fun entry => (entry.1.name, entry.2.1)))
        (entries.foldlM (fun state entry => entry.1.take entry.2.2 state) shape.start
          >>= shape.complete) where
  plain rest _ := by
    let named := entries.map fun entry => (entry.1.name, entry)
    let print (entry : RecordField σ × String × Except Fault (σ → σ)) : String := entry.2.1
    have taken : ∀ entry ∈ named, ∀ state rest,
        NumberEnds rest
        → shape.takeField levels entry.1 state
            (layout.colon.toList ++ ((print entry.2).toList ++ rest))
          = (entry.2.1.take entry.2.2.2 state).map fun state => (state, rest) := by
      intro entry member state rest ends
      obtain ⟨source, listed, rfl⟩ := List.mem_map.mp member
      exact takeField_colon (known source listed) (reads source listed) layout state ends
    have read := fields_of_body print taken shape.start rest
    simp only [named, List.map_map, List.foldlM_map] at read
    rw [toList_object, List.cons_append, decoder_brace inside]
    refine (congrArg (fun read => read >>= _) read).trans ?_
    cases entries.foldlM (fun state entry => entry.1.take entry.2.2 state) shape.start with
    | error fault => rfl
    | ok state => simp only [Except.map, bind, Except.bind, close_body]
  blank _ := rfl

end Json

end GraphShell
