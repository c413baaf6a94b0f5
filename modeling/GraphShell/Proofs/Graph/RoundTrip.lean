import GraphShell.Graph.Decoding
import GraphShell.Proofs.Json.Objects
import GraphShell.Proofs.Scalar.RoundTrip

/-! The JSON text of a graph, on one line or spread out, is decoded as the graph with each value
and each weight as it is read back on its own. So a graph comes back whole if all of them do.
-/

namespace GraphShell

open Binary Json

-----------------------------------------------------------------------------------------
-- Weights and values
-----------------------------------------------------------------------------------------

theorem readable_single : Readable .single where
  digits := by decide
  power := by decide +kernel

/-- What the literal of a weight is decoded as: its digits, scaled once as a double and then
rounded. The null that stands for a weight that is not finite is no weight.
-/
def Weight.reread (weight : Weight) : Except Fault Weight :=
  if weight.isFinite then
    let digits := (Decimal.shortest .even weight).asRead singleStyle
    (scaleByTen (.ofNat digits.significand) digits.exponent).map fun double =>
      (if weight.negative then double.neg else double).convert .single
  else .error .mismatched

theorem reads_weight (weight : Weight) (levels : Nat)
    : Decoder.single.Reads levels (Json.single weight) (Weight.reread weight) where
  plain rest ends := by
    unfold Weight.reread
    split
    · next finite =>
        obtain ⟨number, read⟩ :=
          Scalar.readNumber_literal readable_single singleStyle (by decide) finite ends
        rw [Json.single, Decoder.single, Decoder.number]
        dsimp only
        rw [Scalar.skipSpace_of_numberAhead number, if_pos number, read, scaledNumber]
        cases scaleByTen _ _ <;> rfl
    · next infinite =>
        rw [Json.single, Json.number, if_neg infinite]
        rfl
  blank _ := rfl

theorem reads_scalar {scalar : Scalar} (regular : scalar.Regular) (levels : Nat)
    : Scalar.decoder.Reads levels scalar.json scalar.reread where
  plain _ ends := Scalar.decoder_json regular ends levels
  blank _ := rfl

-----------------------------------------------------------------------------------------
-- Graphs
-----------------------------------------------------------------------------------------

namespace Graph

/-- The graph with each value and each weight as it is read back. -/
def reread (graph : Graph) : Except Fault Graph := do
  let vertices ← graph.vertices.traverse Scalar.reread
  let heads ← graph.heads.traverse fun heads => heads.traverse Weight.reread
  .ok ⟨vertices, heads⟩

/-- Numbers are finite, and years have four digits, in all values. -/
def Regular (graph : Graph) : Prop :=
  ∀ value ∈ graph.vertices.values, value.Regular

theorem reads_vertices {graph : Graph} (regular : graph.Regular) (layout : Layout)
    {levels : Nat} (inside : 0 < levels)
    : (Decoder.keyMap Scalar.decoder).Reads (levels + 1)
        (layout.object (graph.vertices.entries.map fun entry => (entry.1, entry.2.json)))
        (graph.vertices.traverse Scalar.reread) :=
  reads_keyMap (fun value member => reads_scalar (regular value member) levels) inside

/-- What is written for the heads of a tail. -/
def headsJson (layout : Layout) (heads : KeyMap Weight) : String :=
  layout.object (heads.entries.map fun entry => (entry.1, Json.single entry.2))

theorem reads_heads (graph : Graph) (layout : Layout) {levels : Nat} (inside : 0 < levels)
    : (Decoder.keyMap (Decoder.keyMap Decoder.single)).Reads (levels + 2)
        (layout.object
          (graph.heads.entries.map fun entry => (entry.1, headsJson layout.inner entry.2)))
        (graph.heads.traverse fun heads => heads.traverse Weight.reread) := by
  refine reads_keyMap (fun heads _ => ?_) (Nat.succ_pos levels)
  exact reads_keyMap (fun weight _ => reads_weight weight levels) inside

/-- A draft with its vertices given. -/
def Draft.withVertices (vertices : KeyMap Scalar) (draft : Draft) : Draft :=
  { draft with vertices := some vertices }

/-- A draft with its heads given. -/
def Draft.withHeads (heads : KeyMap (KeyMap Weight)) (draft : Draft) : Draft :=
  { draft with heads := some heads }

/-- The fields of a graph, each with what is written for it and what that is read as. -/
def written (layout : Layout) (graph : Graph)
    : List (RecordField Draft × String × Except Fault (Draft → Draft)) :=
  shape.fields.zip
    [(layout.inner.object (graph.vertices.entries.map fun entry => (entry.1, entry.2.json)),
        (graph.vertices.traverse Scalar.reread).map Draft.withVertices),
      (layout.inner.object
          (graph.heads.entries.map fun entry =>
            (entry.1, headsJson layout.inner.inner entry.2)),
        (graph.heads.traverse fun heads => heads.traverse Weight.reread).map Draft.withHeads)]

theorem json_eq (layout : Layout) (graph : Graph)
    : graph.json layout
      = layout.object ((graph.written layout).map fun entry => (entry.1.name, entry.2.1)) :=
  rfl

/-- The text of a graph is decoded as its values and weights are, one by one. -/
theorem reads_json {graph : Graph} (regular : graph.Regular) (layout : Layout)
    : Graph.decoder.Reads Decoder.levels (graph.json layout) graph.reread := by
  have vertices := reads_vertices regular layout.inner (by decide : 0 < 126)
  have heads := reads_heads graph layout.inner (by decide : 0 < 125)
  have known : ∀ entry ∈ graph.written layout,
      shape.fields.find? (fun field => field.name = entry.1.name) = some entry.1 := by
    refine List.forall_mem_cons.mpr ⟨rfl, List.forall_mem_cons.mpr ⟨?_, nofun⟩⟩
    simp [shape]
  have reads : ∀ entry ∈ graph.written layout,
      entry.1.decoder.Reads 127 entry.2.1 entry.2.2 := by
    refine List.forall_mem_cons.mpr ⟨?_, List.forall_mem_cons.mpr ⟨?_, nofun⟩⟩
    · exact vertices.map Draft.withVertices
    · exact heads.map Draft.withHeads
  have result : (graph.written layout).foldlM (fun state entry => entry.1.take entry.2.2 state)
      shape.start >>= shape.complete = graph.reread := by
    unfold reread written
    cases graph.vertices.traverse Scalar.reread with
    | error fault => rfl
    | ok vertices =>
        cases graph.heads.traverse fun heads => heads.traverse Weight.reread with
        | error fault => rfl
        | ok heads => rfl
  rw [json_eq, ← result]
  exact reads_record known reads (by decide)

/-- The text of a graph is decoded to its end. -/
theorem ofJson_json {graph : Graph} (regular : graph.Regular) (layout : Layout)
    : Graph.ofJson (graph.json layout) = graph.reread :=
  (reads_json regular layout).decode_eq

end Graph

-----------------------------------------------------------------------------------------
-- Graphs that come back
-----------------------------------------------------------------------------------------

/-- A value that can be told from its text: a number comes back on its own, a date-time can be
spelled by a token, and a text is no date-time to the relaxed reader.
-/
def Scalar.Lasting : Scalar → Prop
  | float x => x.isFinite = true ∧ ofJson (Json.double x) = .ok (float x)
  | timestamp t => ∃ token, Token.timestamp? token = some t
  | text content => Timestamp.readRelaxed? content.toList = none
  | _ => True

/-- A weight that can be told from its literal. -/
def Weight.Lasting (weight : Weight) : Prop :=
  weight.isFinite = true ∧ decode Decoder.single (Json.single weight) = .ok weight

theorem Scalar.Lasting.regular {scalar : Scalar} (lasting : scalar.Lasting)
    : scalar.Regular := by
  cases scalar with
  | float x => exact lasting.1
  | timestamp t =>
      obtain ⟨token, read⟩ := lasting
      exact Timestamp.year_of_readStrict? read
  | int | bool | text => exact trivial

theorem Scalar.Lasting.reread_eq {scalar : Scalar} (lasting : scalar.Lasting)
    : scalar.reread = .ok scalar := by
  cases scalar with
  | float x =>
      rw [← Scalar.ofJson_json lasting.regular]
      exact lasting.2
  | text content =>
      have plain : Timestamp.readRelaxed? content.toList = none := lasting
      rw [reread, ofString, plain]
      exact congrArg (fun text => Except.ok (Scalar.text text)) String.ofList_toList
  | int | bool | timestamp => rfl

theorem Weight.Lasting.reread_eq {weight : Weight} (lasting : Weight.Lasting weight)
    : Weight.reread weight = .ok weight :=
  (reads_weight weight Decoder.levels).decode_eq.symm.trans lasting.2

namespace Graph

theorem exists_mem_edges {graph : Graph} {heads : KeyMap Weight} {weight : Weight}
    (listed : heads ∈ graph.heads.values) (member : weight ∈ heads.values)
    : ∃ edge ∈ graph.edges, edge.weight = weight := by
  obtain ⟨⟨tail, _⟩, outer, rfl⟩ := List.mem_map.mp listed
  obtain ⟨⟨head, _⟩, inner, rfl⟩ := List.mem_map.mp member
  exact ⟨⟨tail, head, _⟩, List.mem_flatMap.mpr ⟨_, outer, List.mem_map.mpr ⟨_, inner, rfl⟩⟩, rfl⟩

/-- A graph whose weights and values can each be told from their text comes back from its own,
whether that is on one line or spread out.
-/
theorem json_round_trip {graph : Graph} (values : ∀ value ∈ graph.vertices.values, value.Lasting)
    (weights : ∀ edge ∈ graph.edges, Weight.Lasting edge.weight)
    : Graph.ofJson (graph.json .compact) = .ok graph
      ∧ Graph.ofJson (graph.json (.spread 0)) = .ok graph := by
  have regular : graph.Regular := fun value member => (values value member).regular
  have vertices : graph.vertices.traverse Scalar.reread = .ok graph.vertices :=
    KeyMap.traverse_eq_self fun value member => (values value member).reread_eq
  have heads : (graph.heads.traverse fun heads => heads.traverse Weight.reread)
      = .ok graph.heads := by
    refine KeyMap.traverse_eq_self fun heads listed =>
      KeyMap.traverse_eq_self fun weight member => ?_
    obtain ⟨edge, drawn, rfl⟩ := exists_mem_edges listed member
    exact (weights edge drawn).reread_eq
  have whole : graph.reread = .ok graph := by
    rw [reread, vertices, heads]
    rfl
  exact ⟨(ofJson_json regular .compact).trans whole, (ofJson_json regular (.spread 0)).trans whole⟩

/-- Keys with marks and without characters, a leap second at an offset, and a tail without heads. -/
theorem json_round_trip_of_leap_second
    : ∃ t,
        Token.timestamp? "2016-12-31t23:59:60.25-01:00" = some t
        ∧ let graph : Graph :=
            ⟨.ofList [("", .timestamp t), ("a\"\n", .float (5 / 2)), ("é", .text "2016-12")],
              .ofList [("\\", .ofList [("é", .neg (5 / 2))]), ("lone", .empty)]⟩
          (∀ value ∈ graph.vertices.values, value.Lasting)
          ∧ (∀ edge ∈ graph.edges, Weight.Lasting edge.weight)
          ∧ Graph.ofJson (graph.json .compact) = .ok graph
          ∧ Graph.ofJson (graph.json (.spread 0)) = .ok graph := by
  obtain ⟨t, read⟩ : ∃ t, Token.timestamp? "2016-12-31t23:59:60.25-01:00" = some t :=
    Option.isSome_iff_exists.mp (by decide +kernel)
  refine ⟨t, read, ?_⟩
  intro graph
  have valued : graph.vertices.values = [.timestamp t, .float (5 / 2), .text "2016-12"] := rfl
  have drawn : graph.edges = [⟨"\\", "é", .neg (5 / 2)⟩] := rfl
  have values : ∀ value ∈ graph.vertices.values, value.Lasting := by
    rw [valued]
    refine List.forall_mem_cons.mpr ⟨⟨_, read⟩, List.forall_mem_cons.mpr ⟨⟨?_, ?_⟩, ?_⟩⟩
    · decide +kernel
    · decide +kernel
    · refine List.forall_mem_singleton.mpr ?_
      unfold Scalar.Lasting
      decide +kernel
  have weights : ∀ edge ∈ graph.edges, Weight.Lasting edge.weight := by
    rw [drawn]
    refine List.forall_mem_singleton.mpr ⟨?_, ?_⟩ <;> decide +kernel
  exact ⟨values, weights, json_round_trip values weights⟩

end Graph

end GraphShell
