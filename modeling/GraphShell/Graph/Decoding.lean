import GraphShell.Graph.Basic
import GraphShell.Json.Decoder
import GraphShell.Scalar.Basic
import GraphShell.Timestamp.Basic

/-! Scalars and graphs read from JSON. The kind of a scalar is guessed from the value alone: whole
numbers, other numbers, truth values, date-times in the relaxed form, and any other string as
text. A graph is a record of vertices and edges, either of which may be missing.
-/

namespace GraphShell.Scalar

-----------------------------------------------------------------------------------------
-- Scalars
-----------------------------------------------------------------------------------------

open Json

/-- The scalar of a number: an integer if it is whole and 64 bits hold it with a sign. -/
def ofNumber : NumberToken → Scalar
  | .whole value =>
      if value ≤ Int64.maxValue.toInt then int (Int64.ofInt value) else float (.ofInt value)
  | .scaled value => float value

/-- The scalar of a string. -/
def ofString (content : List Char) : Scalar :=
  (Timestamp.readRelaxed? content).elim (text (String.ofList content)) timestamp

/-- Reads a scalar. Null, lists and objects are read to their end, and do not fit. -/
def decoder : Decoder Scalar := fun levels source =>
  match skipSpace source with
  | [] => .error .truncated
  | '"' :: rest => (readString rest).map fun (content, rest) => (ofString content, rest)
  | 't' :: rest => (skipName ['r', 'u', 'e'] rest).map fun rest => (bool true, rest)
  | 'f' :: rest => (skipName ['a', 'l', 's', 'e'] rest).map fun rest => (bool false, rest)
  | source =>
      if Decoder.numberAhead source then
        (readNumber source).map fun (number, rest) => (ofNumber number, rest)
      else do
        let _ ← (Care.strict levels).pass source
        .error .mismatched

/-- The scalar of a JSON text. -/
def ofJson (source : String) : Except Fault Scalar :=
  decode decoder source

end GraphShell.Scalar

namespace GraphShell.Graph

-----------------------------------------------------------------------------------------
-- Graphs
-----------------------------------------------------------------------------------------

open Json

/-- The parts of a graph that have been given. -/
structure Draft where
  vertices : Option (KeyMap Scalar)
  heads : Option (KeyMap (KeyMap Weight))

/-- The fields of a graph; a missing one is empty. -/
def shape : Shape Draft Graph where
  start := ⟨none, none⟩
  fields :=
    [⟨"vertices", fun draft => draft.vertices.isSome,
        (Decoder.keyMap Scalar.decoder).map fun vertices draft =>
          { draft with vertices := some vertices }⟩,
      ⟨"edges", fun draft => draft.heads.isSome,
        (Decoder.keyMap (Decoder.keyMap Decoder.single)).map fun heads draft =>
          { draft with heads := some heads }⟩]
  finish draft := some ⟨draft.vertices.getD .empty, draft.heads.getD .empty⟩

/-- Reads a graph. -/
def decoder : Decoder Graph :=
  shape.decoder

/-- The graph of a JSON text. -/
def ofJson (source : String) : Except Fault Graph :=
  decode decoder source

end GraphShell.Graph
