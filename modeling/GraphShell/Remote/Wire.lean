import GraphShell.Graph.Decoding
import GraphShell.Store.Basic

/-! The JSON bodies that go to and from a store on the network. Each is a record whose fields
are all required; what is written has them in order.
-/

namespace GraphShell.Wire

open Json

/-- Asks to keep the value of a key. -/
structure VertexWrite where
  key : String
  value : Scalar
  ttlSeconds : Nat
deriving DecidableEq, Repr

/-- Asks to keep the weight of an edge. -/
structure EdgeWrite where
  tail : String
  head : String
  weight : Weight
  ttlSeconds : Nat
deriving DecidableEq, Repr

/-- Answers with the weight of an edge. -/
structure EdgeWeight where
  weight : Weight
deriving DecidableEq, Repr

/-- Asks for the neighbourhood of a seed. -/
structure Neighbourhood where
  seed : String
  step : Int64
  k : Int64
  tfidf : Bool
deriving DecidableEq, Repr

/-- The literal of a count. -/
def countText (n : Nat) : String :=
  String.ofList (Text.numeral n)

/-- A field that is kept by a function of its value and found by another. -/
def field {σ α : Type} (name : String) (get : σ → Option α) (put : α → σ → σ)
    (decoder : Decoder α) : RecordField σ :=
  ⟨name, fun draft => (get draft).isSome, decoder.map put⟩

namespace VertexWrite

/-- The JSON text. -/
def json (body : VertexWrite) : String :=
  Layout.compact.object
    [("key", quote body.key), ("value", body.value.json),
      ("ttl_seconds", countText body.ttlSeconds)]

/-- The fields given so far. -/
structure Draft where
  key : Option String
  value : Option Scalar
  ttlSeconds : Option Nat

/-- The fields in order. -/
def shape : Shape Draft VertexWrite where
  start := ⟨none, none, none⟩
  fields :=
    [field "key" Draft.key (fun key draft => { draft with key := some key }) Decoder.string,
      field "value" Draft.value (fun value draft => { draft with value := some value })
        Scalar.decoder,
      field "ttl_seconds" Draft.ttlSeconds
        (fun seconds draft => { draft with ttlSeconds := some seconds }) Decoder.count]
  finish draft := do return ⟨← draft.key, ← draft.value, ← draft.ttlSeconds⟩

/-- The body of a JSON text. -/
def ofJson (source : String) : Except Fault VertexWrite :=
  decode shape.decoder source

end VertexWrite

namespace EdgeWrite

/-- The JSON text. -/
def json (body : EdgeWrite) : String :=
  Layout.compact.object
    [("tail", quote body.tail), ("head", quote body.head), ("weight", single body.weight),
      ("ttl_seconds", countText body.ttlSeconds)]

/-- The fields given so far. -/
structure Draft where
  tail : Option String
  head : Option String
  weight : Option Weight
  ttlSeconds : Option Nat

/-- The fields in order. -/
def shape : Shape Draft EdgeWrite where
  start := ⟨none, none, none, none⟩
  fields :=
    [field "tail" Draft.tail (fun tail draft => { draft with tail := some tail }) Decoder.string,
      field "head" Draft.head (fun head draft => { draft with head := some head })
        Decoder.string,
      field "weight" Draft.weight (fun weight draft => { draft with weight := some weight })
        Decoder.single,
      field "ttl_seconds" Draft.ttlSeconds
        (fun seconds draft => { draft with ttlSeconds := some seconds }) Decoder.count]
  finish draft := do
    return ⟨← draft.tail, ← draft.head, ← draft.weight, ← draft.ttlSeconds⟩

/-- The body of a JSON text. -/
def ofJson (source : String) : Except Fault EdgeWrite :=
  decode shape.decoder source

end EdgeWrite

namespace EdgeWeight

/-- The JSON text. -/
def json (body : EdgeWeight) : String :=
  Layout.compact.object [("weight", single body.weight)]

/-- The fields in order. -/
def shape : Shape (Option Weight) EdgeWeight where
  start := none
  fields := [field "weight" id (fun weight _ => some weight) Decoder.single]
  finish draft := draft.map EdgeWeight.mk

/-- The body of a JSON text. -/
def ofJson (source : String) : Except Fault EdgeWeight :=
  decode shape.decoder source

end EdgeWeight

namespace Neighbourhood

/-- The JSON text. -/
def json (body : Neighbourhood) : String :=
  Layout.compact.object
    [("seed", quote body.seed), ("step", integerText body.step), ("k", integerText body.k),
      ("tfidf", Json.bool body.tfidf)]

/-- The fields given so far. -/
structure Draft where
  seed : Option String
  step : Option Int64
  k : Option Int64
  tfidf : Option Bool

/-- The fields in order. -/
def shape : Shape Draft Neighbourhood where
  start := ⟨none, none, none, none⟩
  fields :=
    [field "seed" Draft.seed (fun seed draft => { draft with seed := some seed }) Decoder.string,
      field "step" Draft.step (fun step draft => { draft with step := some step }) Decoder.int,
      field "k" Draft.k (fun k draft => { draft with k := some k }) Decoder.int,
      field "tfidf" Draft.tfidf (fun tfidf draft => { draft with tfidf := some tfidf })
        Decoder.bool]
  finish draft := do return ⟨← draft.seed, ← draft.step, ← draft.k, ← draft.tfidf⟩

/-- The body of a JSON text. -/
def ofJson (source : String) : Except Fault Neighbourhood :=
  decode shape.decoder source

end Neighbourhood

end GraphShell.Wire

namespace GraphShell.Vertex

open Json

/-- The JSON text. -/
def json (vertex : Vertex) : String :=
  Layout.compact.object [("key", quote vertex.key), ("value", vertex.value.json)]

/-- The fields given so far. -/
structure Draft where
  key : Option String
  value : Option Scalar

/-- The fields in order. -/
def shape : Shape Draft Vertex where
  start := ⟨none, none⟩
  fields :=
    [Wire.field "key" Draft.key (fun key draft => { draft with key := some key })
        Decoder.string,
      Wire.field "value" Draft.value (fun value draft => { draft with value := some value })
        Scalar.decoder]
  finish draft := do return ⟨← draft.key, ← draft.value⟩

/-- The vertex of a JSON text. -/
def ofJson (source : String) : Except Fault Vertex :=
  decode shape.decoder source

end GraphShell.Vertex
