import GraphShell.Json.Number
import GraphShell.KeyMap

/-! Decoders of JSON values: strings, numbers, maps and records. A record may be written as an
object or as a list of its fields in order. A value that was asked for in another shape is read as
strictly as any other; one under an unknown name of an object is only skimmed.
-/

namespace GraphShell.Json

-----------------------------------------------------------------------------------------
-- Passing over values
-----------------------------------------------------------------------------------------

/-- How closely a passed value is read: with every number and string checked and a limit on
nesting, or for its form only.
-/
inductive Care
  | strict (levels : Nat)
  | skim
deriving DecidableEq, Repr

/-- What encloses the place that is read. -/
inductive Frame
  | list
  | object
deriving DecidableEq, Repr

/-- Whether one more level may be entered inside the given number of them. -/
def Care.admits (care : Care) (entered : Nat) : Bool :=
  match care with
  | .strict levels => entered + 1 < levels
  | .skim => true

/-- The text behind a string's opening quote, characters and closing quote. -/
def Care.passString (care : Care) (text : List Char) : Except Fault (List Char) :=
  match care with
  | .strict _ => (readString text).map Prod.snd
  | .skim => Json.passString text

/-- The text behind a number. -/
def Care.passNumber (care : Care) (text : List Char) : Except Fault (List Char) :=
  match care with
  | .strict _ => (readNumber text).map Prod.snd
  | .skim => Json.passNumber text

/-- The text behind the colon of a field. -/
def skipColon (text : List Char) : Except Fault (List Char) :=
  match skipSpace text with
  | [] => .error .truncated
  | ':' :: rest => .ok rest
  | _ => .error .malformed

/-- The text behind the name of a field and its colon. -/
def Care.passName (care : Care) (text : List Char) : Except Fault (List Char) :=
  match skipSpace text with
  | [] => .error .truncated
  | '"' :: rest => care.passString rest >>= skipColon
  | _ => .error .malformed

/-- The text behind a constant, a number or a string. -/
def Care.passLeaf (care : Care) (text : List Char) : Except Fault (List Char) :=
  match text with
  | [] => .error .truncated
  | 'n' :: rest => skipName ['u', 'l', 'l'] rest
  | 't' :: rest => skipName ['r', 'u', 'e'] rest
  | 'f' :: rest => skipName ['a', 'l', 's', 'e'] rest
  | '"' :: rest => care.passString rest
  | c :: _ => if c = '-' || Text.isDigit c then care.passNumber text else .error .malformed

mutual

/-- The text behind a value and behind all that encloses it. The number of steps is bounded
by twice the length of the text, since of two steps one takes a character.
-/
def Care.passValue (care : Care) : Nat → List Frame → List Char → Except Fault (List Char)
  | 0, _, _ => .error .truncated
  | steps + 1, frames, text =>
      match skipSpace text with
      | '[' :: rest =>
          if !care.admits frames.length then .error .malformed
          else
            match skipSpace rest with
            | ']' :: rest => Care.passRest care steps frames rest
            | rest => Care.passValue care steps (.list :: frames) rest
      | '{' :: rest =>
          if !care.admits frames.length then .error .malformed
          else
            match skipSpace rest with
            | '}' :: rest => Care.passRest care steps frames rest
            | rest => do
                Care.passValue care steps (.object :: frames) (← care.passName rest)
      | text => do Care.passRest care steps frames (← care.passLeaf text)

/-- The text behind all that encloses a value that has just been passed. -/
def Care.passRest (care : Care) : Nat → List Frame → List Char → Except Fault (List Char)
  | 0, _, _ => .error .truncated
  | _ + 1, [], text => .ok text
  | steps + 1, frame :: frames, text =>
      match frame, skipSpace text with
      | _, [] => .error .truncated
      | .list, ',' :: rest => Care.passValue care steps (frame :: frames) rest
      | .list, ']' :: rest => Care.passRest care steps frames rest
      | .object, ',' :: rest => do
          Care.passValue care steps (frame :: frames) (← care.passName rest)
      | .object, '}' :: rest => Care.passRest care steps frames rest
      | _, _ => .error .malformed

end

/-- The text behind a value. -/
def Care.pass (care : Care) (text : List Char) : Except Fault (List Char) :=
  care.passValue (2 * text.length + 2) [] text

-----------------------------------------------------------------------------------------
-- Decoders
-----------------------------------------------------------------------------------------

open Binary

/-- Reads a value from the front of a text; the number is how many levels of nesting are
left, one more than may be entered.
-/
abbrev Decoder (α : Type) := Nat → List Char → Except Fault (α × List Char)

namespace Decoder

variable {α β : Type}

/-- The levels of nesting that a whole text has. -/
def levels : Nat := 128

/-- The decoder with its result changed by a function. -/
def map (change : α → β) (decoder : Decoder α) : Decoder β :=
  fun levels text => (decoder levels text).map fun (value, rest) => (change value, rest)

/-- What is wrong with a value that has another shape than the one asked for; it is read
first as far as its own shape is concerned, but lists and objects are not entered.
-/
def mismatch (text : List Char) : Fault :=
  match text with
  | '[' :: _ | '{' :: _ => .mismatched
  | _ =>
      match (Care.strict levels).passLeaf text with
      | .error fault => fault
      | .ok _ => .mismatched

/-- A string. -/
def string : Decoder String := fun _ text =>
  match skipSpace text with
  | '"' :: rest => (readString rest).map fun (read, rest) => (String.ofList read, rest)
  | text => .error (mismatch text)

/-- A truth value. -/
def bool : Decoder Bool := fun _ text =>
  match skipSpace text with
  | 't' :: rest => (skipName ['r', 'u', 'e'] rest).map fun rest => (true, rest)
  | 'f' :: rest => (skipName ['a', 'l', 's', 'e'] rest).map fun rest => (false, rest)
  | text => .error (mismatch text)

/-- Whether a text goes on with a number. -/
def numberAhead : List Char → Bool
  | [] => false
  | c :: _ => c = '-' || Text.isDigit c

/-- A number that a function accepts. -/
def number (accept : NumberToken → Option α) : Decoder α := fun _ text =>
  let text := skipSpace text
  if numberAhead text then do
    let (token, rest) ← readNumber text
    match accept token with
    | some value => .ok (value, rest)
    | none => .error .mismatched
  else .error (mismatch text)

/-- A whole number from `low` on and below `limit`. -/
def whole (low limit : Int) : Decoder Int :=
  number fun
    | .whole value => if low ≤ value ∧ value < limit then some value else none
    | .scaled _ => none

/-- A signed 64-bit integer. -/
def int : Decoder Int64 :=
  (whole Int64.minValue.toInt (Int64.maxValue.toInt + 1)).map Int64.ofInt

/-- An unsigned 64-bit count. -/
def count : Decoder Nat :=
  (whole 0 UInt64.size).map Int.toNat

/-- A number of single precision: the one nearest to a whole number, or to the double that
any other number is read as.
-/
def single : Decoder Single :=
  number fun
    | .whole value => some (.ofInt value)
    | .scaled value => some (value.convert .single)

/-- Enters a level of nesting. -/
def enter (levels : Nat) (decode : Nat → Except Fault α) : Except Fault α :=
  if levels ≤ 1 then .error .malformed else decode (levels - 1)

/-- The text behind the opening quote of the next field's name, or none at the end of the
object; a comma stands before every field but the first.
-/
def nextField (first : Bool) (text : List Char) : Except Fault (Option (List Char)) :=
  match skipSpace text with
  | [] => .error .truncated
  | '}' :: _ => .ok none
  | c :: rest =>
      if first then
        if c = '"' then .ok (some rest) else .error .malformed
      else if c = ',' then
        match skipSpace rest with
        | [] => .error .truncated
        | '"' :: rest => .ok (some rest)
        | _ => .error .malformed
      else .error .malformed

/-- The text in front of the next element, or none at the end of the list; a comma stands
before every element but the first.
-/
def nextElement (first : Bool) (text : List Char) : Except Fault (Option (List Char)) :=
  match skipSpace text with
  | [] => .error .truncated
  | ']' :: _ => .ok none
  | c :: rest =>
      if first then .ok (some (c :: rest))
      else if c = ',' then
        match skipSpace rest with
        | [] => .error .truncated
        | ']' :: _ => .error .malformed
        | rest => .ok (some rest)
      else .error .malformed

/-- The text behind the bracket that has to close here. -/
def close (bracket : Char) (text : List Char) : Except Fault (List Char) :=
  match skipSpace text with
  | [] => .error .truncated
  | c :: rest => if c = bracket then .ok rest else .error .malformed

/-- The fields of an object up to its end, each taken in by `field`, which gets the name and
the text behind it. The number of fields is bounded by the length of the text.
-/
def fields {σ : Type} (field : String → σ → List Char → Except Fault (σ × List Char))
    : Nat → Bool → σ → List Char → Except Fault (σ × List Char)
  | 0, _, _, _ => .error .truncated
  | steps + 1, first, state, text => do
      match ← nextField first text with
      | none => .ok (state, text)
      | some rest =>
          let (name, rest) ← readString rest
          let (state, rest) ← field (String.ofList name) state rest
          fields field steps false state rest

/-- An object with any names, all of whose values are of one kind; of two fields with one
name the later one counts.
-/
def keyMap (value : Decoder α) : Decoder (KeyMap α) := fun levels text =>
  match skipSpace text with
  | [] => .error .truncated
  | '{' :: rest =>
      enter levels fun levels => do
        let field := fun name (entries : KeyMap α) text => do
          let (content, rest) ← skipColon text >>= value levels
          .ok (entries.insert name content, rest)
        let (entries, rest) ← fields field (rest.length + 1) true .empty rest
        .ok (entries, ← close '}' rest)
  | text => .error (mismatch text)

end Decoder

/-- A field of a record under construction: its name, whether it has been given, and how its
value is read and put in.
-/
structure RecordField (σ : Type) where
  name : String
  isGiven : σ → Bool
  decoder : Decoder (σ → σ)

/-- The fields of a record in order, the state before any is given, and the record of a
state, unless a field is missing in it.
-/
structure Shape (σ α : Type) where
  start : σ
  fields : List (RecordField σ)
  finish : σ → Option α

namespace Shape

variable {σ α : Type}

/-- Takes in one field of an object. A field given twice does not fit; an unknown one is
skimmed.
-/
def takeField (shape : Shape σ α) (levels : Nat) (name : String) (state : σ)
    (text : List Char)
    : Except Fault (σ × List Char) :=
  match shape.fields.find? fun field => field.name = name with
  | none => do
      let rest ← skipColon text >>= Care.skim.pass
      .ok (state, rest)
  | some field =>
      if field.isGiven state then .error .mismatched
      else do
        let (put, rest) ← skipColon text >>= field.decoder levels
        .ok (put state, rest)

/-- Takes in the elements of a list as the fields in order, up to the end of either. -/
def takeElements (levels : Nat)
    : List (RecordField σ) → Bool → σ → List Char → Except Fault (σ × List Char)
  | [], _, state, text => .ok (state, text)
  | field :: others, first, state, text => do
      match ← Decoder.nextElement first text with
      | none => .ok (state, text)
      | some rest =>
          let (put, rest) ← field.decoder levels rest
          takeElements levels others false (put state) rest

/-- The record of a state; a missing field does not fit. -/
def complete (shape : Shape σ α) (state : σ) : Except Fault α :=
  (shape.finish state).elim (.error .mismatched) .ok

/-- A list is closed behind the last field; anything else there, a comma included, breaks
its form.
-/
def decoder (shape : Shape σ α) : Decoder α := fun levels text =>
  match skipSpace text with
  | [] => .error .truncated
  | '[' :: rest =>
      Decoder.enter levels fun levels => do
        let (state, rest) ← takeElements levels shape.fields true shape.start rest
        let record ← shape.complete state
        .ok (record, ← Decoder.close ']' rest)
  | '{' :: rest =>
      Decoder.enter levels fun levels => do
        let (state, rest) ←
          Decoder.fields (shape.takeField levels) (rest.length + 1) true shape.start rest
        let record ← shape.complete state
        .ok (record, ← Decoder.close '}' rest)
  | text => .error (Decoder.mismatch text)

end Shape

/-- The value of a whole text; nothing but blanks may follow it. -/
def decode {α : Type} (decoder : Decoder α) (text : String) : Except Fault α := do
  let (value, rest) ← decoder Decoder.levels text.toList
  if (skipSpace rest).isEmpty then .ok value else .error .malformed

end GraphShell.Json
