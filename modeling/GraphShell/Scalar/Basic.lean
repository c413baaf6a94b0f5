import GraphShell.Decimal.Notation
import GraphShell.Decimal.Reading
import GraphShell.Json.Lexical
import GraphShell.Timestamp.Basic
import GraphShell.Vocabulary

/-! The scalar values of vertices, their written forms in plain text and JSON, and the tokens that
spell them. Numbers are written with the fewest digits that read back. A reader for one kind fails
on every other token; coercion tries the kinds in order and keeps the token as text when none of
them fits.
-/

namespace GraphShell

-----------------------------------------------------------------------------------------
-- Scalars
-----------------------------------------------------------------------------------------

/-- The value of a vertex. -/
inductive Scalar
  | int (value : Int64)
  | float (value : Double)
  | bool (value : Bool)
  | timestamp (value : Timestamp)
  | text (value : String)
deriving DecidableEq, Repr

namespace Json

open Binary

/-- A number literal: the fewest digits that read back, of two equally near ones the even
one. What is not finite has no literal and is null.
-/
def number {f : Format} (style : Decimal.Scientific) (x : Number f) : String :=
  if x.isFinite then String.ofList ((Decimal.shortest .even x).written style) else "null"

/-- Doubles from a hundred-thousandth to just below ten to the sixteenth are written in
positions.
-/
def doubleStyle : Decimal.Scientific := ⟨-5, 15⟩

/-- Single numbers from a millionth to just below ten to the thirteenth are written in
positions.
-/
def singleStyle : Decimal.Scientific := ⟨-6, 12⟩

/-- The literal of a double. -/
def double (x : Double) : String :=
  number doubleStyle x

/-- The literal of a single number. -/
def single (x : Single) : String :=
  number singleStyle x

/-- The literal of a truth value. -/
def bool (b : Bool) : String :=
  if b then "true" else "false"

end Json

namespace Scalar

/-- The plain text of a scalar; a zero offset is written in digits. -/
def display : Scalar → String
  | int value => integerText value
  | float value => Decimal.display value
  | bool value => Json.bool value
  | timestamp value => value.write .digits
  | text value => value

/-- The JSON text of a scalar; timestamps are strings, with a letter for a zero offset. -/
def json : Scalar → String
  | int value => integerText value
  | float value => Json.double value
  | bool value => Json.bool value
  | timestamp value => Json.quote (value.write .letter)
  | text value => Json.quote value

end Scalar

end GraphShell

namespace GraphShell.Token

-----------------------------------------------------------------------------------------
-- Tokens
-----------------------------------------------------------------------------------------

/-- A 64-bit integer: an optional sign and decimal digits. -/
def int? (token : String) : Option Int64 :=
  ((Text.readInteger? token.toList).filter fun n =>
    Int64.minValue.toInt ≤ n ∧ n ≤ Int64.maxValue.toInt).map Int64.ofInt

/-- A number text whose nearest double is finite. -/
def float? (token : String) : Option Double :=
  (Decimal.readNumber? .double token.toList).filter Binary.Number.isFinite

/-- One of the two truth words. -/
def bool? (token : String) : Option Bool :=
  if token = "true" then some true else if token = "false" then some false else none

/-- An internet date-time. -/
def timestamp? (token : String) : Option Timestamp :=
  Timestamp.readStrict? token.toList

/-- A number text whose nearest double is still finite as a single number. -/
def weight? (token : String) : Option Single :=
  ((float? token).map (Binary.Number.convert .single)).filter Binary.Number.isFinite

/-- The scalar that a token stands for: integer before float before truth value before
timestamp, and else the text itself.
-/
def coerce (token : String) : Scalar :=
  (int? token).map Scalar.int
    <|> (float? token).map Scalar.float
    <|> (bool? token).map Scalar.bool
    <|> (timestamp? token).map Scalar.timestamp
    |>.getD (.text token)

end GraphShell.Token
