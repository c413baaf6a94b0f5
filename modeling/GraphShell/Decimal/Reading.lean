import GraphShell.Binary.Arithmetic
import GraphShell.Text.Numeral

/-! Decimal numbers, a whole significand and a power of ten, and the texts that spell them: an
optional sign, digits with at most one point among or beside them, and an optional power of ten.
The names of infinity and of no number, in any case of letters, are number texts too.
-/

namespace GraphShell

-----------------------------------------------------------------------------------------
-- Decimals
-----------------------------------------------------------------------------------------

/-- The number `significand * 10 ^ exponent`, negative if the sign says so. -/
structure Decimal where
  negative : Bool
  significand : Nat
  exponent : Int
deriving DecidableEq, Repr

namespace Decimal

open Binary

/-- The binary number nearest to a decimal. Powers of ten far outside the format are decided
from the number of digits alone, so that no exponent makes the computation long.
-/
def toBinary (f : Format) (d : Decimal) : Number f :=
  let digits : Int := (Text.numeral d.significand).length
  if d.significand = 0 then .zero d.negative
  else if (f.scale : Int) < d.exponent + digits then .infinite d.negative
  else if d.exponent + digits < -(f.scale : Int) then .zero d.negative
  else
    .ofQuotient d.negative
      (d.significand * Nat.pow 10 d.exponent.toNat * Nat.pow 2 f.scale)
      (Nat.pow 10 (-d.exponent).toNat)

-----------------------------------------------------------------------------------------
-- Number texts
-----------------------------------------------------------------------------------------

/-- A digit run in front of a text, and what follows it. -/
def splitDigits (text : List Char) : List Char × List Char :=
  (text.takeWhile Text.isDigit, text.dropWhile Text.isDigit)

/-- Reads the power of ten behind the digits; none is the power zero. -/
def readExponent? : List Char → Option Int
  | [] => some 0
  | c :: rest => if c = 'e' ∨ c = 'E' then Text.readInteger? rest else none

/-- Reads an unsigned decimal: digits on at least one side of an optional point. -/
def readUnsigned? (negative : Bool) (text : List Char) : Option Decimal :=
  let (whole, behind) := splitDigits text
  let (places, rest) := match behind with
    | '.' :: behind => splitDigits behind
    | _ => ([], behind)
  if (whole ++ places).isEmpty then none
  else
    (readExponent? rest).map fun exponent =>
      ⟨negative, Text.numeralValue (whole ++ places), exponent - places.length⟩

/-- The sign in front of a text, negative or not, and the text behind it. -/
def splitSign : List Char → Bool × List Char
  | '-' :: rest => (true, rest)
  | '+' :: rest => (false, rest)
  | text => (false, text)

/-- Reads a number text as the nearest number of a format. -/
def readNumber? (f : Format) (text : List Char) : Option (Number f) :=
  let (negative, rest) := splitSign text
  let name := String.ofList (rest.map Char.toLower)
  if name = "inf" ∨ name = "infinity" then some (.infinite negative)
  else if name = "nan" then some (.nan negative)
  else (readUnsigned? negative rest).map (toBinary f)

end Decimal

end GraphShell
