import GraphShell.Decimal.Reading

/-! How numbers are written: with the fewest digits that read back as the same binary number, or
rounded to a fixed count of places; in positions throughout, or with a power of ten where a style
asks for it. The digits are found on whole numbers: every finite binary number is a whole count of
the decimal place where its least unit ends.
-/

namespace GraphShell.Decimal

-----------------------------------------------------------------------------------------
-- Digits
-----------------------------------------------------------------------------------------

open Binary

/-- Which of two equally near candidates is written. -/
inductive Tie
  | up
  | even
deriving DecidableEq, Repr

/-- The numbers that round to one binary number: those between the middles of the gaps
beside it, with the middles themselves if its position is even.
-/
structure Neighbourhood where
  low : Nat
  value : Nat
  high : Nat
  closed : Bool

/-- Whether a point lies in the neighbourhood. -/
def Neighbourhood.contains (n : Neighbourhood) (point : Nat) : Bool :=
  if n.closed then n.low ≤ point && point ≤ n.high else n.low < point && point < n.high

/-- The neighbourhood of a positive finite magnitude, counted in halves of the least unit
written out in decimal places.
-/
def Neighbourhood.of (f : Format) (position : Nat) : Neighbourhood :=
  let here := f.units position
  let step := Nat.pow 5 (f.scale + 1)
  ⟨(f.units (position - 1) + here) * step, 2 * here * step,
    (here + f.units (position + 1)) * step, position % 2 = 0⟩

/-- The multiple of `unit` that the neighbourhood holds, if it holds one: the nearer one of
the two beside the value.
-/
def Neighbourhood.multiple? (n : Neighbourhood) (tie : Tie) (unit : Nat) : Option Nat :=
  let below := n.value / unit
  let down := n.value - below * unit
  let up := (below + 1) * unit - n.value
  match n.contains (below * unit), n.contains ((below + 1) * unit) with
  | true, true =>
      if down < up then some below
      else if up < down then some (below + 1)
      else match tie with
        | .up => some (below + 1)
        | .even => some (below + below % 2)
  | true, false => some below
  | false, true => some (below + 1)
  | false, false => none

/-- The coarsest decimal place, at or below the given one, with a multiple in the
neighbourhood: the multiple and the place.
-/
def Neighbourhood.coarsest (n : Neighbourhood) (tie : Tie) : Nat → Nat × Nat
  | 0 => (n.value, 0)
  | place + 1 =>
      match n.multiple? tie (Nat.pow 10 (place + 1)) with
      | some digits => (digits, place + 1)
      | none => n.coarsest tie place

/-- The decimal with the fewest digits that rounds to the finite number `x`, and of those
the one nearest to it.
-/
def shortest {f : Format} (tie : Tie) (x : Number f) : Decimal :=
  if x.isZero then ⟨x.negative, 0, 0⟩
  else
    let n := Neighbourhood.of f x.magnitude
    let (digits, place) := n.coarsest tie (n.high.log2 / 3 + 1)
    ⟨x.negative, digits, place - ((f.scale : Int) + 1)⟩

/-- The whole number nearest to a quotient, ties to the even one. -/
def roundQuotient (numerator denominator : Nat) : Nat :=
  let below := numerator / denominator
  let rest := 2 * (numerator % denominator)
  if rest < denominator then below
  else if denominator < rest then below + 1
  else below + below % 2

/-- The decimal with `places` digits behind the point nearest to the finite number `x`. -/
def rounded {f : Format} (places : Nat) (x : Number f) : Decimal :=
  ⟨x.negative, roundQuotient (x.magnitudeUnits * Nat.pow 10 places) (Nat.pow 2 f.scale),
    -(places : Int)⟩

-----------------------------------------------------------------------------------------
-- Texts
-----------------------------------------------------------------------------------------

/-- The digits with a point so that `places` of them are behind it; none for no places. -/
def pointed (digits : List Char) (places : Nat) : List Char :=
  if places = 0 then digits
  else
    let padded := List.replicate (places + 1 - digits.length) '0' ++ digits
    padded.take (padded.length - places) ++ '.' :: padded.drop (padded.length - places)

/-- The sign of a decimal as text. -/
def signText (negative : Bool) : List Char :=
  if negative then ['-'] else []

/-- The decimal without a power of ten: zeros fill up to the point, on either side. -/
def positional (d : Decimal) : List Char :=
  let digits := Text.numeral d.significand ++ List.replicate d.exponent.toNat '0'
  signText d.negative ++ pointed digits (-d.exponent).toNat

/-- The number in positions, with the fewest digits that read back. -/
def display {f : Format} (x : Number f) : String :=
  if x.isNaN then "NaN"
  else if !x.isFinite then String.ofList (signText x.negative ++ "inf".toList)
  else String.ofList (shortest .up x).positional

/-- The number in positions with a fixed count of places. -/
def displayRounded {f : Format} (places : Nat) (x : Number f) : String :=
  if x.isNaN then "NaN"
  else if !x.isFinite then String.ofList (signText x.negative ++ "inf".toList)
  else String.ofList (rounded places x).positional

/-- The powers of ten of leading digits that a number style writes in positions. -/
structure Scientific where
  least : Int
  most : Int
deriving DecidableEq, Repr

/-- The decimal with a power of ten behind it: one digit before the point, the sign of the
power always written.
-/
def scientific (d : Decimal) : List Char :=
  let digits := Text.numeral d.significand
  let power := d.exponent + (digits.length - 1 : Nat)
  signText d.negative ++ pointed digits (digits.length - 1)
    ++ 'e' :: (if power < 0 then '-' else '+') :: Text.numeral power.natAbs

/-- The decimal in positions with a digit behind the point, or with a power of ten where
the style ends.
-/
def written (style : Scientific) (d : Decimal) : List Char :=
  let power := d.exponent + ((Text.numeral d.significand).length - 1 : Nat)
  if d.significand ≠ 0 ∧ (power < style.least ∨ style.most < power) then d.scientific
  else if 0 ≤ d.exponent then d.positional ++ ['.', '0']
  else d.positional

end GraphShell.Decimal
