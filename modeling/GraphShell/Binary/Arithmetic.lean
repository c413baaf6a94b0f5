import GraphShell.Binary.Format

/-! Arithmetic and comparison of binary numbers. Each operation computes its exact result and
rounds it once, ties to the even position; an operand that is not a number comes through
unchanged, the first one first, and an operation without a value gives the negative value that is
not a number. The natural logarithm is rounded once from a fixed-point value with 128 places.
-/

namespace GraphShell.Binary

-----------------------------------------------------------------------------------------
-- Rounding
-----------------------------------------------------------------------------------------

/-- The position nearest to `numerator / denominator` least units, ties to the even
position; never past infinity. The magnitude one step past the greatest finite one serves
as the far end of the last gap.
-/
def Format.nearest (f : Format) (numerator denominator : Nat) : Nat :=
  let below := f.position (numerator / denominator)
  if f.infinity ≤ below then f.infinity
  else
    let middle := (f.units below + f.units (below + 1)) * denominator
    if 2 * numerator < middle then below
    else if middle < 2 * numerator then below + 1
    else if below % 2 = 0 then below
    else below + 1

/-- Rounding stays within the finite magnitudes and infinity. -/
theorem Format.nearest_le (f : Format) (numerator denominator : Nat)
    : f.nearest numerator denominator ≤ f.infinity := by
  simp only [Format.nearest]
  repeat' split
  all_goals omega

namespace Number

variable {f : Format}

/-- The number nearest to a quotient of least units, under the given sign. -/
def ofQuotient (negative : Bool) (numerator denominator : Nat) : Number f :=
  ⟨negative, f.nearest numerator denominator,
    Nat.le_trans (f.nearest_le numerator denominator) (Nat.le_succ _)⟩

/-- The number nearest to a whole number. -/
def ofNat (n : Nat) : Number f :=
  ofQuotient false (n * Nat.pow 2 f.scale) 1

/-- The number nearest to an integer. -/
def ofInt (n : Int) : Number f :=
  ofQuotient (n < 0) (n.natAbs * Nat.pow 2 f.scale) 1

/-- The number of another format nearest to `x`; infinity and values that are not numbers
keep their kind, and every sign is kept.
-/
def convert (g : Format) (x : Number f) : Number g :=
  if x.isNaN then nan x.negative
  else if x.isFinite then
    ofQuotient x.negative (x.magnitudeUnits * Nat.pow 2 g.scale) (Nat.pow 2 f.scale)
  else infinite x.negative

end Number

end GraphShell.Binary

namespace GraphShell.Binary.Number

-----------------------------------------------------------------------------------------
-- Operations
-----------------------------------------------------------------------------------------

variable {f : Format}

/-- The sum. An exact zero is positive unless both terms are negative zeros. -/
def add (x y : Number f) : Number f :=
  if x.isNaN then x
  else if y.isNaN then y
  else if x.isFinite then
    if y.isFinite then
      let sum := x.units + y.units
      if sum = 0 then zero (x.negative && y.negative)
      else ofQuotient (sum < 0) sum.natAbs 1
    else y
  else if y.isFinite || x.negative == y.negative then x
  else nan true

/-- The product. -/
def mul (x y : Number f) : Number f :=
  let negative := x.negative != y.negative
  if x.isNaN then x
  else if y.isNaN then y
  else if x.isFinite && y.isFinite then
    ofQuotient negative (x.magnitudeUnits * y.magnitudeUnits) (Nat.pow 2 f.scale)
  else if x.isZero || y.isZero then nan true
  else infinite negative

/-- The quotient. -/
def div (x y : Number f) : Number f :=
  let negative := x.negative != y.negative
  if x.isNaN then x
  else if y.isNaN then y
  else if x.isFinite then
    if !y.isFinite then zero negative
    else if y.isZero then if x.isZero then nan true else infinite negative
    else ofQuotient negative (x.magnitudeUnits * Nat.pow 2 f.scale) y.magnitudeUnits
  else if y.isFinite then infinite negative
  else nan true

instance : Add (Number f) := ⟨add⟩

instance : Mul (Number f) := ⟨mul⟩

instance : Div (Number f) := ⟨div⟩

instance (n : Nat) : OfNat (Number f) n := ⟨ofNat n⟩

/-- The place of a number on the line of its format, where the two zeros share the middle. -/
def place (x : Number f) : Int :=
  if x.negative then -(x.magnitude : Int) else x.magnitude

/-- Numeric order; false when either side is not a number. -/
def lt (x y : Number f) : Bool :=
  !x.isNaN && !y.isNaN && x.place < y.place

/-- The rank of a number in the total order of a format: negative values before positive
ones, the zeros apart, and values that are not numbers outermost on the side of their sign.
-/
def rank (x : Number f) : Int :=
  if x.negative then -(x.magnitude : Int) - 1 else x.magnitude

/-- The greater of two numbers, zero being above negative zero; the other one when one is not
a number.
-/
def max (x y : Number f) : Number f :=
  if x.isNaN || (!y.isNaN && x.rank < y.rank) then y else x

end GraphShell.Binary.Number

namespace GraphShell.Binary

-----------------------------------------------------------------------------------------
-- Logarithms
-----------------------------------------------------------------------------------------

/-- The places behind the point of the fixed-point values. -/
def Logarithm.places : Nat := 128

/-- The value one in fixed point. -/
def Logarithm.one : Nat := Nat.pow 2 Logarithm.places

/-- The sum of `power / (2 * k + 1)`, where the power is multiplied by `square` from term
to term; it ends with its terms.
-/
def Logarithm.series (square : Nat) : Nat → Nat → Nat → Nat
  | 0, _, _ => 0
  | terms + 1, k, power =>
      power / (2 * k + 1)
        + Logarithm.series square terms (k + 1) (power * square / Logarithm.one)

/-- The logarithm of `numerator / denominator`, at least one and at most two, in fixed point:
twice the area tangent of the quotient of difference and sum.
-/
def Logarithm.near (numerator denominator : Nat) : Nat :=
  let ratio := (numerator - denominator) * Logarithm.one / (numerator + denominator)
  2 * Logarithm.series (ratio * ratio / Logarithm.one) Logarithm.places 0 ratio

/-- The natural logarithm: of zero negative infinity, of a negative number no number. -/
def Number.ln (x : Double) : Double :=
  if x.isNaN then x
  else if x.isZero then .infinite true
  else if x.negative then .nan true
  else if !x.isFinite then x
  else
    let n := x.magnitudeUnits
    let exponent := (n.log2 : Int) - Format.double.scale
    let value := exponent * Logarithm.near 2 1 + Logarithm.near n (Nat.pow 2 n.log2)
    .ofQuotient (value < 0) (value.natAbs * Nat.pow 2 Format.double.scale) Logarithm.one

end GraphShell.Binary
