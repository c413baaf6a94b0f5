/-! Binary floating-point numbers as signed positions in the list of representable
magnitudes. Every finite magnitude is a whole number of least units, so values, sums and
quotients are compared in exact arithmetic of natural numbers.
-/

namespace GraphShell.Binary

/-- The widths of the two fields of a binary interchange format. -/
structure Format where
  fractionBits : Nat
  exponentBits : Nat
deriving DecidableEq, Repr

/-- Eight exponent bits and twenty-three fraction bits. -/
def Format.single : Format := ⟨23, 8⟩

/-- Eleven exponent bits and fifty-two fraction bits. -/
def Format.double : Format := ⟨52, 11⟩

namespace Format

/-- The number of magnitudes that share one exponent. -/
def binade (f : Format) : Nat :=
  Nat.pow 2 f.fractionBits

/-- The position of infinity: behind all finite magnitudes. -/
def infinity (f : Format) : Nat :=
  (Nat.pow 2 f.exponentBits - 1) * f.binade

/-- The least positive magnitude is `2 ^ -scale`. -/
def scale (f : Format) : Nat :=
  Nat.pow 2 (f.exponentBits - 1) + f.fractionBits - 2

/-- The magnitude at a position, counted in least units. The first two binades are evenly
spaced by one unit, and each later one doubles the spacing.
-/
def units (f : Format) (position : Nat) : Nat :=
  let doublings := position / f.binade - 1
  (position - doublings * f.binade) * Nat.pow 2 doublings

/-- The position of the greatest magnitude that is at most `n` units. -/
def position (f : Format) (n : Nat) : Nat :=
  let doublings := n.log2 - f.fractionBits
  doublings * f.binade + n / Nat.pow 2 doublings

end Format

/-- A number of a binary format: a sign and the position of its magnitude. The position behind
infinity stands for a value that is not a number; it has a sign as well. There is one such value
for each sign: the payloads of the interchange formats, which their total orders also rank, are
left out.
-/
structure Number (f : Format) where
  negative : Bool
  magnitude : Nat
  magnitude_le : magnitude ≤ f.infinity + 1
deriving DecidableEq, Repr

namespace Number

variable {f : Format}

/-- A magnitude below infinity. -/
def isFinite (x : Number f) : Bool :=
  x.magnitude < f.infinity

/-- Not a number: neither a finite magnitude nor infinity. -/
def isNaN (x : Number f) : Bool :=
  f.infinity < x.magnitude

/-- Zero of the given sign. -/
def zero (negative : Bool) : Number f :=
  ⟨negative, 0, Nat.zero_le _⟩

/-- Infinity of the given sign. -/
def infinite (negative : Bool) : Number f :=
  ⟨negative, f.infinity, Nat.le_succ _⟩

/-- The one value that is not a number and has the given sign. -/
def nan (negative : Bool) : Number f :=
  ⟨negative, f.infinity + 1, Nat.le_refl _⟩

/-- The greatest finite number. -/
def greatest (f : Format) : Number f :=
  ⟨false, f.infinity - 1, by omega⟩

/-- The same magnitude under the other sign. -/
def neg (x : Number f) : Number f :=
  { x with negative := !x.negative }

/-- The same magnitude under the given sign. -/
def withSign (x : Number f) (negative : Bool) : Number f :=
  { x with negative := negative }

/-- The magnitude in least units. -/
def magnitudeUnits (x : Number f) : Nat :=
  f.units x.magnitude

/-- The value in least units, with its sign. -/
def units (x : Number f) : Int :=
  if x.negative then -(x.magnitudeUnits : Int) else x.magnitudeUnits

/-- Whether the magnitude is zero. -/
def isZero (x : Number f) : Bool :=
  x.magnitude == 0

end Number

end GraphShell.Binary

namespace GraphShell

/-- Numbers of single precision, which edge weights are. -/
abbrev Single := Binary.Number .single

/-- Numbers of double precision, which scalars and path costs are. -/
abbrev Double := Binary.Number .double

end GraphShell
