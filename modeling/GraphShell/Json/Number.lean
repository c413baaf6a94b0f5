import GraphShell.Binary.Arithmetic
import GraphShell.Decimal.Reading
import GraphShell.Json.Lexical

/-! Reading JSON numbers. A number without point and exponent is whole while 64 bits hold it.
Every other number is a significand of 64 bits, scaled once by a power of ten as a double, so
it is not always the nearest one to its text.
-/

namespace GraphShell.Json

open Binary

/-- A number as it was written: a whole one, or a scaled significand. -/
inductive NumberToken
  | whole (value : Int)
  | scaled (value : Double)
deriving DecidableEq, Repr

/-- The powers of ten that are scaled by in one step. -/
def greatestPower : Nat := 308

/-- The double nearest to a power of ten. -/
def powerOfTen (n : Nat) : Double :=
  Decimal.toBinary .double ⟨false, 1, n⟩

/-- The double times a power of ten: one product or quotient, after division by the greatest
power of ten as long as the exponent is below what one step can do. An infinite result is
none.
-/
def scaleByTen (x : Double) (exponent : Int) : Except Fault Double :=
  if exponent.natAbs ≤ greatestPower then
    if 0 ≤ exponent then
      let product := x * powerOfTen exponent.natAbs
      if product.isFinite then .ok product else .error .malformed
    else .ok (x / powerOfTen exponent.natAbs)
  else if x.isZero then .ok x
  else if 0 ≤ exponent then .error .malformed
  else scaleByTen (x / powerOfTen greatestPower) (exponent + greatestPower)
termination_by exponent.natAbs
decreasing_by simp only [greatestPower] at *; omega

/-- The number of a significand and an exponent. -/
def scaledNumber (negative : Bool) (significand : Nat) (exponent : Int)
    : Except Fault NumberToken :=
  (scaleByTen (.ofNat significand) exponent).map fun x =>
    .scaled (if negative then x.neg else x)

/-- Whether the text goes on with a digit. -/
def digitAhead : List Char → Bool
  | [] => false
  | c :: _ => Text.isDigit c

/-- Takes digits into a significand while 64 bits hold it: the significand, the number of
digits taken and the text behind them.
-/
def takeSignificand (significand : Nat) : List Char → Nat × Nat × List Char
  | [] => (significand, 0, [])
  | c :: rest =>
      let next := significand * 10 + (c.toNat - 48)
      if Text.isDigit c && next < UInt64.size then
        let (value, taken, rest) := takeSignificand next rest
        (value, taken + 1, rest)
      else (significand, 0, c :: rest)

/-- The sign of an exponent and the text behind it. -/
def splitExponentSign : List Char → Bool × List Char
  | '-' :: rest => (true, rest)
  | '+' :: rest => (false, rest)
  | text => (false, text)

/-- Exponents past this one are not read as numbers any more. -/
def exponentLimit : Nat := 2147483647

/-- Reads the exponent behind its letter and makes the number. -/
def readExponent (negative : Bool) (significand : Nat) (start : Int) (text : List Char)
    : Except Fault (NumberToken × List Char) :=
  let (down, text) := splitExponentSign text
  let digits := text.takeWhile Text.isDigit
  let rest := text.drop digits.length
  if digits.isEmpty then .error (if text.isEmpty then .truncated else .malformed)
  else
    let exponent := Text.numeralValue digits
    if exponentLimit < exponent then
      if significand ≠ 0 ∧ !down then .error .malformed
      else .ok (.scaled (.zero negative), rest)
    else
      (scaledNumber negative significand (if down then start - exponent else start + exponent)).map
        fun number => (number, rest)

/-- Reads what may follow the digits of a scaled number: an exponent or nothing. -/
def readTail (negative : Bool) (significand : Nat) (exponent : Int) (text : List Char)
    : Except Fault (NumberToken × List Char) :=
  match text with
  | 'e' :: rest | 'E' :: rest => readExponent negative significand exponent rest
  | _ => (scaledNumber negative significand exponent).map fun number => (number, text)

/-- Reads the digits behind the point; those that the significand has no room for are
passed over.
-/
def readPlaces (negative : Bool) (significand : Nat) (exponent : Int) (text : List Char)
    : Except Fault (NumberToken × List Char) :=
  let (value, taken, rest) := takeSignificand significand text
  if taken = 0 && !digitAhead rest then
    .error (if rest.isEmpty then .truncated else .malformed)
  else readTail negative value (exponent - taken) (rest.dropWhile Text.isDigit)

/-- The whole number of a sign and a significand, if 64 bits hold it and it is not a
negative zero; else the double nearest to it.
-/
def wholeNumber (negative : Bool) (significand : Nat) : NumberToken :=
  if !negative then .whole significand
  else if significand = 0 ∨ Nat.pow 2 63 < significand then
    .scaled (Number.ofNat significand : Double).neg
  else .whole (-(significand : Int))

/-- Reads what follows the digits in front of the point; each digit that the significand had
no room for raises the exponent by one.
-/
def readBehindWhole (negative : Bool) (significand : Nat) (text : List Char)
    : Except Fault (NumberToken × List Char) :=
  let extra := text.takeWhile Text.isDigit
  match text.drop extra.length with
  | '.' :: rest => readPlaces negative significand extra.length rest
  | rest =>
      if extra.isEmpty then
        match rest with
        | 'e' :: rest | 'E' :: rest => readExponent negative significand 0 rest
        | _ => .ok (wholeNumber negative significand, rest)
      else readTail negative significand extra.length rest

/-- Reads a number behind its sign. No number but zero begins with a zero. -/
def readUnsigned (negative : Bool) : List Char → Except Fault (NumberToken × List Char)
  | [] => .error .truncated
  | '0' :: rest =>
      if digitAhead rest then .error .malformed else readBehindWhole negative 0 rest
  | text =>
      if digitAhead text then
        let (significand, _, rest) := takeSignificand 0 text
        readBehindWhole negative significand rest
      else .error .malformed

/-- Reads a number. -/
def readNumber : List Char → Except Fault (NumberToken × List Char)
  | '-' :: rest => readUnsigned true rest
  | text => readUnsigned false text

/-- The text behind at least one digit. A number cut short is malformed where its value is
not asked for.
-/
def passDigits (text : List Char) : Except Fault (List Char) :=
  if digitAhead text then .ok (text.dropWhile Text.isDigit) else .error .malformed

/-- The text behind an exponent, if there is one. -/
def passExponent (text : List Char) : Except Fault (List Char) :=
  match text with
  | 'e' :: rest | 'E' :: rest => passDigits (splitExponentSign rest).2
  | _ => .ok text

/-- The text behind a number whose value is not asked for. -/
def passNumber (text : List Char) : Except Fault (List Char) := do
  let unsigned := match text with
    | '-' :: rest => rest
    | _ => text
  let rest ← match unsigned with
    | '0' :: rest => if digitAhead rest then .error .malformed else .ok rest
    | _ => passDigits unsigned
  match rest with
  | '.' :: rest => passDigits rest >>= passExponent
  | _ => passExponent rest

end GraphShell.Json
