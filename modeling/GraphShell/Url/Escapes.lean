import GraphShell.Text.Numeral
import GraphShell.Text.Splitting

/-! Two ways to write any text in ASCII. A percent escape is a byte written as a percent sign and
two hexadecimal digits; every part of an address has its own characters that need one, and
controls and what is not ASCII always do. In punycode the ASCII characters come first; behind the
last hyphen, numbers say where each of the others goes, in the order of their code points. A
number is written with the digit of least weight first, and thresholds that follow the numbers
before it tell where it ends.
-/

namespace GraphShell.Percent

-----------------------------------------------------------------------------------------
-- Percent escapes
-----------------------------------------------------------------------------------------

/-- A set of ASCII characters that do not stand for themselves. -/
abbrev Escapes := Char → Bool

/-- The escape of a byte. -/
def escape (byte : UInt8) : List Char :=
  ['%', (Text.hexDigit (byte.toNat / 16)).toUpper, (Text.hexDigit (byte.toNat % 16)).toUpper]

/-- Whether a character needs an escape: it is a control, not ASCII, or in the set. -/
def needsEscape (escapes : Escapes) (c : Char) : Bool :=
  c.toNat < 0x20 || 0x7F ≤ c.toNat || escapes c

/-- The text with the characters that need it escaped, byte by byte. -/
def encode (escapes : Escapes) (text : List Char) : List Char :=
  text.flatMap fun c =>
    if needsEscape escapes c then (String.utf8EncodeChar c).flatMap escape else [c]

/-- The bytes of a text with its escapes undone; a percent sign without two digits behind it
stands for itself.
-/
def decode : List Char → List UInt8
  | [] => []
  | '%' :: a :: b :: rest =>
      match Text.hexValue? a, Text.hexValue? b with
      | some high, some low => UInt8.ofNat (16 * high + low) :: decode rest
      | _, _ => String.utf8EncodeChar '%' ++ decode (a :: b :: rest)
  | c :: rest => String.utf8EncodeChar c ++ decode rest

/-- Nothing but what always needs an escape. -/
def controls : Escapes := fun _ => false

/-- What needs an escape in a fragment. -/
def fragment : Escapes := fun c =>
  c = ' ' || c = '"' || c = '<' || c = '>' || c = '\u0060'

/-- What needs an escape in a query. -/
def query : Escapes := fun c =>
  c = ' ' || c = '"' || c = '#' || c = '<' || c = '>'

/-- What needs an escape in a query of a scheme with a place on the web. -/
def webQuery : Escapes := fun c =>
  query c || c = '\''

/-- What needs an escape in a path. -/
def path : Escapes := fun c =>
  fragment c || c = '#' || c = '?' || c = '\x7b' || c = '\x7d'

/-- What needs an escape in one segment of a path that is not to be read as more. -/
def segment : Escapes := fun c =>
  path c || c = '/' || c = '%'

/-- What needs an escape in such a segment where a backslash separates segments too. -/
def webSegment : Escapes := fun c =>
  segment c || c = '\\'

/-- What needs an escape in a user name or a password. -/
def userInfo : Escapes := fun c =>
  path c || c = '/' || c = ':' || c = ';' || c = '=' || c = '@' || c = '[' || c = '\\'
    || c = ']' || c = '^' || c = '|'

end GraphShell.Percent

namespace GraphShell.Punycode

-----------------------------------------------------------------------------------------
-- Punycode
-----------------------------------------------------------------------------------------

/-- The digit of a value below thirty-six: letters, then decimal digits. -/
def digitOf (value : Nat) : Char :=
  if value < 26 then Char.ofNat (97 + value) else Char.ofNat (22 + value)

/-- The value of a digit. -/
def valueOf? (c : Char) : Option Nat :=
  if 'a' ≤ c ∧ c ≤ 'z' then some (c.toNat - 97)
  else if '0' ≤ c ∧ c ≤ '9' then some (c.toNat - 22)
  else none

/-- The least value of a digit that is not the last one of its number. -/
def threshold (place bias : Nat) : Nat :=
  max 1 (min 26 (36 * (place + 1) - bias))

/-- Divides a step by thirty-five until it is small, and counts how often. -/
def damp (step count : Nat) : Nat × Nat :=
  if 455 < step then damp (step / 35) (count + 1) else (step, count)
termination_by step
decreasing_by omega

/-- The bias for the number behind a step; `known` characters are placed by then. -/
def nextBias (step known : Nat) (first : Bool) : Nat :=
  let step := if first then step / 700 else step / 2
  let (step, count) := damp (step + step / known) 0
  36 * count + 36 * step / (step + 38)

theorem threshold_pos (place bias : Nat) : 1 ≤ threshold place bias :=
  Nat.le_max_left ..

/-- The digits of a number from a place on. -/
def numberDigits (bias place number : Nat) : List Char :=
  let least := threshold place bias
  if number < least then [digitOf number]
  else
    digitOf (least + (number - least) % (36 - least))
      :: numberDigits bias (place + 1) ((number - least) / (36 - least))
termination_by number
decreasing_by
  have := threshold_pos place bias
  exact Nat.lt_of_le_of_lt (Nat.div_le_self ..) (by omega)

/-- What writing has come to: the digits so far, the steps since the last number, the bias
and the number of characters placed.
-/
structure Writing where
  digits : List Char
  step : Nat
  bias : Nat
  known : Nat

/-- Passes one character of the text in search of a code point. -/
def Writing.pass (basic point : Nat) (writing : Writing) (c : Char) : Writing :=
  if c.toNat < point then { writing with step := writing.step + 1 }
  else if c.toNat = point then
    { digits := writing.digits ++ numberDigits writing.bias 0 writing.step
      step := 0
      bias := nextBias writing.step (writing.known + 1) (writing.known = basic)
      known := writing.known + 1 }
  else writing

/-- Places the characters with the code points of an increasing list; `next` is the least
code point not yet looked for.
-/
def Writing.place (text : List Char) (basic : Nat) : Nat → List Nat → Writing → Writing
  | _, [], writing => writing
  | next, point :: points, writing =>
      let start := { writing with step := writing.step + (point - next) * (writing.known + 1) }
      let passed := text.foldl (Writing.pass basic point) start
      place text basic (point + 1) points { passed with step := passed.step + 1 }

/-- The ASCII form of a text. -/
def encode (text : List Char) : List Char :=
  let basic := text.filter fun c => c.toNat < 128
  let points := ((text.map Char.toNat).filter (128 ≤ ·)).mergeSort.eraseDups
  let written := Writing.place text basic.length 128 points ⟨[], 0, 72, basic.length⟩
  basic ++ (if basic.isEmpty then [] else ['-']) ++ written.digits

/-- What reading has come to: the text so far, the last code point, the place of the next
character, the bias, and the number being read with the weight and the place of its next
digit.
-/
structure Reading where
  text : List Char
  point : Nat
  index : Nat
  bias : Nat
  number : Nat
  weight : Nat
  place : Nat

/-- Puts the character of a number just read into the text; what is no character fails. -/
def Reading.insert? (reading : Reading) (number : Nat) : Option Reading :=
  let known := reading.text.length + 1
  let index := reading.index + number
  let point := reading.point + index / known
  if point.isValidChar then
    some
      { text := reading.text.insertIdx (index % known) (Char.ofNat point)
        point := point
        index := index % known + 1
        bias := nextBias number known (reading.index = 0)
        number := 0
        weight := 1
        place := 0 }
  else none

/-- Takes in one digit. -/
def Reading.take? (reading : Reading) (c : Char) : Option Reading := do
  let value ← valueOf? c
  let number := reading.number + value * reading.weight
  let least := threshold reading.place reading.bias
  if value < least then reading.insert? number
  else
    return { reading with
      number := number
      weight := reading.weight * (36 - least)
      place := reading.place + 1 }

/-- The text of an ASCII form. -/
def decode? (form : List Char) : Option (List Char) := do
  let (basic, digits) := Text.cutLast (· = '-') form
  let reading ← digits.foldlM Reading.take? ⟨basic.getD [], 128, 0, 72, 0, 1, 0⟩
  if reading.place = 0 then return reading.text else none

end GraphShell.Punycode
