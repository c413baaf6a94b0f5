/-! Decimal numerals. Writing has no leading zero; reading takes any run of ASCII digits,
so leading zeros are allowed there.
-/

namespace GraphShell.Text

/-- Whether the character is an ASCII digit. -/
def isDigit (c : Char) : Bool :=
  '0' ≤ c && c ≤ '9'

/-- The digit that stands for `n % 10`. -/
def digitChar (n : Nat) : Char :=
  Char.ofNat (48 + n % 10)

/-- The numeral of `n` without leading zeros. -/
def numeral (n : Nat) : List Char :=
  if n < 10 then [digitChar n] else numeral (n / 10) ++ [digitChar n]

/-- The number that a list of digit characters stands for; other characters count as the
digit they would have if the digit range went on.
-/
def numeralValue (digits : List Char) : Nat :=
  digits.foldl (fun n c => 10 * n + (c.toNat - 48)) 0

/-- Reads a numeral of at least one digit and nothing else. -/
def readNumeral? (text : List Char) : Option Nat :=
  if !text.isEmpty && text.all isDigit then some (numeralValue text) else none

/-- Reads an integer: a sign of either kind or none, then a numeral. -/
def readInteger? : List Char → Option Int
  | '-' :: rest => (readNumeral? rest).map fun n => -(n : Int)
  | '+' :: rest => (readNumeral? rest).map Int.ofNat
  | text => (readNumeral? text).map Int.ofNat

/-- Reads a count below `limit`: an optional plus sign, then a numeral. -/
def readCount? (limit : Nat) (text : List Char) : Option Nat :=
  let digits := match text with
    | '+' :: rest => rest
    | _ => text
  (readNumeral? digits).filter (· < limit)

/-- The value of a hexadecimal digit. -/
def hexValue? (c : Char) : Option Nat :=
  if isDigit c then some (c.toNat - 48)
  else if 'a' ≤ c ∧ c ≤ 'f' then some (c.toNat - 87)
  else if 'A' ≤ c ∧ c ≤ 'F' then some (c.toNat - 55)
  else none

/-- Reads a numeral of a base up to sixteen: at least one digit of the base, and nothing else. -/
def readBased? (base : Nat) (text : List Char) : Option Nat :=
  if text.isEmpty then none
  else
    text.foldlM (fun n c => ((hexValue? c).filter (· < base)).map (base * n + ·)) 0

/-- The digit of a base up to sixteen, letters in lower case. -/
def hexDigit (n : Nat) : Char :=
  if n < 10 then digitChar n else Char.ofNat (87 + n)

/-- The numeral of `n` with zeros in front, at least `width` characters wide. -/
def paddedNumeral (width n : Nat) : List Char :=
  let digits := numeral n
  List.replicate (width - digits.length) '0' ++ digits

end GraphShell.Text
