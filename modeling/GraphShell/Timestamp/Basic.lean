import GraphShell.Text.Numeral
import GraphShell.Text.Splitting

/-! Instants on the proleptic Gregorian calendar with a fixed offset from universal time. The
fields are the local ones, so that reading and printing keep the offset. Written years past four
digits carry a sign, and a fraction of a second has three, six or nine digits, the fewest that
lose nothing. Of the two readers the strict one takes the internet date-time form with fixed field
widths; the relaxed one takes short fields, signed years and blanks as well.
-/

namespace GraphShell

-----------------------------------------------------------------------------------------
-- Civil time
-----------------------------------------------------------------------------------------

/-- A local date and time with its offset in minutes; second 60 is a leap second. -/
structure CivilTime where
  year : Int
  month : Nat
  day : Nat
  hour : Nat
  minute : Nat
  second : Nat
  nanosecond : Nat
  offset : Int
deriving DecidableEq, Repr

namespace CivilTime

/-- Whether the year has a 29th of February. -/
def isLeap (year : Int) : Bool :=
  year % 4 == 0 && (year % 100 != 0 || year % 400 == 0)

/-- The length of a month, zero for one that does not exist. -/
def daysInMonth (year : Int) : Nat → Nat
  | 2 => if isLeap year then 29 else 28
  | 4 | 6 | 9 | 11 => 30
  | 1 | 3 | 5 | 7 | 8 | 10 | 12 => 31
  | _ => 0

/-- The first and the last year of the calendar. -/
def firstYear : Int := -262143

/-- The last year of the calendar. -/
def lastYear : Int := 262142

/-- The minute of the day in universal time; below zero on the day before the local one,
from 1440 on the day after it.
-/
def universalMinute (c : CivilTime) : Int :=
  c.hour * 60 + c.minute - c.offset

/-- Whether the date exists and its years are those of the calendar. -/
def dateExists (c : CivilTime) : Bool :=
  firstYear ≤ c.year && c.year ≤ lastYear && 1 ≤ c.day && c.day ≤ daysInMonth c.year c.month

/-- Whether the instant, in universal time, is still on a day of the calendar. -/
def universalDateExists (c : CivilTime) : Bool :=
  !(c.year == firstYear && c.month == 1 && c.day == 1 && c.universalMinute < 0)
    && !(c.year == lastYear && c.month == 12 && c.day == 31 && 1440 ≤ c.universalMinute)

/-- Whether the fields are those of an instant: an existing date, a time of day, and an
offset of less than a day.
-/
def isInstant (c : CivilTime) : Bool :=
  c.dateExists && c.hour ≤ 23 && c.minute ≤ 59 && c.second ≤ 60
    && c.nanosecond < 1000000000 && c.offset.natAbs < 1440 && c.universalDateExists

end CivilTime

/-- An instant with its offset. -/
structure Timestamp where
  civil : CivilTime
  isInstant : civil.isInstant = true
deriving DecidableEq, Repr

/-- The instant that the fields name, if they name one. -/
def Timestamp.of? (civil : CivilTime) : Option Timestamp :=
  if h : civil.isInstant = true then some ⟨civil, h⟩ else none

end GraphShell

namespace GraphShell.Timestamp

-----------------------------------------------------------------------------------------
-- Written form
-----------------------------------------------------------------------------------------

open Text

/-- The spelling of a zero offset: in digits like any other, or as one letter. -/
inductive ZeroOffset
  | digits
  | letter
deriving DecidableEq, Repr

/-- A year with at least four digits; a sign where four digits do not do. -/
def yearText (year : Int) : List Char :=
  if 0 ≤ year ∧ year ≤ 9999 then paddedNumeral 4 year.natAbs
  else (if year < 0 then '-' else '+') :: paddedNumeral 4 year.natAbs

/-- The fraction of a second behind its point, or nothing for a whole second. -/
def fractionText (nanosecond : Nat) : List Char :=
  if nanosecond = 0 then []
  else if nanosecond % 1000000 = 0 then '.' :: paddedNumeral 3 (nanosecond / 1000000)
  else if nanosecond % 1000 = 0 then '.' :: paddedNumeral 6 (nanosecond / 1000)
  else '.' :: paddedNumeral 9 nanosecond

/-- An offset in hours and minutes. -/
def offsetText (zero : ZeroOffset) (offset : Int) : List Char :=
  if zero = .letter ∧ offset = 0 then ['Z']
  else
    (if offset < 0 then '-' else '+') :: paddedNumeral 2 (offset.natAbs / 60)
      ++ ':' :: paddedNumeral 2 (offset.natAbs % 60)

/-- The date-time form of a timestamp. -/
def write (zero : ZeroOffset) (t : Timestamp) : String :=
  let c := t.civil
  String.ofList
    (yearText c.year ++ '-' :: paddedNumeral 2 c.month ++ '-' :: paddedNumeral 2 c.day
      ++ 'T' :: paddedNumeral 2 c.hour ++ ':' :: paddedNumeral 2 c.minute
      ++ ':' :: paddedNumeral 2 c.second ++ fractionText c.nanosecond
      ++ offsetText zero c.offset)

-----------------------------------------------------------------------------------------
-- Readers
-----------------------------------------------------------------------------------------

/-- Between `least` and `most` digits in front of a text, as many as there are. -/
def readDigits? (least most : Nat) (text : List Char) : Option (Nat × List Char) :=
  let digits := (text.take most).takeWhile isDigit
  if digits.length < least then none else some (numeralValue digits, text.drop digits.length)

/-- The text behind a character it has to begin with. -/
def readChar? (expected : Char) : List Char → Option (List Char)
  | [] => none
  | c :: rest => if c = expected then some rest else none

/-- The text behind the separator of date and time. -/
def readSeparator? : List Char → Option (List Char)
  | 'T' :: rest => some rest
  | 't' :: rest => some rest
  | ' ' :: rest => some rest
  | _ => none

/-- An optional fraction of a second in nanoseconds; digits past the ninth are dropped. -/
def readFraction? : List Char → Option (Nat × List Char)
  | '.' :: text => do
      let (digits, rest) ← readDigits? 1 9 text
      let width := text.length - rest.length
      some (digits * Nat.pow 10 (9 - width), rest.dropWhile isDigit)
  | text => some (0, text)

/-- The sign of an offset: plus, hyphen or the minus sign. -/
def readOffsetSign? : List Char → Option (Bool × List Char)
  | '+' :: rest => some (false, rest)
  | '-' :: rest => some (true, rest)
  | '−' :: rest => some (true, rest)
  | _ => none

/-- An offset in minutes: the letter `Z`, or signed hours and minutes with what `colon`
accepts between them.
-/
def readOffset? (colon : List Char → Option (List Char))
    : List Char → Option (Int × List Char)
  | 'Z' :: rest => some (0, rest)
  | 'z' :: rest => some (0, rest)
  | text => do
      let (negative, rest) ← readOffsetSign? text
      let (hours, rest) ← readDigits? 2 2 rest
      let rest ← colon rest
      let (minutes, rest) ← readDigits? 2 2 rest
      if 59 < minutes then none
      else
        let offset : Int := hours * 60 + minutes
        some (if negative then -offset else offset, rest)

/-- Reads the internet date-time form: `2024-05-01T12:00:00.5+02:00`, where `T` may be a
small letter or a space.
-/
def readStrict? (text : List Char) : Option Timestamp := do
  let (year, rest) ← readDigits? 4 4 text
  let rest ← readChar? '-' rest
  let (month, rest) ← readDigits? 2 2 rest
  let rest ← readChar? '-' rest
  let (day, rest) ← readDigits? 2 2 rest
  let rest ← readSeparator? rest
  let (hour, rest) ← readDigits? 2 2 rest
  let rest ← readChar? ':' rest
  let (minute, rest) ← readDigits? 2 2 rest
  let rest ← readChar? ':' rest
  let (second, rest) ← readDigits? 2 2 rest
  let (nanosecond, rest) ← readFraction? rest
  let (offset, rest) ← readOffset? (readChar? ':') rest
  if rest.isEmpty then of? ⟨year, month, day, hour, minute, second, nanosecond, offset⟩
  else none

/-- A year of up to four digits, or of any length behind a sign. -/
def readYear? (text : List Char) : Option (Int × List Char) :=
  match text with
  | '-' :: rest => (readDigits? 1 rest.length rest).map fun (n, rest) => (-(n : Int), rest)
  | '+' :: rest => (readDigits? 1 rest.length rest).map fun (n, rest) => ((n : Int), rest)
  | _ => (readDigits? 1 4 text).map fun (n, rest) => ((n : Int), rest)

/-- A field of one or two digits, with blanks in front of it. -/
def readField? (text : List Char) : Option (Nat × List Char) :=
  readDigits? 1 2 (trimStart text)

/-- An offset as in the strict form, or the letters `UTC` in any case; blanks and colons may
stand between its hours and minutes.
-/
def readRelaxedOffset? (text : List Char) : Option (Int × List Char) :=
  if String.ofList ((text.take 3).map Char.toUpper) = "UTC" then some (0, text.drop 3)
  else readOffset? (fun rest => some (rest.dropWhile fun c => c = ':' || isBlank c)) text

/-- Reads the relaxed date-time form: short fields, signed years of any length, blanks
around the marks between the fields, and `UTC` for a zero offset.
-/
def readRelaxed? (text : List Char) : Option Timestamp := do
  let (year, rest) ← readYear? (trimStart text)
  let rest ← readChar? '-' (trimStart rest)
  let (month, rest) ← readField? rest
  let rest ← readChar? '-' (trimStart rest)
  let (day, rest) ← readField? rest
  let rest ← readSeparator? rest
  let (hour, rest) ← readField? rest
  let rest ← readChar? ':' (trimStart rest)
  let (minute, rest) ← readField? rest
  let rest ← readChar? ':' (trimStart rest)
  let (second, rest) ← readField? rest
  let (nanosecond, rest) ← readFraction? rest
  let (offset, rest) ← readRelaxedOffset? (trimStart rest)
  if (trimStart rest).isEmpty then
    of? ⟨year, month, day, hour, minute, second, nanosecond, offset⟩
  else none

end GraphShell.Timestamp
