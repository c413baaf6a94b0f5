import GraphShell.Text.Numeral

/-! The words of JSON. Reading goes from the left, and what is wrong with a text is the first thing
found wrong: here are the faults, the blanks between tokens, the names of constants and strings.
Strings and objects are written on one line, or objects spread over lines that are indented by two
spaces a level.
-/

namespace GraphShell.Json

-----------------------------------------------------------------------------------------
-- Reading
-----------------------------------------------------------------------------------------

/-- What is wrong with a text: it breaks the form of JSON, it has the form but not the shape
asked for, or it ends too soon.
-/
inductive Fault
  | malformed
  | mismatched
  | truncated
deriving DecidableEq, Repr

/-- The text behind the blanks that may stand between tokens. -/
def skipSpace (text : List Char) : List Char :=
  text.dropWhile fun c => c = ' ' || c = '\n' || c = '\t' || c = '\r'

/-- The text behind a name it has to begin with. -/
def skipName : List Char → List Char → Except Fault (List Char)
  | [], text => .ok text
  | _ :: _, [] => .error .truncated
  | expected :: name, c :: rest =>
      if c = expected then skipName name rest else .error .malformed

/-- The value of four hexadecimal digits. -/
def hexQuad? (a b c d : Char) : Option Nat := do
  return (((← Text.hexValue? a) * 16 + (← Text.hexValue? b)) * 16 + (← Text.hexValue? c)) * 16
    + (← Text.hexValue? d)

/-- What is wrong with a numeric escape that has fewer than four characters behind it: the
text ends too soon only if it has fewer than four bytes there.
-/
def shortEscape (rest : List Char) : Fault :=
  if (String.ofList rest).utf8ByteSize < 4 then .truncated else .malformed

/-- The character behind a backslash that stands for one character. -/
def shortEscape? (c : Char) : Option Char :=
  match c with
  | '"' => some '"'
  | '\\' => some '\\'
  | '/' => some '/'
  | 'b' => some '\x08'
  | 'f' => some '\x0c'
  | 'n' => some '\n'
  | 'r' => some '\r'
  | 't' => some '\t'
  | _ => none

/-- Whether a code unit is the first half of a pair. -/
def isLeading (unit : Nat) : Bool :=
  0xD800 ≤ unit && unit ≤ 0xDBFF

/-- Whether a code unit is the second half of a pair. -/
def isTrailing (unit : Nat) : Bool :=
  0xDC00 ≤ unit && unit ≤ 0xDFFF

/-- The character of a pair of code units. -/
def pairedChar (leading trailing : Nat) : Char :=
  Char.ofNat (0x10000 + (leading - 0xD800) * 0x400 + (trailing - 0xDC00))

/-- The outcome with a character in front of what it read. -/
def withChar (c : Char) (outcome : Except Fault (List Char × List Char))
    : Except Fault (List Char × List Char) :=
  outcome.map fun (read, rest) => (c :: read, rest)

/-- Reads the characters of a string up to its closing quote. Halves of a pair of code units
have to come together.
-/
def readString : List Char → Except Fault (List Char × List Char)
  | [] => .error .truncated
  | '"' :: rest => .ok ([], rest)
  | '\\' :: 'u' :: rest =>
      match rest with
      | a :: b :: c :: d :: rest =>
          match hexQuad? a b c d with
          | none => .error .malformed
          | some unit =>
              if isTrailing unit then .error .malformed
              else if isLeading unit then
                match rest with
                | '\\' :: 'u' :: e :: f :: g :: h :: rest =>
                    match hexQuad? e f g h with
                    | none => .error .malformed
                    | some next =>
                        if isTrailing next then
                          withChar (pairedChar unit next) (readString rest)
                        else .error .malformed
                | '\\' :: 'u' :: rest => .error (shortEscape rest)
                | [] | ['\\'] => .error .truncated
                | _ => .error .malformed
              else withChar (Char.ofNat unit) (readString rest)
      | rest => .error (shortEscape rest)
  | ['\\'] => .error .truncated
  | '\\' :: c :: rest =>
      match shortEscape? c with
      | some c => withChar c (readString rest)
      | none => .error .malformed
  | c :: rest =>
      if c.toNat < 0x20 then .error .malformed else withChar c (readString rest)

/-- The text behind the characters of a string and its closing quote, where halves of pairs
may stand alone.
-/
def passString : List Char → Except Fault (List Char)
  | [] => .error .truncated
  | '"' :: rest => .ok rest
  | '\\' :: 'u' :: rest =>
      match rest with
      | a :: b :: c :: d :: rest =>
          if (hexQuad? a b c d).isSome then passString rest else .error .malformed
      | rest => .error (shortEscape rest)
  | ['\\'] => .error .truncated
  | '\\' :: c :: rest =>
      if (shortEscape? c).isSome then passString rest else .error .malformed
  | c :: rest => if c.toNat < 0x20 then .error .malformed else passString rest

-----------------------------------------------------------------------------------------
-- Writing
-----------------------------------------------------------------------------------------

/-- A character inside a string literal: short escapes where JSON has them, numeric ones for
the other control characters, and everything else as it is.
-/
def escape (c : Char) : List Char :=
  if c = '"' then ['\\', '"']
  else if c = '\\' then ['\\', '\\']
  else if c = '\x08' then ['\\', 'b']
  else if c = '\x0c' then ['\\', 'f']
  else if c = '\n' then ['\\', 'n']
  else if c = '\r' then ['\\', 'r']
  else if c = '\t' then ['\\', 't']
  else if c.toNat < 0x20 then
    ['\\', 'u', '0', '0', Text.hexDigit (c.toNat / 16), Text.hexDigit (c.toNat % 16)]
  else [c]

/-- A string literal. -/
def quote (text : String) : String :=
  String.ofList ('"' :: text.toList.flatMap escape ++ ['"'])

/-- How an object is laid out: on one line, or spread out at a depth of nesting. -/
inductive Layout
  | compact
  | spread (depth : Nat)
deriving DecidableEq, Repr

namespace Layout

/-- The layout of the values inside an object. -/
def inner : Layout → Layout
  | compact => compact
  | spread depth => spread (depth + 1)

/-- What precedes each field. -/
def lineBreak : Layout → String
  | compact => ""
  | spread depth => String.ofList ('\n' :: List.replicate (2 * depth) ' ')

/-- What stands between a field's name and its value. -/
def colon : Layout → String
  | compact => ":"
  | spread _ => ": "

/-- An object of fields whose values are already written for the inner layout. -/
def object (layout : Layout) (fields : List (String × String)) : String :=
  if fields.isEmpty then "\x7b\x7d"
  else
    let field := fun (name, value) => layout.inner.lineBreak ++ quote name ++ layout.colon ++ value
    "\x7b" ++ ",".intercalate (fields.map field) ++ layout.lineBreak ++ "\x7d"

end Layout

end GraphShell.Json
