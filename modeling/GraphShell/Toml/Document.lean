import GraphShell.Text.Numeral
import GraphShell.Text.Splitting

/-! Flat TOML documents: one assignment a line, of a text, an integer, a truth value or a mark to a
key of one part, so what is read is always a list of distinct keys with their values. A mark is a
table of one key with an empty value, the long form of the name of a choice. Left out and refused
are headers, also one that spells a mark, all other tables, lists, dates and fractions. A control
character other than a tab stands in no word of a document.
-/

namespace GraphShell.Toml

-----------------------------------------------------------------------------------------
-- Words
-----------------------------------------------------------------------------------------

/-- The text behind the blanks of a line. -/
def skipBlank (text : List Char) : List Char :=
  text.dropWhile fun c => c = ' ' || c = '\t'

/-- Whether a character may stand in comments and literal strings of one line. -/
def isPlain (c : Char) : Bool :=
  c = '\t' || (0x20 ≤ c.toNat && c.toNat ≠ 0x7F)

/-- The text behind the end of a line, if a line ends here. -/
def lineEnd? : List Char → Option (List Char)
  | '\n' :: rest | '\r' :: '\n' :: rest => some rest
  | _ => none

/-- The text behind the rest of a line that holds nothing but blanks and a comment; the text
may also end here.
-/
def skipLine? (text : List Char) : Option (List Char) :=
  let rest := match skipBlank text with
    | '#' :: comment => comment.dropWhile isPlain
    | rest => rest
  if rest.isEmpty then some [] else lineEnd? rest

/-- The text behind blanks, ends of lines and comments, if the comments are well formed. The truth
tells whether a comment has begun.
-/
def skipSpace? : Bool → List Char → Option (List Char)
  | _, [] => some []
  | _, '\n' :: rest | _, '\r' :: '\n' :: rest => skipSpace? false rest
  | true, c :: rest => if isPlain c then skipSpace? true rest else none
  | false, c :: rest =>
      if c = ' ' ∨ c = '\t' then skipSpace? false rest
      else if c = '#' then skipSpace? true rest
      else some (c :: rest)

/-- The character of a code point in hexadecimal digits. -/
def charOf? (digits : List Char) : Option Char := do
  let point ← Text.readBased? 16 digits
  if point.isValidChar then return Char.ofNat point else none

/-- The character that an escape of one letter stands for. -/
def shortEscape? : Char → Option Char
  | 'b' => some '\x08'
  | 't' => some '\t'
  | 'n' => some '\n'
  | 'f' => some '\x0c'
  | 'r' => some '\r'
  | 'e' => some '\x1b'
  | '"' => some '"'
  | '\\' => some '\\'
  | _ => none

/-- What an outcome read, with a character in front. -/
def withChar (c : Char) (outcome : Option (List Char × List Char))
    : Option (List Char × List Char) :=
  outcome.map fun (read, rest) => (c :: read, rest)

/-- Reads a string of one line up to its closing quote. -/
def readString? : List Char → Option (List Char × List Char)
  | [] => none
  | '"' :: rest => some ([], rest)
  | '\\' :: 'x' :: a :: b :: rest => do withChar (← charOf? [a, b]) (readString? rest)
  | '\\' :: 'u' :: a :: b :: c :: d :: rest => do
      withChar (← charOf? [a, b, c, d]) (readString? rest)
  | '\\' :: 'U' :: a :: b :: c :: d :: e :: f :: g :: h :: rest => do
      withChar (← charOf? [a, b, c, d, e, f, g, h]) (readString? rest)
  | '\\' :: c :: rest => do withChar (← shortEscape? c) (readString? rest)
  | c :: rest => if isPlain c then withChar c (readString? rest) else none

/-- Reads a literal string of one line up to its closing quote. -/
def readLiteral? : List Char → Option (List Char × List Char)
  | [] => none
  | c :: rest =>
      if c = '\'' then some ([], rest)
      else if isPlain c then withChar c (readLiteral? rest)
      else none

/-- The quotes that end the content of a string of many lines, and the text behind the closing
ones: up to two more than the three that close.
-/
def closing? (quote : Char) (text : List Char) : Option (List Char × List Char) :=
  let count := (text.takeWhile (· = quote)).length
  if 3 ≤ count ∧ count ≤ 5 then some (List.replicate (count - 3) quote, text.drop count)
  else none

/-- What a string of many lines is in the middle of: its content, the blanks between a
backslash and the end of its line, or the blanks and line ends behind that.
-/
inductive Continuation
  | content
  | lineLeft
  | lineBegun

/-- Reads a string of many lines up to its closing quotes. -/
def readLines? : Continuation → List Char → Option (List Char × List Char)
  | _, [] => none
  | .lineLeft, c :: rest =>
      if c = ' ' ∨ c = '\t' ∨ (c = '\r' ∧ rest.head? = some '\n') then readLines? .lineLeft rest
      else if c = '\n' then readLines? .lineBegun rest
      else none
  | .lineBegun, '\r' :: '\n' :: rest => readLines? .lineBegun rest
  | .lineBegun, ' ' :: rest | .lineBegun, '\t' :: rest | .lineBegun, '\n' :: rest =>
      readLines? .lineBegun rest
  | _, '"' :: '"' :: '"' :: rest => closing? '"' ('"' :: '"' :: '"' :: rest)
  | _, '"' :: rest => withChar '"' (readLines? .content rest)
  | _, '\r' :: '\n' :: rest => withChar '\r' (withChar '\n' (readLines? .content rest))
  | _, '\n' :: rest => withChar '\n' (readLines? .content rest)
  | _, '\\' :: 'x' :: a :: b :: rest => do
      withChar (← charOf? [a, b]) (readLines? .content rest)
  | _, '\\' :: 'u' :: a :: b :: c :: d :: rest => do
      withChar (← charOf? [a, b, c, d]) (readLines? .content rest)
  | _, '\\' :: 'U' :: a :: b :: c :: d :: e :: f :: g :: h :: rest => do
      withChar (← charOf? [a, b, c, d, e, f, g, h]) (readLines? .content rest)
  | _, '\\' :: c :: rest =>
      match shortEscape? c with
      | some c => withChar c (readLines? .content rest)
      | none => readLines? .lineLeft (c :: rest)
  | _, c :: rest => if isPlain c then withChar c (readLines? .content rest) else none

/-- Reads a literal string of many lines up to its closing quotes. -/
def readLiteralLines? : List Char → Option (List Char × List Char)
  | [] => none
  | '\'' :: '\'' :: '\'' :: rest => closing? '\'' ('\'' :: '\'' :: '\'' :: rest)
  | '\r' :: '\n' :: rest => withChar '\r' (withChar '\n' (readLiteralLines? rest))
  | c :: rest =>
      if c = '\n' ∨ isPlain c then withChar c (readLiteralLines? rest) else none

/-- Reads a quoted text that stands on one line. -/
def readQuoted? : List Char → Option (List Char × List Char)
  | '"' :: rest => readString? rest
  | '\'' :: rest => readLiteral? rest
  | _ => none

/-- Reads a quoted text of either kind; a line end right behind three opening quotes is not
part of it.
-/
def readText? (text : List Char) : Option (List Char × List Char) :=
  let skipEnd (rest : List Char) := (lineEnd? rest).getD rest
  match text with
  | '"' :: '"' :: '"' :: rest => readLines? .content (skipEnd rest)
  | '\'' :: '\'' :: '\'' :: rest => readLiteralLines? (skipEnd rest)
  | text => readQuoted? text

/-- The digits of a numeral whose underscores each stand between two digits. -/
def withoutUnderscores? (text : List Char) : Option (List Char) :=
  let groups := Text.pieces (· = '_') text
  if groups.any List.isEmpty then none else some groups.flatten

/-- The number that a decimal numeral without zeros in front spells. -/
def decimal? (digits : List Char) : Option Nat := do
  let digits ← withoutUnderscores? digits
  if digits.head? = some '0' ∧ 1 < digits.length then none else Text.readNumeral? digits

/-- The integer that a word spells: decimal with an optional sign and no zeros in front, or
hexadecimal, octal or binary behind its mark and without a sign.
-/
def integer? (word : List Char) : Option Int :=
  match word with
  | '0' :: 'x' :: digits => (withoutUnderscores? digits >>= Text.readBased? 16).map Int.ofNat
  | '0' :: 'o' :: digits => (withoutUnderscores? digits >>= Text.readBased? 8).map Int.ofNat
  | '0' :: 'b' :: digits => (withoutUnderscores? digits >>= Text.readBased? 2).map Int.ofNat
  | '-' :: digits => (decimal? digits).map fun n => -(n : Int)
  | '+' :: digits => (decimal? digits).map Int.ofNat
  | digits => (decimal? digits).map Int.ofNat

-----------------------------------------------------------------------------------------
-- Documents
-----------------------------------------------------------------------------------------

/-- A value of a flat document. -/
inductive Value
  | text (value : String)
  | integer (value : Int)
  | boolean (value : Bool)
  | mark (name : String)
deriving DecidableEq, Repr

/-- The characters of a key without quotes. -/
def isBareKey (c : Char) : Bool :=
  c.isAlphanum || c = '_' || c = '-'

/-- Reads a key and the text behind it. -/
def readKey? (text : List Char) : Option (String × List Char) :=
  match text with
  | '"' :: _ | '\'' :: _ => (readQuoted? text).map fun (key, rest) => (String.ofList key, rest)
  | _ =>
      let key := text.takeWhile isBareKey
      if key.isEmpty then none else some (String.ofList key, text.dropWhile isBareKey)

/-- The characters of a value without quotes. -/
def isWordChar (c : Char) : Bool :=
  c.isAlphanum || c = '_' || c = '+' || c = '-' || c = '.' || c = ':'

/-- The value that a word spells. -/
def wordValue? (word : List Char) : Option Value :=
  if word = "true".toList then some (.boolean true)
  else if word = "false".toList then some (.boolean false)
  else (integer? word).map .integer

/-- The text behind a closing bracket that follows blanks, ends of lines and comments. -/
def skipClosing? (bracket : Char) (text : List Char) : Option (List Char) := do
  match ← skipSpace? false text with
  | c :: rest => if c = bracket then some rest else none
  | [] => none

/-- The text behind an empty table or list. -/
def skipEmpty? : List Char → Option (List Char)
  | '\x7b' :: rest => skipClosing? '\x7d' rest
  | '[' :: rest => skipClosing? ']' rest
  | _ => none

/-- Reads the name that an empty value is assigned to, and the text behind the value. -/
def readMark? (text : List Char) : Option (String × List Char) := do
  let (name, rest) ← readKey? text
  match skipBlank rest with
  | '=' :: rest => return (name, ← skipEmpty? (skipBlank rest))
  | _ => none

/-- Reads a table of one mark behind its opening bracket; a comma may stand behind the mark. -/
def readMarkTable? (text : List Char) : Option (Value × List Char) := do
  let (name, rest) ← readMark? (← skipSpace? false text)
  match ← skipSpace? false rest with
  | ',' :: rest => return (.mark name, ← skipClosing? '\x7d' rest)
  | rest => return (.mark name, ← skipClosing? '\x7d' rest)

/-- Reads a value and the text behind it. -/
def readValue? (text : List Char) : Option (Value × List Char) :=
  match text with
  | '"' :: _ | '\'' :: _ =>
      (readText? text).map fun (content, rest) => (.text (String.ofList content), rest)
  | '\x7b' :: rest => readMarkTable? rest
  | _ =>
      (wordValue? (text.takeWhile isWordChar)).map fun value =>
        (value, text.dropWhile isWordChar)

/-- Reads an assignment and the rest of its line. The name of a mark may stand behind the key and a
point.
-/
def readAssignment? (text : List Char) : Option ((String × Value) × List Char) := do
  let (key, rest) ← readKey? text
  match skipBlank rest with
  | '=' :: rest =>
      let (value, rest) ← readValue? (skipBlank rest)
      return ((key, value), ← skipLine? rest)
  | '.' :: rest =>
      let (name, rest) ← readMark? (skipBlank rest)
      return ((key, .mark name), ← skipLine? rest)
  | _ => none

/-- Reads the assignments of a text behind the ones already read, whose keys may not come
again. Each line takes a character, so there are no more lines than `lines` if that is the
length of the text.
-/
def readLines (known : List (String × Value)) : Nat → List Char → Option (List (String × Value))
  | 0, text => if text.isEmpty then some known else none
  | lines + 1, text =>
      if text.isEmpty then some known
      else
        match skipLine? text with
        | some rest => readLines known lines rest
        | none => do
            let ((key, value), rest) ← readAssignment? (skipBlank text)
            if known.any fun (other, _) => other = key then none
            else readLines (known ++ [(key, value)]) lines rest

/-- The assignments of a document, in order. A mark of the byte order may come first. -/
def read? (text : String) : Option (List (String × Value)) :=
  let chars := match text.toList with
    | '\uFEFF' :: rest => rest
    | chars => chars
  readLines [] chars.length chars

end GraphShell.Toml
