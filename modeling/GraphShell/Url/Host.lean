import GraphShell.Text.Lowercase
import GraphShell.Text.Marks
import GraphShell.Text.Numeral
import GraphShell.Text.Splitting
import GraphShell.Url.Escapes

/-! The hosts that addresses name: domains, addresses of machines, and names that only their scheme
can read. In a domain letters are put in lower case and wide forms in their plain ones; a label
that still holds other characters is written in punycode behind a mark of four characters. One to
four numbers with points between them spell an address of four bytes, in the decimal, octal or
hexadecimal base; the last number fills all the bytes that are left. Addresses of eight pieces of
sixteen bits are spelled in hexadecimal with colons between the pieces; once, two colons may stand
for one or more zero pieces, and the last two pieces may be spelled as four decimal bytes.
-/

namespace GraphShell.DomainName

-----------------------------------------------------------------------------------------
-- Names
-----------------------------------------------------------------------------------------

/-- The mark in front of a label in punycode. -/
def punycodeMark : List Char := ['x', 'n', '-', '-']

/-- The characters that a name passes over: they have no form of their own. -/
def isPassedOver (c : Char) : Bool :=
  c = '\u00AD' || c = '\u200B' || c = '\u2060' || c = '\uFEFF'
    || ('\uFE00' ≤ c && c ≤ '\uFE0F')

/-- The characters that no name has: controls, blanks, private and replaced characters. -/
def isRefused (c : Char) : Bool :=
  let n := c.toNat
  (0x80 ≤ n && n ≤ 0xA0) || n = 0x1680 || (0x2000 ≤ n && n ≤ 0x200A)
    || (0x200E ≤ n && n ≤ 0x200F) || (0x2028 ≤ n && n ≤ 0x202F) || n = 0x205F || n = 0x3000
    || (0xE000 ≤ n && n ≤ 0xF8FF) || (0xFFF9 ≤ n && n ≤ 0xFFFF) || 0xE0000 ≤ n

/-- The form that a character has in a name; none if no name has it. -/
def formOf? (c : Char) : Option (List Char) :=
  if isPassedOver c then some []
  else if isRefused c then none
  else if c = '。' || c = '．' || c = '｡' then some ['.']
  else if '！' ≤ c ∧ c ≤ '～' then some [(Char.ofNat (c.toNat - 0xFEE0)).toLower]
  else some (Text.lowerChar c)

/-- The form that a text has in a name. -/
def formOfText? (text : List Char) : Option (List Char) :=
  (text.mapM formOf?).map List.flatten

/-- Whether the characters of a label make one: a mark does not come first, and neither does a
joiner or a letter that stands for a mark and more.
-/
def isLabel (label : List Char) : Bool :=
  match label with
  | [] => true
  | c :: _ => !(Text.inRanges Text.markRanges c || Text.inRanges Text.joinerRanges c)

/-- Whether a punycode label stands for what has to be written so, and is written as it is
written here.
-/
def isCanonical (form : List Char) : Bool :=
  match Punycode.decode? form with
  | none => false
  | some label =>
      label.any (fun c => 128 ≤ c.toNat) && isLabel label
        && formOfText? label = some label && Punycode.encode label = form

/-- The ASCII form of a label. The mark announces punycode, which is ASCII already. -/
def asciiLabel? (label : List Char) : Option (List Char) :=
  let isPlain := label.all fun c => c.toNat < 128
  if punycodeMark.isPrefixOf label then
    if isPlain && isCanonical (label.drop punycodeMark.length) then some label else none
  else if isPlain then some label
  else if isLabel label then some (punycodeMark ++ Punycode.encode label)
  else none

/-- The ASCII characters that no name has. -/
def isReserved (c : Char) : Bool :=
  c.toNat ≤ 0x20 || c.toNat = 0x7F || "%#/:<>?@[\\]^|".toList.contains c

/-- The ASCII form of the name that bytes spell. -/
def ofBytes? (bytes : List UInt8) : Option (List Char) := do
  let text ← String.fromUTF8? ⟨bytes.toArray⟩
  let labels ← (Text.pieces (· = '.') (← formOfText? text.toList)).mapM asciiLabel?
  let name := ['.'].intercalate labels
  if name.any isReserved then none else return name

end GraphShell.DomainName

namespace GraphShell

-----------------------------------------------------------------------------------------
-- Addresses of four bytes
-----------------------------------------------------------------------------------------

/-- An address of four bytes. -/
structure Ipv4 where
  value : UInt32
deriving DecidableEq, Repr

namespace Ipv4

/-- Reads a number: hexadecimal behind a zero and an x, octal behind any other zero. A base
mark with nothing behind it is zero.
-/
def readNumber? : List Char → Option Nat
  | [] => none
  | ['0'] | ['0', 'x'] | ['0', 'X'] => some 0
  | '0' :: 'x' :: digits | '0' :: 'X' :: digits => Text.readBased? 16 digits
  | '0' :: digits => Text.readBased? 8 digits
  | digits => Text.readBased? 10 digits

/-- The pieces between the points of a name; a point at the end is passed over. -/
def parts (name : List Char) : List (List Char) :=
  let parts := Text.pieces (· = '.') name
  if parts.getLast? = some [] ∧ 1 < parts.length then parts.dropLast else parts

/-- Whether a name can be nothing but an address: its last piece is a number. -/
def isClaimed (name : List Char) : Bool :=
  match (parts name).getLast? with
  | none => false
  | some last => (!last.isEmpty && last.all Text.isDigit) || (readNumber? last).isSome

/-- Reads an address. -/
def read? (name : List Char) : Option Ipv4 := do
  let numbers ← (parts name).mapM readNumber?
  let last ← numbers.getLast?
  let leading := numbers.dropLast
  let room := Nat.pow 256 (4 - leading.length)
  if leading.length ≤ 3 ∧ (∀ n ∈ leading, n < 256) ∧ last < room then
    let front := leading.foldl (fun value n => 256 * value + n) 0
    return ⟨UInt32.ofNat (front * room + last)⟩
  else none

/-- The four bytes in decimal with points between them. -/
def text (address : Ipv4) : List Char :=
  let byte (place : Nat) := Text.numeral (address.value.toNat / Nat.pow 256 place % 256)
  byte 3 ++ '.' :: byte 2 ++ '.' :: byte 1 ++ '.' :: byte 0

end Ipv4

-----------------------------------------------------------------------------------------
-- Addresses of eight pieces
-----------------------------------------------------------------------------------------

/-- An address of eight pieces. -/
structure Ipv6 where
  pieces : List UInt16
  length_pieces : pieces.length = 8
deriving DecidableEq, Repr

namespace Ipv6

/-- Reads a piece: one to four hexadecimal digits. -/
def readPiece? (text : List Char) : Option UInt16 :=
  if text.length ≤ 4 then (Text.readBased? 16 text).map UInt16.ofNat else none

/-- Reads a decimal byte without zeros in front. -/
def readByte? (text : List Char) : Option Nat :=
  (Text.readNumeral? text).filter fun n => n < 256 ∧ Text.numeral n = text

/-- Reads the last piece, or the last two as four decimal bytes. -/
def readLast? (text : List Char) : Option (List UInt16) :=
  match Text.pieces (· = '.') text with
  | [piece] => (readPiece? piece).map ([·])
  | [a, b, c, d] => do
      let high := 256 * (← readByte? a) + (← readByte? b)
      let low := 256 * (← readByte? c) + (← readByte? d)
      return [UInt16.ofNat high, UInt16.ofNat low]
  | _ => none

/-- Reads pieces with colons between them; only those at the end of an address may hold
decimal bytes.
-/
def readPieces? (atEnd : Bool) (text : List Char) : Option (List UInt16) :=
  if text.isEmpty then some []
  else do
    let pieces := Text.pieces (· = ':') text
    let front ← pieces.dropLast.mapM readPiece?
    let last ← pieces.getLast?
    return front ++ (← if atEnd then readLast? last else (readPiece? last).map ([·]))

/-- The texts on either side of the first two colons that stand together. -/
def splitGap : List Char → Option (List Char × List Char)
  | [] => none
  | ':' :: ':' :: rest => some ([], rest)
  | c :: rest => (splitGap rest).map fun (front, behind) => (c :: front, behind)

/-- The address of eight pieces. -/
def ofPieces? (pieces : List UInt16) : Option Ipv6 :=
  if h : pieces.length = 8 then some ⟨pieces, h⟩ else none

/-- Reads an address. -/
def read? (text : List Char) : Option Ipv6 := do
  match splitGap text with
  | none => ofPieces? (← readPieces? true text)
  | some (front, behind) =>
      let front ← readPieces? false front
      let behind ← readPieces? true behind
      let gap := 8 - (front.length + behind.length)
      if gap = 0 then none else ofPieces? (front ++ List.replicate gap 0 ++ behind)

/-- The hexadecimal numeral of a piece. -/
def pieceText (piece : UInt16) : List Char :=
  let n := piece.toNat
  let digits := [n / 4096, n / 256 % 16, n / 16 % 16].dropWhile (· = 0) ++ [n % 16]
  digits.map Text.hexDigit

/-- The pieces with colons between them. -/
def joined (pieces : List UInt16) : List Char :=
  [':'].intercalate (pieces.map pieceText)

/-- The number of zeros that a list begins with. -/
def zeroRun (pieces : List UInt16) : Nat :=
  (pieces.takeWhile (· = 0)).length

/-- Where the longest run of zeros begins, and how long it is; the first of equal ones. -/
def longestZeroRun (pieces : List UInt16) : Nat × Nat :=
  (List.range pieces.length).foldl
    (fun best start =>
      let length := zeroRun (pieces.drop start)
      if best.2 < length then (start, length) else best)
    (0, 0)

/-- The pieces in hexadecimal, with two colons in place of the longest run of zeros if it is
longer than one.
-/
def text (address : Ipv6) : List Char :=
  let (start, length) := longestZeroRun address.pieces
  if length < 2 then joined address.pieces
  else
    joined (address.pieces.take start) ++ ':' :: ':'
      :: joined (address.pieces.drop (start + length))

end Ipv6

-----------------------------------------------------------------------------------------
-- Hosts
-----------------------------------------------------------------------------------------

/-- Why a text is no address. -/
inductive UrlError
  | missingScheme
  | emptyHost
  | invalidPort
  | invalidIpv4
  | invalidIpv6
  | invalidCharacter
  | invalidName
deriving DecidableEq, Repr

/-- The text of a cause. -/
def UrlError.message : UrlError → String
  | missingScheme => "relative URL without a base"
  | emptyHost => "empty host"
  | invalidPort => "invalid port number"
  | invalidIpv4 => "invalid IPv4 address"
  | invalidIpv6 => "invalid IPv6 address"
  | invalidCharacter => "invalid domain character"
  | invalidName => "invalid international domain name"

/-- A host. -/
inductive Host
  | domain (name : List Char)
  | ipv4 (address : Ipv4)
  | ipv6 (address : Ipv6)
  | named (name : List Char)
deriving DecidableEq, Repr

namespace Host

/-- The text of a host. -/
def text : Host → List Char
  | domain name | named name => name
  | ipv4 address => address.text
  | ipv6 address => '[' :: address.text ++ [']']

/-- Reads the inside of a pair of brackets, of which the first one has been passed. -/
def readBracketed (rest : List Char) : Except UrlError Host :=
  match (if rest.getLast? = some ']' then Ipv6.read? rest.dropLast else none) with
  | some address => .ok (ipv6 address)
  | none => .error .invalidIpv6

/-- Reads a host on the web. -/
def readWeb (text : List Char) : Except UrlError Host :=
  match text with
  | '[' :: rest => readBracketed rest
  | _ =>
      match DomainName.ofBytes? (Percent.decode text) with
      | none => .error .invalidName
      | some [] => .error .emptyHost
      | some name =>
          if Ipv4.isClaimed name then (Ipv4.read? name).elim (.error .invalidIpv4) (.ok <| ipv4 ·)
          else .ok (domain name)

/-- The characters that no host has, in whatever scheme. -/
def isForbidden (c : Char) : Bool :=
  "\x00\t\n\r #/:<>?@[\\]^|".toList.contains c

/-- Reads a host of any other scheme. -/
def readNamed (text : List Char) : Except UrlError Host :=
  match text with
  | '[' :: rest => readBracketed rest
  | _ =>
      if text.any isForbidden then .error .invalidCharacter
      else .ok (named (Percent.encode Percent.controls text))

end Host

end GraphShell
