import GraphShell.Url.Host

/-! Addresses of resources, in parts that are already in their written form: a scheme, an
authority, a path, a query and a fragment. Segments of a path are put one behind the other: a
double dot takes the segment before it back, a single dot is nothing, and any other segment is
added in its written form. A text ends where a mark of the next part stands, so each part is cut
off first and read on its own; the leftmost part that cannot be read decides the cause.
-/

namespace GraphShell

-----------------------------------------------------------------------------------------
-- Addresses
-----------------------------------------------------------------------------------------

/-- Who answers for an address, and the credentials to show there. -/
structure Authority where
  user : List Char
  password : List Char
  host : Option Host
  port : Option UInt16
deriving DecidableEq, Repr

/-- Where a resource is: the segments behind slashes, or a text that only its scheme can
read.
-/
inductive UrlPath
  | rooted (segments : List (List Char))
  | verbatim (text : List Char)
deriving DecidableEq, Repr

/-- The address of a resource. -/
structure Url where
  scheme : String
  authority : Option Authority
  path : UrlPath
  query : Option (List Char)
  fragment : Option (List Char)
deriving DecidableEq, Repr

/-- The text of an authority. An empty password does not show, nor do empty credentials. -/
def Authority.text (authority : Authority) : List Char :=
  let password := if authority.password.isEmpty then [] else ':' :: authority.password
  let credentials := authority.user ++ password
  (if credentials.isEmpty then [] else credentials ++ ['@'])
    ++ authority.host.elim [] Host.text
    ++ authority.port.elim [] fun port => ':' :: Text.numeral port.toNat

/-- The text of a path. -/
def UrlPath.text : UrlPath → List Char
  | rooted segments => segments.flatMap ('/' :: ·)
  | verbatim text => text

namespace Url

/-- The schemes of the web, whose addresses all have a host. -/
def webSchemes : List String := ["http", "https", "ws", "wss", "ftp"]

/-- The port that an address of a scheme means if it names none. -/
def defaultPort? (scheme : String) : Option UInt16 :=
  match scheme with
  | "http" | "ws" => some 80
  | "https" | "wss" => some 443
  | "ftp" => some 21
  | _ => none

/-- The scheme of files, whose addresses may have a host. -/
def fileScheme : String := "file"

/-- Whether a backslash in addresses of a scheme is as good as a slash. -/
def takesBackslash (scheme : String) : Bool :=
  webSchemes.contains scheme || scheme = fileScheme

/-- Whether the path of an address has segments, so that more can be added. -/
def isHierarchical (url : Url) : Bool :=
  match url.path with
  | .rooted _ => true
  | .verbatim _ => false

/-- What keeps a path without authority from looking like one. -/
def pathGuard (url : Url) : List Char :=
  match url.authority, url.path with
  | none, .rooted ([] :: _ :: _) => ['/', '.']
  | _, _ => []

/-- The path and the query, as a request names them. -/
def target (url : Url) : List Char :=
  url.path.text ++ url.query.elim [] ('?' :: ·)

/-- The text of an address. -/
def text (url : Url) : String :=
  String.ofList <|
    url.scheme.toList ++ [':']
      ++ url.authority.elim [] (fun authority => '/' :: '/' :: authority.text)
      ++ url.pathGuard ++ url.target ++ url.fragment.elim [] ('#' :: ·)

end Url

end GraphShell

namespace GraphShell.UrlPath

-----------------------------------------------------------------------------------------
-- Paths
-----------------------------------------------------------------------------------------

/-- The spellings of a single dot. -/
def isSingleDot (segment : List Char) : Bool :=
  [".", "%2e"].contains (String.ofList (segment.map Char.toLower))

/-- The spellings of a double dot. -/
def isDoubleDot (segment : List Char) : Bool :=
  ["..", ".%2e", "%2e.", "%2e%2e"].contains (String.ofList (segment.map Char.toLower))

/-- Whether a segment names a drive: a letter and a colon, or a bar in its place. -/
def isDrive : List Char → Bool
  | [letter, mark] => letter.isAlpha && (mark = ':' || mark = '|')
  | _ => false

/-- The segments without the last one; a drive is not taken back in paths of files. -/
def parent (ofFile : Bool) (segments : List (List Char)) : List (List Char) :=
  match segments.getLast? with
  | some last => if ofFile && isDrive last then segments else segments.dropLast
  | none => []

/-- The segments with one more behind them, in its written form; `atEnd` says that none will
follow. Dots at the end leave the path of a folder.
-/
def place (ofFile : Bool) (segments : List (List Char)) (segment : List Char) (atEnd : Bool)
    : List (List Char) :=
  if isDoubleDot segment then parent ofFile segments ++ if atEnd then [[]] else []
  else if isSingleDot segment then segments ++ if atEnd then [[]] else []
  else segments ++ [segment]

/-- The segments of a list of raw ones. -/
def placeAll (ofFile : Bool) : List (List Char) → List (List Char) → List (List Char)
  | segments, [] => segments
  | segments, [last] => place ofFile segments last true
  | segments, segment :: rest => placeAll ofFile (place ofFile segments segment false) rest

/-- The path that a text behind a slash spells. -/
def read (takesBackslash ofFile : Bool) (text : List Char) : List (List Char) :=
  let isMark := fun c => c = '/' || (takesBackslash && c = '\\')
  placeAll ofFile [] ((Text.pieces isMark text).map (Percent.encode Percent.path))

end GraphShell.UrlPath

namespace GraphShell.Url

-----------------------------------------------------------------------------------------
-- Reading
-----------------------------------------------------------------------------------------

/-- The characters that a scheme goes on with. -/
def isSchemeChar (c : Char) : Bool :=
  c.isAlphanum || c = '+' || c = '-' || c = '.'

/-- Reads a scheme up to its colon, in lower case. -/
def readScheme? (text : List Char) : Option (String × List Char) :=
  match text, Text.cut (· = ':') text with
  | first :: _, (scheme, some rest) =>
      if first.isAlpha && scheme.all isSchemeChar then
        some (String.ofList (scheme.map Char.toLower), rest)
      else none
  | _, _ => none

/-- Reads the user and the password in front of a host. -/
def readCredentials (text : List Char) : List Char × List Char :=
  let (user, password) := Text.cut (· = ':') text
  (Percent.encode Percent.userInfo user, Percent.encode Percent.userInfo (password.getD []))

/-- Cuts the port off behind a host: it follows the first colon outside brackets. -/
def cutPort (inBrackets : Bool) : List Char → List Char × Option (List Char)
  | [] => ([], none)
  | c :: rest =>
      if c = ':' && !inBrackets then ([], some rest)
      else
        let inside := if c = '[' then true else if c = ']' then false else inBrackets
        let (host, port) := cutPort inside rest
        (c :: host, port)

/-- Reads a port; none if no digit is there, or if it is the one that the scheme means. -/
def readPort (scheme : String) (text : List Char) : Except UrlError (Option UInt16) :=
  if text.isEmpty then .ok none
  else
    match (Text.readNumeral? text).filter (· < UInt16.size) with
    | none => .error .invalidPort
    | some port =>
        let port := UInt16.ofNat port
        .ok (if defaultPort? scheme = some port then none else some port)

/-- Reads a host, which may be missing outside the web. -/
def readHost (scheme : String) (text : List Char) : Except UrlError (Option Host) :=
  if webSchemes.contains scheme then
    if text.isEmpty then .error .emptyHost else (Host.readWeb text).map some
  else if text.isEmpty then .ok none
  else (Host.readNamed text).map some

/-- Reads an authority. Where the host is empty there is neither a port nor a credential;
`goesOn` says that something follows in the address.
-/
def readAuthority (scheme : String) (text : List Char) (goesOn : Bool)
    : Except UrlError Authority := do
  let (credentials, place) := Text.cutLast (· = '@') text
  if credentials = some [] ∧ place.isEmpty ∧ goesOn then throw .emptyHost
  let (user, password) := readCredentials (credentials.getD [])
  let (host, port) := cutPort false place
  let host ← readHost scheme host
  if host.isNone ∧ (port.isSome ∨ !user.isEmpty ∨ !password.isEmpty) then throw .emptyHost
  return ⟨user, password, host, ← readPort scheme (port.getD [])⟩

/-- Reads what follows the two slashes of an address: an authority, and behind the next slash
a path. On the web there is always a path.
-/
def readPlace (scheme : String) (text : List Char) (goesOn : Bool)
    : Except UrlError (Authority × UrlPath) := do
  let backslash := takesBackslash scheme
  let (authority, path) := Text.cut (fun c => c = '/' || (backslash && c = '\\')) text
  let authority ← readAuthority scheme authority (goesOn || path.isSome)
  let segments := match path with
    | some path => UrlPath.read backslash false path
    | none => if webSchemes.contains scheme then [[]] else []
  return (authority, .rooted segments)

/-- The host of a file; the own machine is none. -/
def readFileHost (text : List Char) : Except UrlError (Option Host) :=
  if text.isEmpty then .ok none
  else (Host.readWeb text).map fun host =>
    if host = .domain "localhost".toList then none else some host

/-- The path of a file: drives in their plain spelling, and no empty segment in front. -/
def filePath (text : List Char) : List (List Char) :=
  let segments := (UrlPath.read true true text).map fun segment =>
    if UrlPath.isDrive segment then segment.take 1 ++ [':'] else segment
  match segments.dropWhile List.isEmpty with
  | [] => [[]]
  | segments => segments

/-- Reads what follows the scheme of a file. A drive is never a host, and leaves none. -/
def readFilePlace (text : List Char) : Except UrlError (Authority × UrlPath) := do
  let isSlash := fun c => c = '/' || c = '\\'
  let (host, path) := match text with
    | a :: b :: rest =>
        if isSlash a && isSlash b then
          let (host, path) := Text.cut isSlash rest
          if UrlPath.isDrive host then ([], rest) else (host, path.getD [])
        else ([], text)
    | _ => ([], text)
  let host ← readFileHost host
  let path := filePath path
  let host := if path.any UrlPath.isDrive then none else host
  return (⟨[], [], host, none⟩, .rooted path)

/-- The text without the controls and blanks at its ends, and without tabs and line ends
anywhere.
-/
def stripped (text : List Char) : List Char :=
  let isLow := fun c : Char => c.toNat ≤ 0x20
  let text := ((text.dropWhile isLow).reverse.dropWhile isLow).reverse
  text.filter fun c => c ≠ '\t' ∧ c ≠ '\n' ∧ c ≠ '\r'

/-- Reads an address. -/
def read (text : String) : Except UrlError Url := do
  let some (scheme, rest) := readScheme? (stripped text.toList) | throw .missingScheme
  let (rest, fragment) := Text.cut (· = '#') rest
  let (place, query) := Text.cut (· = '?') rest
  let goesOn := query.isSome || fragment.isSome
  let url (authority : Option Authority) (path : UrlPath) : Url :=
    let escapes := if takesBackslash scheme then Percent.webQuery else Percent.query
    ⟨scheme, authority, path, query.map (Percent.encode escapes),
      fragment.map (Percent.encode Percent.fragment)⟩
  if scheme = fileScheme then
    let (authority, path) ← readFilePlace place
    return url (some authority) path
  else if webSchemes.contains scheme then
    let (authority, path) ←
      readPlace scheme (place.dropWhile fun c => c = '/' || c = '\\') goesOn
    return url (some authority) path
  else
    match place with
    | '/' :: '/' :: rest =>
        let (authority, path) ← readPlace scheme rest goesOn
        return url (some authority) path
    | '/' :: rest => return url none (.rooted (UrlPath.read false false rest))
    | text => return url none (.verbatim (Percent.encode Percent.controls text))

/-- The segment as it is added to a path: escaped so that it is read as one, without tabs and
line ends.
-/
def writtenSegment (scheme : String) (segment : String) : List Char :=
  let escapes := if takesBackslash scheme then Percent.webSegment else Percent.segment
  Percent.encode escapes (segment.toList.filter fun c => c ≠ '\t' ∧ c ≠ '\n' ∧ c ≠ '\r')

/-- The segments with one more behind them; one that is a single or a double dot is left out.
A lone empty segment is no segment yet.
-/
def addSegment (scheme : String) (segments : List (List Char)) (segment : String)
    : List (List Char) :=
  if segment = "." ∨ segment = ".." then segments
  else
    UrlPath.place (scheme = fileScheme) (if segments = [[]] then [] else segments)
      (writtenSegment scheme segment) true

/-- The address with segments added behind its path, from which one empty segment at the end
is taken first.
-/
def append (url : Url) (segments : List String) : Url :=
  match url.path with
  | .verbatim _ => url
  | .rooted base =>
      let start := if 1 < base.length ∧ base.getLast? = some [] then base.dropLast else base
      { url with path := .rooted (segments.foldl (addSegment url.scheme) start) }

end GraphShell.Url
