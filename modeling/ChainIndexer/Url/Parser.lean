import ChainIndexer.Url.Host

/-
  Reading URLs.

  `Url.parse` reads an absolute URL, and `Url.join` resolves a text against a URL. Blanks and
  control characters at the ends are dropped, and so are tabs and line ends anywhere. Dot segments
  are resolved while a path is read; a backslash is a slash under the special schemes.
-/

namespace ChainIndexer.Url

open Text

/-! ## Input -/

/-- Whether a character is dropped at the ends. -/
def isEdge (c : Char) : Bool :=
  c.toNat ≤ 0x20

/-- The characters that count. -/
def clean (s : String) : List Char :=
  let cs := s.toList.dropWhile isEdge
  let cs := (cs.reverse.dropWhile isEdge).reverse
  cs.filter fun c => c != '\t' && c != '\n' && c != '\r'

/-- Whether a character divides a path. -/
def isSlash (special : Bool) (c : Char) : Bool :=
  c == '/' || (special && c == '\\')

/-- Whether a character ends a host or a path segment. -/
def endsPart (special : Bool) (c : Char) : Bool :=
  isSlash special c || c == '?' || c == '#'

/-- The scheme in front, in lower case, and what follows its colon. -/
def splitScheme? (cs : List Char) : Option (String × List Char) :=
  let isSchemeChar := fun c : Char => c.isAlphanum || c == '+' || c == '-' || c == '.'
  match cs.takeWhile isSchemeChar, cs.dropWhile isSchemeChar with
  | c :: name, ':' :: rest =>
    if c.isAlpha then some (String.ofList ((c :: name).map Char.toLower), rest) else none
  | _, _ => none

/-! ## Query and fragment -/

/-- The text in front of a fragment, and the fragment. -/
def splitFragment (cs : List Char) : List Char × Option String :=
  match cs.dropWhile (· != '#') with
  | _ :: f => (cs.takeWhile (· != '#'), some (encode inFragmentSet f))
  | [] => (cs, none)

/-- The query and the fragment at the end of a URL; a text without a question mark has no query. -/
def readEnd (special : Bool) (cs : List Char) : Option String × Option String :=
  let (front, fragment) := splitFragment cs
  match front with
  | '?' :: q => (some (encode (inQuerySet special) q), fragment)
  | _ => (none, fragment)

/-! ## Paths -/

/-- A segment in which an encoded point is a point. -/
def plainDots : List Char → List Char
  | [] => []
  | '%' :: '2' :: 'e' :: rest => '.' :: plainDots rest
  | '%' :: '2' :: 'E' :: rest => '.' :: plainDots rest
  | c :: rest => c :: plainDots rest

/-- Whether a segment stands for the place where it is. -/
def isSingleDot (segment : List Char) : Bool :=
  plainDots segment == ['.']

/-- Whether a segment stands for the place above. -/
def isDoubleDot (segment : List Char) : Bool :=
  plainDots segment == ['.', '.']

/-- The segments of a path text, divided by slashes. -/
def splitPath (special : Bool) (cs : List Char) : List (List Char) :=
  cs.splitOnP (isSlash special)

/-- Puts the segments behind those of `done`, which stand in reverse. A dot segment at the end
leaves an empty segment. -/
def resolve (done : List String) : List (List Char) → List String
  | [] => done.reverse
  | [last] =>
    if isDoubleDot last then ("" :: done.tail).reverse
    else if isSingleDot last then ("" :: done).reverse
    else (encode inPathSet last :: done).reverse
  | segment :: rest =>
    if isDoubleDot segment then resolve done.tail rest
    else if isSingleDot segment then resolve done rest
    else resolve (encode inPathSet segment :: done) rest

/-- The path behind a host, and what follows it. The first slash is not part of a segment. -/
def readPath (special : Bool) (cs : List Char) : List String × List Char :=
  let isEnd := fun c : Char => c == '?' || c == '#'
  let text := cs.takeWhile (!isEnd ·)
  let rest := cs.dropWhile (!isEnd ·)
  match text with
  | [] => (if special then [""] else [], rest)
  | c :: more =>
    if isSlash special c then (resolve [] (splitPath special more), rest)
    else (resolve [] (splitPath special (c :: more)), rest)

/-! ## User and host -/

/-- The text before and behind the last at sign. -/
def splitUser (cs : List Char) : Option (List Char × List Char) :=
  if cs.contains '@' then
    let tail := cs.reverse.takeWhile (· != '@')
    some (cs.take (cs.length - tail.length - 1), tail.reverse)
  else none

/-- A user name and a password, encoded. -/
def readUser (cs : List Char) : String × String :=
  let name := cs.takeWhile (· != ':')
  let password := (cs.dropWhile (· != ':')).drop 1
  (encode inUserSet name, encode inUserSet password)

/-- A `portNumber`; the one of the scheme is not kept. -/
def readPort (scheme : String) (cs : List Char) : Except UrlFault (Option Nat) :=
  if cs.all Char.isDigit then
    let n := Nat.ofDigitChars 10 cs 0
    if n > 65535 then .error .portNumber
    else if cs = [] ∨ defaultPort? scheme = some n then .ok none
    else .ok (some n)
  else .error .portNumber

/-- The host and the `portNumber` of an authority; a colon inside brackets belongs to the host. -/
def splitPort : Bool → List Char → List Char × Option (List Char)
  | _, [] => ([], none)
  | inside, c :: rest =>
    if c = ':' ∧ !inside then ([], some rest)
    else
      let inside := if c = '[' then true else if c = ']' then false else inside
      let (host, digits) := splitPort inside rest
      (c :: host, digits)

/-- The parts of an authority. -/
structure Authority where
  username : String
  password : String
  host : String
  portNumber : Option Nat

/-- An authority. -/
def readAuthority (scheme : String) (cs : List Char) : Except UrlFault Authority := do
  let (user, rest) := (splitUser cs).getD ([], cs)
  let (hostText, portText) := splitPort false rest
  if hostText = [] ∧ (isSpecial scheme ∨ portText.isSome ∨ user ≠ []) then throw .emptyHost
  let host ← if isSpecial scheme then readHost hostText else readOpaqueHost hostText
  let portNumber ← match portText with
    | some p => readPort scheme p
    | none => pure none
  let (username, password) := readUser user
  return ⟨username, password, host, portNumber⟩

/-! ## Absolute URLs -/

/-- A URL whose authority begins here. -/
def readHierarchy (scheme : String) (cs : List Char) : Except UrlFault Url := do
  let special := isSpecial scheme
  let a ← readAuthority scheme (cs.takeWhile (!endsPart special ·))
  let (names, rest) := readPath special (cs.dropWhile (!endsPart special ·))
  let (query, fragment) := readEnd special rest
  return ⟨scheme, a.username, a.password, some a.host, a.portNumber, .segments names, query,
    fragment⟩

/-- The host of a file; the local host is none. -/
def readFileHost (cs : List Char) : Except UrlFault String :=
  if cs = [] then .ok ""
  else (readHost cs).map fun host => if host = "localhost" then "" else host

/-- A URL of a file, behind the scheme. -/
def readFile (cs : List Char) : Except UrlFault Url := do
  let (host, rest) ← match cs with
    | a :: b :: rest =>
      if isSlash true a ∧ isSlash true b then
        (readFileHost (rest.takeWhile (!endsPart true ·))).map
          fun host => (host, rest.dropWhile (!endsPart true ·))
      else pure ("", cs)
    | _ => pure ("", cs)
  let (names, rest) := readPath true rest
  let (query, fragment) := readEnd true rest
  return ⟨"file", "", "", some host, none, .segments names, query, fragment⟩

/-- A URL of a scheme that is not special, behind the scheme. -/
def readOther (scheme : String) (cs : List Char) : Except UrlFault Url :=
  match cs with
  | '/' :: '/' :: rest => readHierarchy scheme rest
  | '/' :: _ =>
    let (names, rest) := readPath false cs
    let (query, fragment) := readEnd false rest
    .ok ⟨scheme, "", "", none, none, .segments names, query, fragment⟩
  | _ =>
    let isEnd := fun c : Char => c == '?' || c == '#'
    let (query, fragment) := readEnd false (cs.dropWhile (!isEnd ·))
    .ok ⟨scheme, "", "", none, none, .opaqueText (encode isControl (cs.takeWhile (!isEnd ·))),
      query, fragment⟩

/-- An absolute URL. -/
def parse (s : String) : Except UrlFault Url :=
  match splitScheme? (clean s) with
  | none => .error .relativeWithoutBase
  | some (scheme, rest) =>
    if scheme = "file" then readFile rest
    else if isSpecial scheme then readHierarchy scheme (rest.dropWhile (isSlash true))
    else readOther scheme rest

/-! ## Relative texts -/

/-- The segments of a base without the last one, in reverse. -/
def UrlPath.parents : UrlPath → List String
  | .segments names => names.dropLast.reverse
  | .opaqueText _ => []

/-- Resolves a text that begins with a path segment against a base that has a path. -/
def joinPath (base : Url) (cs : List Char) : Url :=
  let special := isSpecial base.scheme
  let isEnd := fun c : Char => c == '?' || c == '#'
  let names := resolve (UrlPath.parents base.path) (splitPath special (cs.takeWhile (!isEnd ·)))
  let (query, fragment) := readEnd special (cs.dropWhile (!isEnd ·))
  { base with path := .segments names, query := query, fragment := fragment }

/-- Resolves a text that begins with a name and has no scheme. -/
def join (base : Url) (s : String) : Except UrlFault Url :=
  match base.path with
  | .opaqueText _ => .error .opaqueBase
  | .segments _ => .ok (joinPath base (clean s))

/-- The URL with a slash at the end of its path. -/
def asDirectory (u : Url) : Url :=
  match u.path with
  | .segments names =>
    if names.getLastD "x" = "" then u else { u with path := .segments (names ++ [""]) }
  | .opaqueText _ => u

example : (parse "https://H:443/a/./b/../c?q#f").map text = .ok "https://h/a/c?q#f" := by cbv

end ChainIndexer.Url
