/-
  Media types.

  A media type is a kind and a name, which may say after a plus sign on what format it builds.
  Parameters follow behind semicolons. They are passed over, but have to be well formed: a name, an
  equals sign, and a value that is a token or stands in quotes.
-/

namespace ChainIndexer.Server

/-- A media type without its parameters, in lower case. -/
structure MediaType where
  kind : String
  name : String
  format : Option String
  deriving DecidableEq

namespace MediaType

/-- Whether a character may stand in a token. -/
def isTokenChar (c : Char) : Bool :=
  c.isAlphanum || "!#$%&'*+-.^_`|~".toList.contains c

/-- Whether a character may stand in quotes. -/
def isQuotedChar (c : Char) : Bool :=
  0x20 ≤ c.toNat && c.toNat < 0x7F

/-! ## Parameters -/

/-- Where a reader of parameters stands. -/
inductive Place where
  | before
  | name
  | value
  | token
  | quote
  | quoted
  | behind
  deriving DecidableEq

/-- The place behind a character, if it may stand there. -/
def Place.next : Place → Char → Option Place
  | before, c => if c = ' ' then some before else if isTokenChar c then some name else none
  | name, c => if c = '=' then some value else if isTokenChar c then some name else none
  | value, c => if c = '"' then some quote else if isTokenChar c then some token else none
  | token, c => if c = ';' then some before else if isTokenChar c then some token else none
  | quote, c => if isQuotedChar c then some quoted else none
  | quoted, c => if c = '"' then some behind else if isQuotedChar c then some quoted else none
  | behind, c => if c = ';' then some before else if c = ' ' then some behind else none

/-- Whether parameters may end at a place. -/
def Place.isEnd : Place → Bool
  | before | value | token | behind => true
  | name | quote | quoted => false

/-- Whether parameters are well formed. -/
def areParameters (cs : List Char) : Bool :=
  (cs.foldlM Place.next .before).any Place.isEnd

/-! ## Types -/

/-- A text in lower case. -/
def lower (cs : List Char) : String :=
  String.ofList (cs.map Char.toLower)

/-- The name in front of the last plus sign that has something before it, and what stands behind. -/
def splitFormat (cs : List Char) : List Char × Option (List Char) :=
  let tail := cs.reverse.takeWhile (· != '+')
  let front := cs.take (cs.length - tail.length - 1)
  if tail.length < cs.length ∧ front ≠ [] then (front, some tail.reverse) else (cs, none)

/-- The media type of a text. -/
def read? (s : String) : Option MediaType :=
  let cs := s.toList
  let kind := cs.takeWhile isTokenChar
  match cs.dropWhile isTokenChar with
  | '/' :: rest =>
    let (name, format) := splitFormat (rest.takeWhile isTokenChar)
    let type : MediaType := ⟨lower kind, lower name, format.map lower⟩
    if kind = [] then none
    else match rest.dropWhile isTokenChar with
      | [] => some type
      | ';' :: parameters => if name ≠ [] ∧ areParameters parameters then some type else none
      | _ => none
  | _ => none

/-- Whether a body of the type is JSON: by its name, or by the format on which it builds. -/
def isJson (m : MediaType) : Bool :=
  m.name == "json" || m.format == some "json"

example : (read? "application/json; charset=utf-8").any isJson = true := by decide +kernel
example : (read? "application/problem+json").any isJson = true := by decide +kernel
example : (read? "application/json, text/html").any isJson = false := by decide +kernel

end MediaType

end ChainIndexer.Server
