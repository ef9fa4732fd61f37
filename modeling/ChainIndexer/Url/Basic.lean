import ChainIndexer.Url.Fault
import ChainIndexer.Text.Hex

/-
  URLs and their text.

  A URL keeps its parts in the form in which they are written: percent-encoded, the host in lower
  case, and the `portNumber` only where it is not the one of the scheme. The path is a list of
  segments, or an opaque text that nothing can be relative to.
-/

namespace ChainIndexer

open Text

/-- The path of a URL. -/
inductive UrlPath where
  | opaqueText (text : String)
  | segments (names : List String)
  deriving DecidableEq

/-- A URL. -/
structure Url where
  scheme : String
  username : String
  password : String
  host : Option String
  portNumber : Option Nat
  path : UrlPath
  query : Option String
  fragment : Option String
  deriving DecidableEq

namespace Url

/-! ## Schemes -/

/-- The schemes whose URLs always have a host and a path, with the numbers of their services. -/
def specialPorts : List (String × Option Nat) :=
  [("http", some 80), ("https", some 443), ("ws", some 80), ("wss", some 443), ("ftp", some 21),
   ("file", none)]

/-- Whether the scheme is special. -/
def isSpecial (scheme : String) : Bool :=
  (specialPorts.lookup scheme).isSome

/-- The `portNumber` of a scheme. -/
def defaultPort? (scheme : String) : Option Nat :=
  (specialPorts.lookup scheme).join

/-! ## Percent-encoding -/

/-- A byte as a percent sign and two digits. -/
def percentByte (b : UInt8) : List Char :=
  '%' :: hexByte true b

/-- Control characters and everything beyond ASCII. -/
def isControl (c : Char) : Bool :=
  c.toNat < 0x20 || 0x7E < c.toNat

/-- What is encoded in a fragment. -/
def inFragmentSet (c : Char) : Bool :=
  isControl c || [' ', '"', '<', '>', '`'].contains c

/-- What is encoded in a path. -/
def inPathSet (c : Char) : Bool :=
  inFragmentSet c || ['#', '?', '\x7b', '\x7d'].contains c

/-- What is encoded in a user name or a password. -/
def inUserSet (c : Char) : Bool :=
  inPathSet c || ['/', ':', ';', '=', '@', '[', '\\', ']', '^', '|'].contains c

/-- What is encoded in a query. -/
def inQuerySet (special : Bool) (c : Char) : Bool :=
  isControl c || [' ', '"', '#', '<', '>'].contains c || (special && c == '\'')

/-- A character, encoded if it is in the set. -/
def encodeChar (inSet : Char → Bool) (c : Char) : List Char :=
  if inSet c then (String.utf8EncodeChar c).flatMap percentByte else [c]

/-- The characters with those of the set encoded. -/
def encode (inSet : Char → Bool) (cs : List Char) : String :=
  String.ofList (cs.flatMap (encodeChar inSet))

/-- The bytes of characters in which percent signs with two digits stand for bytes. -/
def percentDecode : List Char → Bytes
  | [] => []
  | '%' :: h :: l :: rest =>
    match hexValue? h, hexValue? l with
    | some x, some y => UInt8.ofNat (x * 16 + y) :: percentDecode rest
    | _, _ => String.utf8EncodeChar '%' ++ percentDecode (h :: l :: rest)
  | c :: rest => String.utf8EncodeChar c ++ percentDecode rest
  termination_by cs => cs.length

/-! ## Text -/

/-- The path as it is written. -/
def UrlPath.text : UrlPath → String
  | .opaqueText s => s
  | .segments names => String.join (names.map ("/" ++ ·))

/-- The user as it is written. -/
def userText (u : Url) : String :=
  if u.username = "" ∧ u.password = "" then ""
  else u.username ++ (if u.password = "" then "" else ":" ++ u.password) ++ "@"

/-- The host with the user and the `portNumber`. -/
def authorityText (u : Url) : String :=
  match u.host with
  | none => ""
  | some host =>
    "//" ++ u.userText ++ host ++ match u.portNumber with
      | some p => ":" ++ p.repr
      | none => ""

/-- What keeps a path without host apart from a host. -/
def pathGuard (u : Url) : String :=
  match u.host, u.path with
  | none, .segments ("" :: _ :: _) => "/."
  | _, _ => ""

/-- The path and the query, as a request names its target. -/
def target (u : Url) : String :=
  UrlPath.text u.path ++ match u.query with
    | some q => "?" ++ q
    | none => ""

/-- The text of a URL. -/
def text (u : Url) : String :=
  u.scheme ++ ":" ++ u.authorityText ++ u.pathGuard ++ u.target ++ match u.fragment with
    | some f => "#" ++ f
    | none => ""

end Url

end ChainIndexer
