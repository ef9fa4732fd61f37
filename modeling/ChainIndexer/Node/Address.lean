import ChainIndexer.Error

/-
  Where a node is to be found.

  An address is a scheme with an authority and perhaps a path, or an authority alone. It is written
  with a path wherever it has a scheme.
-/

namespace ChainIndexer.Node

/-- The address of a node. -/
structure Address where
  scheme : Option String
  authority : String
  path : String
  deriving DecidableEq

namespace Address

/-- Whether a character may stand in an address. -/
def isAllowed (c : Char) : Bool :=
  0x21 ≤ c.toNat && c.toNat ≤ 0x7E && !("\"<>\\^`".toList ++ ['\x7b', '|', '\x7d']).contains c

/-- The scheme in front of `://`, and what follows. -/
def splitScheme (cs : List Char) : Option (List Char × List Char) :=
  let isSchemeChar := fun c : Char => c.isAlphanum || c == '+' || c == '-' || c == '.'
  match cs.takeWhile isSchemeChar, cs.dropWhile isSchemeChar with
  | _ :: _, ':' :: '/' :: '/' :: rest => some (cs.takeWhile isSchemeChar, rest)
  | _, _ => none

/-- Whether a character ends an authority. -/
def endsAuthority (c : Char) : Bool :=
  c == '/' || c == '?' || c == '#'

/-- The address that a text writes, if it writes one. -/
def read? (s : String) : Option Address :=
  let cs := s.toList
  if cs = [] ∨ !cs.all isAllowed then none
  else match splitScheme cs with
    | some (scheme, rest) =>
      let authority := rest.takeWhile (!endsAuthority ·)
      let path := (rest.dropWhile (!endsAuthority ·)).takeWhile (· != '#')
      if authority = [] then none
      else some ⟨some (String.ofList (scheme.map Char.toLower)), String.ofList authority,
        String.ofList path⟩
    | none =>
      if cs.head? = some '/' then some ⟨none, "", s⟩
      else if cs.any endsAuthority then none
      else some ⟨none, s, ""⟩

/-- The path as it is written. -/
def pathText (a : Address) : String :=
  match a.scheme, a.path.toList with
  | some _, [] => "/"
  | some _, '?' :: _ => "/" ++ a.path
  | _, _ => a.path

/-- The text of an address. -/
def text (a : Address) : String :=
  match a.scheme with
  | some s => s ++ "://" ++ a.authority ++ a.pathText
  | none => a.authority ++ a.pathText

/-- The address that a text writes. -/
def read (s : String) : Except Error Address :=
  match read? s with
  | some a => .ok a
  | none => .error (.note "Invalid grpc url")

/-- The error of a node that cannot be reached. -/
def unreachable (a : Address) : Error :=
  .context ("Failed to connect to gRPC URI, \"" ++ a.text ++ "\"!") .transport

end Address

end ChainIndexer.Node
