import ChainIndexer.Text.Hex
import ChainIndexer.Url.Basic

/-
  Requests and responses of the server.
-/

namespace ChainIndexer.Server

open Text

/-- A request. -/
structure Request where
  method : String
  path : String
  contentType : Option String
  body : String

/-- A response. -/
structure Response where
  status : Nat
  contentType : Option String
  body : String
  deriving DecidableEq

/-- The names on the path, the first of them in front of its first slash: neither a query nor a
fragment counts, and encoded characters are read within a name. -/
def Request.place? (r : Request) : Option (List String) :=
  let path := r.path.toList.takeWhile fun c => c != '?' && c != '#'
  (path.splitOn '/').mapM fun name => String.fromUTF8? ⟨(Url.percentDecode name).toArray⟩

/-- The number of bytes of the body. -/
def Request.size (r : Request) : Nat :=
  r.body.utf8ByteSize

/-! ## Responses -/

/-- A response with a text. -/
def Response.text (status : Nat) (body : String) : Response :=
  ⟨status, some "text/plain; charset=utf-8", body⟩

/-- A response without a body. -/
def Response.empty (status : Nat) : Response :=
  ⟨status, none, ""⟩

end ChainIndexer.Server
