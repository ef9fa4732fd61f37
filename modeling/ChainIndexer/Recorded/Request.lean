import ChainIndexer.Recorded.Fields
import ChainIndexer.Server.Request

/-
  Recorded requests of the server, and the record of a response.
-/

namespace ChainIndexer.Server

/-- A recorded request. One without a method asks for something. -/
def Request.ofRecord (v : Json) : Request where
  method := ((v.get? "method").map Json.asText).getD "GET"
  path := v.textAt "path"
  contentType := (v.present? "content_type").map Json.asText
  body := v.textAt "body"

/-- The record of a response. -/
def Response.toRecord (r : Response) : Json :=
  .object (Json.field "status" (.nat r.status)
    ++ Json.field "content_type" (Json.orNull (r.contentType.map .text))
    ++ Json.field "body" (.text r.body))

end ChainIndexer.Server
