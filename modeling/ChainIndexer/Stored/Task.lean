import ChainIndexer.Tasks.Basic
import ChainIndexer.Json.Fields

/-
  The stored form of tasks and responses.

  A payload of any form is kept with the fields of its objects in ascending order. A response
  without payload or without error leaves them out.
-/

namespace ChainIndexer

/-- The stored form of a request. -/
def TaskRequest.toJson (q : TaskRequest) : Json :=
  .object (Json.field "id" (.text q.id)
    ++ Json.field "type" (.text q.kind)
    ++ Json.field "payload" q.payload)

/-- The request of a stored form. -/
def TaskRequest.ofJson : Json → Except Json.Fault TaskRequest :=
  let record := Json.recordOf "TaskRequest" 3
  Json.readRecord "TaskRequest" 3 fun r => TaskRequest.mk
    <$> r.required record 0 "id" Json.readText
    <*> r.required record 1 "type" Json.readText
    <*> r.defaulted 2 "payload" .null Json.readAny

/-- The stored form of the text of an error. -/
def taskErrorJson (text : String) : Json :=
  .object (Json.field "msg" (.text text))

/-- The text of an error of a stored form. -/
def readTaskError : Json → Except Json.Fault String :=
  Json.readRecord "TaskError" 1 fun r =>
    r.required (Json.recordOf "TaskError" 1) 0 "msg" Json.readText

/-- A payload that is left out when it is null. -/
def payloadField : Json → List (String × Json)
  | .null => []
  | v => Json.field "payload" v

/-- The stored form of a response. -/
def TaskResponse.toJson (r : TaskResponse) : Json :=
  .object (Json.field "id" (.text r.id)
    ++ Json.field "type" (.text r.kind)
    ++ Json.field "order" (.nat r.order)
    ++ payloadField r.payload
    ++ Json.optionField "error" (r.error.map taskErrorJson)
    ++ Json.field "final" (.bool r.isFinal))

/-- The response of a stored form. -/
def TaskResponse.ofJson : Json → Except Json.Fault TaskResponse :=
  let record := Json.recordOf "TaskResponse" 6
  Json.readRecord "TaskResponse" 6 fun r => TaskResponse.mk
    <$> r.required record 0 "id" Json.readText
    <*> r.required record 1 "type" Json.readText
    <*> r.required record 2 "order" Json.readNat64
    <*> r.defaulted 3 "payload" .null Json.readAny
    <*> r.defaulted 4 "error" none (Json.readOption readTaskError)
    <*> r.required record 5 "final" Json.readBool

/-- A response as one line of text. -/
def TaskResponse.line (r : TaskResponse) : String :=
  r.toJson.toText ++ "\n"

end ChainIndexer
