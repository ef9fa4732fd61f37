import ChainIndexer.Json.Fields
import ChainIndexer.Log

/-
  The stored form of message logs.
-/

namespace ChainIndexer

/-- The stored form of an attribute. -/
def LogAttribute.toJson (a : LogAttribute) : Json :=
  .object (Json.field "key" (.text a.key) ++ Json.field "value" (.text a.value))

/-- The attribute of a stored form. -/
def LogAttribute.ofJson : Json → Except Json.Fault LogAttribute :=
  let record := Json.recordOf "LogAttribute" 2
  Json.readRecord "LogAttribute" 2 fun r => LogAttribute.mk
    <$> r.required record 0 "key" Json.readText
    <*> r.required record 1 "value" Json.readText

/-- The stored form of a log event. -/
def LogEvent.toJson (e : LogEvent) : Json :=
  .object (Json.field "type" (.text e.kind)
    ++ Json.field "attributes" (.array (e.attributes.map LogAttribute.toJson)))

/-- The log event of a stored form. -/
def LogEvent.ofJson : Json → Except Json.Fault LogEvent :=
  let record := Json.recordOf "LogEvent" 2
  Json.readRecord "LogEvent" 2 fun r => LogEvent.mk
    <$> r.required record 0 "type" Json.readText
    <*> r.required record 1 "attributes" (Json.readList LogAttribute.ofJson)

/-- The stored form of a log. -/
def MessageLog.toJson (log : MessageLog) : Json :=
  .object (Json.field "msg_index" (.nat log.index)
    ++ Json.textField "log" log.text
    ++ Json.field "events" (.array (log.events.map LogEvent.toJson)))

/-- The log of a stored form. -/
def MessageLog.ofJson : Json → Except Json.Fault MessageLog :=
  let record := Json.recordOf "MessageLog" 3
  Json.readRecord "MessageLog" 3 fun r => MessageLog.mk
    <$> r.required record 0 "msg_index" Json.readNat32
    <*> r.defaulted 1 "log" "" Json.readText
    <*> r.required record 2 "events" (Json.readList LogEvent.ofJson)

/-- The stored form of logs. -/
def MessageLog.listToJson (logs : List MessageLog) : Json :=
  .array (logs.map MessageLog.toJson)

end ChainIndexer
