import ChainIndexer.Json.Fields
import ChainIndexer.Event

/-
  The stored form of amounts and events.

  Fields that hold nothing are left out and read back as nothing; big integers are texts.
-/

namespace ChainIndexer

open Text

/-! ## Amounts -/

/-- The integer of a text. -/
def readBigInteger (v : Json) : Except Json.Fault Int := do
  let s ← v.readText
  (readInteger s.toList).mapError fun f => .refused f.message

/-- The stored form of an amount. -/
def Amount.toJson (a : Amount) : Json :=
  .object (Json.field "text" (.text a.text)
    ++ Json.field "numeric" (.text (integerText a.numeric))
    ++ Json.field "exp" (.int a.exp)
    ++ Json.textField "currency" a.currency)

/-- The amount of a stored form. -/
def Amount.ofJson : Json → Except Json.Fault Amount :=
  let record := Json.recordOf "Amount" 4
  Json.readRecord "Amount" 4 fun r => Amount.mk
    <$> r.required record 0 "text" Json.readText
    <*> r.required record 1 "numeric" readBigInteger
    <*> r.required record 2 "exp" Json.readInt32
    <*> r.defaulted 3 "currency" "" Json.readText

/-! ## Accounts -/

/-- The stored form of details. -/
def AccountDetails.toJson (d : AccountDetails) : Json :=
  .object (Json.textField "name" d.name
    ++ Json.textField "description" d.description
    ++ Json.textField "contact" d.contact
    ++ Json.textField "website" d.website)

/-- The details of a stored form. -/
def AccountDetails.ofJson : Json → Except Json.Fault AccountDetails :=
  Json.readRecord "AccountDetails" 4 fun r => AccountDetails.mk
    <$> r.defaulted 0 "name" "" Json.readText
    <*> r.defaulted 1 "description" "" Json.readText
    <*> r.defaulted 2 "contact" "" Json.readText
    <*> r.defaulted 3 "website" "" Json.readText

/-- The stored form of an account. -/
def Account.toJson (a : Account) : Json :=
  .object (Json.field "id" (.text a.id)
    ++ Json.optionField "details" (a.details.map AccountDetails.toJson))

/-- The account of a stored form. -/
def Account.ofJson : Json → Except Json.Fault Account :=
  Json.readRecord "Account" 2 fun r => Account.mk
    <$> r.required (Json.recordOf "Account" 2) 0 "id" Json.readText
    <*> r.defaulted 1 "details" none (Json.readOption AccountDetails.ofJson)

/-- The stored form of a transfer. -/
def Transfer.toJson (t : Transfer) : Json :=
  .object (Json.field "account" t.account.toJson
    ++ Json.listField "amounts" (t.amounts.map Amount.toJson))

/-- The transfer of a stored form. -/
def Transfer.ofJson : Json → Except Json.Fault Transfer :=
  Json.readRecord "EventTransfer" 2 fun r => Transfer.mk
    <$> r.required (Json.recordOf "EventTransfer" 2) 0 "account" Account.ofJson
    <*> r.defaulted 1 "amounts" [] (Json.readList Amount.ofJson)

/-! ## Events -/

/-- The entries of a collection, written one by one. -/
def keyedFields (write : α → Json) (m : Keyed α) : List (String × Json) :=
  m.entries.map fun e => (e.1, write e.2)

/-- A list, written item by item. -/
def listJson (write : α → Json) (items : List α) : Json :=
  .array (items.map write)

/-- The stored form of a reason. -/
def failureJson (reason : String) : Json :=
  .object (Json.field "message" (.text reason))

/-- The reason of a stored form. -/
def readFailure : Json → Except Json.Fault String :=
  Json.readRecord "SubsetEventError" 1 fun r =>
    r.required (Json.recordOf "SubsetEventError" 1) 0 "message" Json.readText

/-- The stored form of an event. -/
def Event.toJson (e : Event) : Json :=
  .object (Json.field "type" (Json.texts e.kinds)
    ++ Json.field "module" (.text e.moduleName)
    ++ Json.listField "sender" (e.senders.map Transfer.toJson)
    ++ Json.listField "recipient" (e.recipients.map Transfer.toJson)
    ++ Json.namesField "node" (keyedFields (listJson Account.toJson) e.nodes)
    ++ Json.namesField "amount" (keyedFields Amount.toJson e.amounts)
    ++ Json.namesField "transfers" (keyedFields (listJson Transfer.toJson) e.transfers)
    ++ Json.namesField "additional" (keyedFields Json.texts e.additional)
    ++ Json.optionField "error" (e.failure.map failureJson))

/-- The event of a stored form. -/
def Event.ofJson : Json → Except Json.Fault Event :=
  let record := Json.recordOf "SubsetEvent" 9
  Json.readRecord "SubsetEvent" 9 fun r => Event.mk
    <$> r.required record 0 "type" (Json.readList Json.readText)
    <*> r.required record 1 "module" Json.readText
    <*> r.defaulted 2 "sender" [] (Json.readList Transfer.ofJson)
    <*> r.defaulted 3 "recipient" [] (Json.readList Transfer.ofJson)
    <*> r.defaulted 4 "node" .empty (Json.readKeyed (Json.readList Account.ofJson))
    <*> r.defaulted 5 "amount" .empty (Json.readKeyed Amount.ofJson)
    <*> r.defaulted 6 "transfers" .empty (Json.readKeyed (Json.readList Transfer.ofJson))
    <*> r.defaulted 7 "additional" .empty (Json.readKeyed (Json.readList Json.readText))
    <*> r.defaulted 8 "error" none (Json.readOption readFailure)

/-- The stored form of an event of a transaction. -/
def TransactionEvent.toJson (e : TransactionEvent) : Json :=
  .object (Json.field "id" (.text e.id)
    ++ Json.field "kind" (.text e.kind)
    ++ Json.listField "sub" (e.sub.map Event.toJson))

/-- The event of a transaction of a stored form. -/
def TransactionEvent.ofJson : Json → Except Json.Fault TransactionEvent :=
  let record := Json.recordOf "TransactionEvent" 3
  Json.readRecord "TransactionEvent" 3 fun r => TransactionEvent.mk
    <$> r.required record 0 "id" Json.readText
    <*> r.required record 1 "kind" Json.readText
    <*> r.defaulted 2 "sub" [] (Json.readList Event.ofJson)

end ChainIndexer
