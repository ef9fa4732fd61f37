import ChainIndexer.Transaction
import ChainIndexer.Stored.Event
import ChainIndexer.Stored.Block
import ChainIndexer.Text.Base64

/-
  The stored form of transactions. Byte strings are written in base64.
-/

namespace ChainIndexer

open Text

/-- The byte string of a text in base64. -/
def readBase64Text (v : Json) : Except Json.Fault Bytes := do
  let s ← v.readText
  match readBase64? s with
  | some bs => return bs
  | none => throw (.refused "invalid base64")

/-- The stored form of a transaction. -/
def Transaction.toJson (t : Transaction) : Json :=
  .object (Json.field "height" (.nat t.height)
    ++ Json.field "hash" (.text t.hash)
    ++ Json.field "block_hash" (.text t.blockHash)
    ++ Json.field "chain_id" (.text t.chainId)
    ++ Json.field "time" t.time.toJson
    ++ Json.field "gas_wanted" (.nat t.gasWanted)
    ++ Json.field "gas_used" (.nat t.gasUsed)
    ++ Json.field "fee" (.array (t.fee.map Amount.toJson))
    ++ Json.field "memo" (.text t.memo)
    ++ Json.field "raw" (.text (base64 t.raw))
    ++ Json.field "raw_log" (.text (base64 t.rawLog))
    ++ Json.field "events" (.array (t.events.map TransactionEvent.toJson)))

/-- The transaction of a stored form. -/
def Transaction.ofJson : Json → Except Json.Fault Transaction :=
  let record := Json.recordOf "Transaction" 12
  Json.readRecord "Transaction" 12 fun r => Transaction.mk
    <$> r.required record 0 "height" Json.readNat64
    <*> r.required record 1 "hash" Json.readText
    <*> r.required record 2 "block_hash" Json.readText
    <*> r.required record 3 "chain_id" Json.readText
    <*> r.required record 4 "time" Instant.ofJson
    <*> r.required record 5 "gas_wanted" Json.readNat64
    <*> r.required record 6 "gas_used" Json.readNat64
    <*> r.required record 7 "fee" (Json.readList Amount.ofJson)
    <*> r.required record 8 "memo" Json.readText
    <*> r.required record 9 "raw" readBase64Text
    <*> r.required record 10 "raw_log" readBase64Text
    <*> r.required record 11 "events" (Json.readList TransactionEvent.ofJson)

end ChainIndexer
