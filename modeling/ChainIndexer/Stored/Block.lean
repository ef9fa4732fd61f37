import ChainIndexer.Json.Fields
import ChainIndexer.Block

/-
  The stored form of blocks, marks and ranges.
-/

namespace ChainIndexer

/-- The instant of a text. -/
def Instant.ofJson (v : Json) : Except Json.Fault Instant := do
  let s ← v.readText
  match Instant.read? s with
  | some t => return t
  | none => throw (.refused "invalid time")

/-- The stored form of an instant. -/
def Instant.toJson (t : Instant) : Json :=
  .text t.text

/-- The stored form of a block. -/
def Block.toJson (b : Block) : Json :=
  .object (Json.field "hash" (.text b.hash)
    ++ Json.field "height" (.nat b.height)
    ++ Json.field "time" b.time.toJson
    ++ Json.field "chain_id" (.text b.chainId)
    ++ Json.field "num_txs" (.nat b.txCount))

/-- The block of a stored form. -/
def Block.ofJson : Json → Except Json.Fault Block :=
  let record := Json.recordOf "Block" 5
  Json.readRecord "Block" 5 fun r => Block.mk
    <$> r.required record 0 "hash" Json.readText
    <*> r.required record 1 "height" Json.readNat64
    <*> r.required record 2 "time" Instant.ofJson
    <*> r.required record 3 "chain_id" Json.readText
    <*> r.required record 4 "num_txs" Json.readNat64

/-- The stored form of a mark. -/
def LatestMark.toJson (m : LatestMark) : Json :=
  .object (Json.field "last_height" (.nat m.lastHeight)
    ++ Json.field "last_hash" (.text m.lastHash)
    ++ Json.field "last_time" m.lastTime.toJson)

/-- The mark of a stored form. -/
def LatestMark.ofJson : Json → Except Json.Fault LatestMark :=
  let record := Json.recordOf "LatestMark" 3
  Json.readRecord "LatestMark" 3 fun r => LatestMark.mk
    <$> r.required record 0 "last_height" Json.readNat64
    <*> r.required record 1 "last_hash" Json.readText
    <*> r.required record 2 "last_time" Instant.ofJson

/-- The stored form of a height with a hash. -/
def HeightHash.toJson (h : HeightHash) : Json :=
  .object (Json.field "height" (.nat h.height) ++ Json.field "hash" (.text h.hash))

/-- The height with a hash of a stored form. -/
def HeightHash.ofJson : Json → Except Json.Fault HeightHash :=
  Json.readRecord "HeightHash" 2 fun r => HeightHash.mk
    <$> r.defaulted 0 "height" 0 Json.readNat64
    <*> r.defaulted 1 "hash" "" Json.readText

/-- The stored form of a request for the latest data. -/
def LatestDataRequest.toJson (q : LatestDataRequest) : Json :=
  .object
    (Json.field "last_height" (.nat q.lastHeight) ++ Json.field "last_hash" (.text q.lastHash))

/-- The request for the latest data of a stored form. -/
def LatestDataRequest.ofJson : Json → Except Json.Fault LatestDataRequest :=
  Json.readRecord "LatestDataRequest" 2 fun r => LatestDataRequest.mk
    <$> r.defaulted 0 "last_height" 0 Json.readNat64
    <*> r.defaulted 1 "last_hash" "" Json.readText

/-- The stored form of a range. -/
def HeightRange.toJson (r : HeightRange) : Json :=
  .object (Json.field "start_height" (.nat r.start) ++ Json.field "end_height" (.nat r.stop))

/-- The range of a stored form. -/
def HeightRange.ofJson : Json → Except Json.Fault HeightRange :=
  let record := Json.recordOf "HeightRange" 2
  Json.readRecord "HeightRange" 2 fun r => HeightRange.mk
    <$> r.required record 0 "start_height" Json.readNat64
    <*> r.required record 1 "end_height" Json.readNat64

end ChainIndexer
