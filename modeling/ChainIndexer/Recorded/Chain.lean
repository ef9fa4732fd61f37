import ChainIndexer.Chain.Local
import ChainIndexer.Recorded.Fields

/-
  Recorded blocks, receipts and chains.

  Attributes are recorded as pairs, times as seconds and nanoseconds, and byte strings in
  hexadecimal.
-/

namespace ChainIndexer

/-- A pair of two texts. -/
def LogAttribute.ofRecord (v : Json) : LogAttribute :=
  match v.asList with
  | [key, value] => ⟨key.asText, value.asText⟩
  | _ => ⟨"", ""⟩

/-- A recorded event. -/
def LogEvent.ofRecord (v : Json) : LogEvent :=
  ⟨v.textAt "type", (v.listAt "attributes").map LogAttribute.ofRecord⟩

/-- A recorded log. -/
def MessageLog.ofRecord (v : Json) : MessageLog :=
  ⟨v.natAt "msg_index", v.textAt "log", (v.listAt "events").map LogEvent.ofRecord⟩

/-- A recorded receipt. -/
def Receipt.ofRecord (v : Json) : Receipt where
  height := v.intAt "height"
  txHash := v.textAt "txhash"
  codespace := v.textAt "codespace"
  code := v.natAt "code"
  rawLog := v.textAt "raw_log"
  info := v.textAt "info"
  gasWanted := v.intAt "gas_wanted"
  gasUsed := v.intAt "gas_used"
  logs := (v.listAt "logs").map MessageLog.ofRecord
  events := (v.listAt "events").map LogEvent.ofRecord
  tx := (v.present? "tx").map fun t => ⟨t.textAt "type_url", t.bytesAt "value"⟩

/-- Recorded seconds and nanoseconds. -/
def recordedTime (v : Json) : Int × Int :=
  match v.asList with
  | [seconds, nanos] => (seconds.asInt, nanos.asInt)
  | _ => (0, 0)

/-- A recorded block. -/
def Block.ofRecord (v : Json) : Block where
  hash := v.textAt "hash"
  height := v.natAt "height"
  time := let (s, n) := recordedTime (v.get "time"); (Instant.ofSigned? s n).getD .epoch
  chainId := v.textAt "chain_id"
  txCount := v.natAt "num_txs"

/-- A recorded chain. -/
def LocalChain.ofRecord (v : Json) : LocalChain where
  latest := v.natAt "latest"
  unavailable := (v.listAt "failing").map Json.asNat
  delays := (v.get "delays").byHeight Json.asNat
  transactions := (v.get "txs").byHeight fun ts =>
    ts.asList.map fun t => (t.bytesAt "tx", Receipt.ofRecord (t.get "response"))
  counts := (v.get "num_txs").byHeight Json.asNat

end ChainIndexer
