import ChainIndexer.Message.Router
import ChainIndexer.Block
import ChainIndexer.Stored.Log

/-
  Transactions, decoded from their envelope.

  `Transaction.decode` takes the envelope, the receipt that the chain gave for it, and its block. A
  transaction is refused when a number of its receipt is negative, a fee is no amount or a message
  has no type URL. A message that cannot be mapped becomes an event that says so, and a transaction
  that failed gets one more event.
-/

namespace ChainIndexer

open Text Message

/-! ## Envelopes -/

/-- The signed form of a transaction, as the fields that stand in it. -/
structure Envelope where
  record : Wire.Record

namespace Envelope

/-- The envelope of bytes. -/
def read (bs : Bytes) : Except Wire.Fault Envelope :=
  (Wire.decode .tx bs).map Envelope.mk

/-- The bytes of an envelope, without anything that is not known. -/
def bytes (e : Envelope) : Bytes :=
  Wire.encode e.record

/-- The body of a transaction, if there is one. -/
def body? (e : Envelope) : Option Wire.Record :=
  e.record.part? 1

/-- The messages, in order. -/
def messages (e : Envelope) : List Packed :=
  match e.body? with
  | some body => (body.parts 1).map Packed.ofRecord
  | none => []

/-- The memo. -/
def memo (e : Envelope) : String :=
  match e.body? with
  | some body => body.text 2
  | none => ""

/-- The coins of the fee. -/
def feeCoins (e : Envelope) : List Coin :=
  match (e.record.part? 2).bind (·.part? 2) with
  | some fee => coinsOf fee 1
  | none => []

end Envelope

/-! ## Receipts -/

/-- What the chain reports about a transaction. -/
structure Receipt where
  height : Int
  txHash : String
  codespace : String
  code : Nat
  rawLog : String
  info : String
  gasWanted : Int
  gasUsed : Int
  logs : List MessageLog
  events : List LogEvent
  tx : Option Packed

/-- The logs of the messages: those that the receipt holds, else those of its flat events. -/
def Receipt.messageLogs (r : Receipt) : List MessageLog :=
  if r.logs = [] then MessageLog.ofFlat r.events else r.logs

/-! ## Transactions -/

/-- A decoded transaction. -/
structure Transaction where
  height : Nat
  hash : String
  blockHash : String
  chainId : String
  time : Instant
  gasWanted : Nat
  gasUsed : Nat
  fee : List Amount
  memo : String
  raw : Bytes
  rawLog : Bytes
  events : List TransactionEvent
  deriving DecidableEq

namespace Transaction

/-- The kind of the event of a transaction that failed. -/
def errorKind : String := "error"

/-- The bytes of a text in UTF-8. -/
def textBytes (s : String) : Bytes :=
  s.toUTF8.toList

/-- The log that is kept: the one of the receipt, else the logs of the messages as a document. -/
def keptLog (r : Receipt) : Bytes :=
  if r.rawLog = "" then textBytes (MessageLog.listToJson r.messageLogs).toText
  else textBytes r.rawLog

/-- The log of a message; one that has none moved nothing. -/
def logOf (logs : List MessageLog) (index : Nat) : MessageLog :=
  (MessageLog.find? logs index).getD .empty

/-- The event of a message. -/
def eventOf (index : Nat) (typeUrl : String) (routed : Routed) : TransactionEvent :=
  let sub := match routed with
    | .event e => e
    | .unknown route =>
      .failed routed.kind route.moduleName (Error.unknownMessage typeUrl).message
    | .broken kind fault => .failed routed.kind kind.moduleName fault.toError.message
  ⟨index.repr, routed.kind, [sub]⟩

/-- Routes the messages from `index` on and counts those that could not be mapped. -/
def routeMessages (pool : String) (logs : List MessageLog) :
    Nat → List Packed → DecodeStats → Except Error (List TransactionEvent) × DecodeStats
  | _, [], s => (.ok [], s)
  | index, m :: rest, s =>
    match Message.route m.typeUrl m.value ⟨logOf logs index, pool⟩ s with
    | (.error e, s) => (.error e, s)
    | (.ok routed, s) =>
      match routeMessages pool logs (index + 1) rest s with
      | (.ok events, s) => (.ok (eventOf index m.typeUrl routed :: events), s)
      | (.error e, s) => (.error e, s)

/-- The event of a transaction that failed, behind those of its messages. -/
def failureEvents (r : Receipt) (count : Nat) : List TransactionEvent :=
  if r.code = 0 then []
  else [⟨count.repr, errorKind,
    [.failed errorKind r.codespace (if r.rawLog = "" then r.info else r.rawLog)]⟩]

/-- A number of a receipt. -/
def unsigned (z : Int) : Except Error Nat :=
  (toUnsigned z).mapError .narrowing

/-- The coins of a fee. -/
def feeAmounts (e : Envelope) : Except Error (List Amount) :=
  e.feeCoins.mapM fun c => (Amount.ofCoin c.amount c.denom).mapError .ofAmount

/-- A transaction without its events. -/
def header (e : Envelope) (r : Receipt) (block : Block) : Except Error Transaction := do
  let height ← unsigned r.height
  let gasWanted ← unsigned r.gasWanted
  let gasUsed ← unsigned r.gasUsed
  let fee ← feeAmounts e
  return {
    height := height
    hash := r.txHash
    blockHash := block.hash
    chainId := block.chainId
    time := block.time
    gasWanted := gasWanted
    gasUsed := gasUsed
    fee := fee
    memo := e.memo
    raw := e.bytes
    rawLog := keptLog r
    events := [] }

/-- The transaction of an envelope, and the counters after it. -/
def decode (pool : String) (e : Envelope) (r : Receipt) (block : Block) (s : DecodeStats) :
    Except Error Transaction × DecodeStats :=
  match header e r block with
  | .error err => (.error err, s)
  | .ok t =>
    match routeMessages pool r.messageLogs 0 e.messages s with
    | (.error err, s) => (.error err, s)
    | (.ok events, s) => (.ok { t with events := events ++ failureEvents r events.length }, s)

end Transaction

end ChainIndexer
