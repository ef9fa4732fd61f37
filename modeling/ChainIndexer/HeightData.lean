import ChainIndexer.Stored.Transaction

/-
  One height of the chain, with its decoded transactions.
-/

namespace ChainIndexer

/-- A block and its transactions. -/
structure HeightData where
  block : Block
  transactions : List Transaction
  deriving DecidableEq

/-- The counters of two runs together. -/
def DecodeStats.add (a b : DecodeStats) : DecodeStats :=
  ⟨a.unknown + b.unknown, a.broken + b.broken⟩

namespace HeightData

/-- Decodes the transactions of a block one after another, up to the first that is refused. -/
def decodeAll (pool : String) (block : Block) :
    List (Envelope × Receipt) → DecodeStats → Except Error (List Transaction) × DecodeStats
  | [], s => (.ok [], s)
  | (e, r) :: rest, s =>
    match Transaction.decode pool e r block s with
    | (.error err, s) => (.error err, s)
    | (.ok t, s) =>
      match decodeAll pool block rest s with
      | (.ok ts, s) => (.ok (t :: ts), s)
      | (.error err, s) => (.error err, s)

/-- The data of a block whose transactions have been found. -/
def decode (pool : String) (block : Block) (found : List (Envelope × Receipt)) (s : DecodeStats) :
    Except Error HeightData × DecodeStats :=
  match decodeAll pool block found s with
  | (.ok ts, s) => (.ok ⟨block, ts⟩, s)
  | (.error err, s) => (.error err, s)

/-- The written form of the data of a height. -/
def toJson (d : HeightData) : Json :=
  .object (Json.field "block" d.block.toJson
    ++ Json.field "transactions" (listJson Transaction.toJson d.transactions))

end HeightData

end ChainIndexer
