import ChainIndexer.HeightData
import ChainIndexer.Holdings

/-
  What can be asked of a chain.

  A `Chain` has a fixed answer to every question. Height 0 asks for the latest block. `Chain.fetch`
  reads a height: its block first, and its transactions only if the block has any.
-/

namespace ChainIndexer

/-- The answers of a chain. The answer about a block takes `delay` milliseconds. -/
structure Chain where
  block : Nat → Except Error Block
  delay : Nat → Nat
  transactions : Block → Except Error (List (Envelope × Receipt))
  rewards : AccountQuery → Except Error Rewards
  balances : AccountQuery → Except Error Balances
  delegations : AccountQuery → Except Error Delegations

namespace Chain

/-- The data of a height, and how many of its messages could not be mapped. -/
def fetchCounted (c : Chain) (pool : String) (height : Nat) :
    Except Error HeightData × DecodeStats :=
  match c.block height with
  | .error e => (.error e, .zero)
  | .ok block =>
    if block.txCount = 0 then (.ok ⟨block, []⟩, .zero)
    else match c.transactions block with
      | .error e => (.error e, .zero)
      | .ok found => HeightData.decode pool block found .zero

/-- The data of a height. -/
def fetch (c : Chain) (pool : String) (height : Nat) : Except Error HeightData :=
  (c.fetchCounted pool height).1

/-- How many messages of some heights could not be mapped. -/
def stats (c : Chain) (pool : String) (heights : List Nat) : DecodeStats :=
  heights.foldl (fun s h => s.add (c.fetchCounted pool h).2) .zero

end Chain

end ChainIndexer
