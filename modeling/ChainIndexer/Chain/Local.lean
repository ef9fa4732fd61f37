import ChainIndexer.Chain.Basic

/-
  A chain that is held in memory.

  It has the heights up to `latest`. Some heights may be unavailable or slow to answer, and a block
  may claim another number of transactions than there are.
-/

namespace ChainIndexer

open Text

/-- A chain that is held in memory. -/
structure LocalChain where
  latest : Nat
  unavailable : List Nat
  delays : List (Nat × Nat)
  transactions : List (Nat × List (Bytes × Receipt))
  counts : List (Nat × Nat)

namespace LocalChain

/-- The time of the first height, less one second. -/
def startTime : Int := 1600000000

/-- The name of the chain. -/
def chainId : String := "cosmoshub-4"

/-- The transactions at a height. -/
def found (c : LocalChain) (height : Nat) : List (Bytes × Receipt) :=
  (c.transactions.lookup height).getD []

/-- The time of a height; a second per height, in 64 bits. -/
def time (height : Nat) : Instant :=
  (Instant.ofParts? (Int.bmod (startTime + height) 0x10000000000000000) 0).getD .epoch

/-- The block at a height. -/
def blockAt (c : LocalChain) (height : Nat) : Block where
  hash := "HASH" ++ height.repr
  height := height
  time := time height
  chainId := chainId
  txCount := (c.counts.lookup height).getD (c.found height).length

/-- The answer about a block; height 0 asks for the latest one. -/
def block (c : LocalChain) (height : Nat) : Except Error Block :=
  if height ∈ c.unavailable then .error (.refused 500 ("height " ++ height.repr ++ " unavailable"))
  else .ok (c.blockAt (if height = 0 then c.latest else height))

/-- The transactions of a block. -/
def search (c : LocalChain) (b : Block) : Except Error (List (Envelope × Receipt)) :=
  (c.found b.height).mapM fun (bytes, receipt) =>
    ((Envelope.read bytes).map fun e => (e, receipt)).mapError .wire

/-- The rewards of every account. -/
def rewards (q : AccountQuery) : Except Error Rewards := do
  let amount ← (Amount.ofDecimal "1500000000000000000" "uatom").mapError .ofAmount
  return ⟨q.height, .single "cosmosvaloper1" [amount]⟩

/-- The balances of every account. -/
def balances (q : AccountQuery) : Except Error Balances := do
  let amount ← (Amount.ofCoin "42" "uatom").mapError .ofAmount
  return ⟨q.height, [amount]⟩

/-- The answers of a chain in memory. -/
def chain (c : LocalChain) : Chain where
  block := c.block
  delay height := (c.delays.lookup height).getD 0
  transactions := c.search
  rewards := rewards
  balances := balances
  delegations q := .ok ⟨q.height, [], []⟩

end LocalChain

end ChainIndexer
