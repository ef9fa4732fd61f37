import ChainIndexer.Transaction
import ChainIndexer.Holdings
import ChainIndexer.Message.Body

/-
  What a node answers, and what it means.

  A node tells its answers in its own terms; here they become blocks, pairs of an envelope and its
  receipt, and holdings, or the error that says what is missing.
-/

namespace ChainIndexer.Node

open Text Message

/-! ## Blocks -/

/-- The head of a block. The time is given in seconds and nanoseconds. -/
structure BlockHeader where
  chainId : String
  height : Int
  time : Option (Int × Int)

/-- A block. -/
structure BlockBody where
  header : Option BlockHeader
  txCount : Option Nat

/-- The answer about a block, which newer nodes give in another form than older ones. -/
structure BlockReply where
  id : Option Bytes
  newer : Option BlockBody
  older : Option BlockBody

/-- The time of a block. -/
def blockTime (seconds nanos : Int) : Except Error Instant :=
  if nanos < 0 then .error (.narrowing .tooSmall)
  else match Instant.ofParts? seconds nanos.toNat with
    | some t => .ok t
    | none => .error (.missingField ("invalid block time " ++ integerText seconds))

/-- What has to be there, or an error that says so. -/
def needed (text : String) : Option α → Except Error α
  | some a => .ok a
  | none => .error (.note text)

/-- The block that an answer is about. The newer form counts if both are there. -/
def BlockReply.block (r : BlockReply) : Except Error Block := do
  let body ← needed "Query response doesn't contain block information!" (r.newer <|> r.older)
  let header ← needed "Query response doesn't contain block's header information!" body.header
  let (seconds, nanos) ← needed "Query response doesn't contain block's time!" header.time
  let height ← (toUnsigned header.height).mapError .narrowing
  let time ← blockTime seconds nanos
  return {
    hash := hexUpper (r.id.getD [])
    height := height
    time := time
    chainId := header.chainId
    txCount := body.txCount.getD 0 }

/-! ## Pages -/

/-- Where a page ends. -/
structure PageMark where
  nextKey : Bytes
  total : Nat

/-- The key of the next page, if there is one. -/
def nextPage? : Option PageMark → Option Bytes
  | some mark => if mark.nextKey = [] then none else some mark.nextKey
  | none => none

/-! ## Transactions -/

/-- A page of transactions. -/
structure TxPage where
  envelopes : List Envelope
  receipts : List Receipt
  total : Nat
  mark : Option PageMark

namespace TxPage

/-- The number of transactions on all pages. -/
def count (p : TxPage) : Nat :=
  max p.total (p.mark.map PageMark.total |>.getD 0)

/-- The envelope that a receipt holds. -/
def embedded (r : Receipt) : Except Error Envelope :=
  match r.tx with
  | some packed => (Envelope.read packed.value).mapError .wire
  | none => .error (.missingField ("Transaction response carries no envelope: " ++ r.txHash))

/-- Each receipt with its envelope: the one at its place, else the one that it holds. -/
def pair : List Envelope → List Receipt → Except Error (List (Envelope × Receipt))
  | _, [] => .ok []
  | e :: es, r :: rs => (pair es rs).map ((e, r) :: ·)
  | [], r :: rs => do
    let e ← embedded r
    let rest ← pair [] rs
    return (e, r) :: rest

/-- The transactions of a page. -/
def transactions (p : TxPage) : Except Error (List (Envelope × Receipt)) :=
  pair p.envelopes p.receipts

end TxPage

/-! ## Holdings -/

/-- The rewards from one validator. -/
structure ValidatorReward where
  validator : String
  coins : List Coin

/-- The rewards that an answer is about. -/
def rewardsOf (height : Nat) (rewards : List ValidatorReward) : Except Error Rewards := do
  let entries ← rewards.mapM fun r => do
    let amounts ← r.coins.mapM fun c => (Amount.ofDecimal c.amount c.denom).mapError .ofAmount
    return (r.validator, amounts)
  return ⟨height, Keyed.ofEntries entries⟩

/-- A share in a validator. -/
structure DelegationItem where
  delegator : String
  validator : String
  shares : String

/-- A page of delegations, each with what it is worth. -/
structure DelegationPage where
  items : List (Option DelegationItem × Option Coin)
  mark : Option PageMark

/-- A coin as an amount. -/
def coinAmount (value denom : String) : Except Error Amount :=
  (Amount.ofCoin value denom).mapError .ofAmount

/-- A delegation. What it is worth may be missing, and then is nothing. -/
def delegationOf (item : DelegationItem) (balance : Option Coin) : Except Error Delegation := do
  let balance ← match balance with
    | some c => coinAmount c.amount c.denom
    | none => coinAmount "0" ""
  let shares ← (Amount.ofDecimal item.shares "").mapError .ofAmount
  return ⟨item.delegator, item.validator, shares, balance⟩

/-- The delegations of a page. Items without a delegation are left out. -/
def DelegationPage.delegations (p : DelegationPage) : Except Error (List Delegation) :=
  (p.items.filterMap fun (item, balance) => item.map fun item => (item, balance)).mapM
    fun (item, balance) => delegationOf item balance

/-- An amount on its way back. -/
structure UnbondingItemEntry where
  creationHeight : Int
  completion : Option (Int × Int)
  initialBalance : String
  balance : String

/-- What is on its way back from a validator. -/
structure UnbondingItem where
  delegator : String
  validator : String
  entries : List UnbondingItemEntry

/-- A page of what is on its way back. -/
structure UnbondingPage where
  items : List UnbondingItem
  mark : Option PageMark

/-- An unbonding entry. A time that is none is left out. -/
def entryOf (e : UnbondingItemEntry) : Except Error UnbondingEntry := do
  let initialBalance ← coinAmount e.initialBalance ""
  let balance ← coinAmount e.balance ""
  return ⟨e.creationHeight, e.completion.bind fun (s, n) => Instant.ofSigned? s n, initialBalance,
    balance⟩

/-- What is on its way back. -/
def unbondingOf (item : UnbondingItem) : Except Error Unbonding := do
  let entries ← item.entries.mapM entryOf
  return ⟨item.delegator, item.validator, entries⟩

/-- All that a page holds. -/
def UnbondingPage.unbonding (p : UnbondingPage) : Except Error (List Unbonding) :=
  p.items.mapM unbondingOf

end ChainIndexer.Node
