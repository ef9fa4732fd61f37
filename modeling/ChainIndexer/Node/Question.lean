import ChainIndexer.Json.Value
import ChainIndexer.Text.Hex

/-
  What is asked of a node.

  A node is asked for the latest block, for the block at a height, for the transactions of a height
  page by page, and for what an account holds, as of a height if one is given.
-/

namespace ChainIndexer.Node

open Text

/-- The size of a page. -/
def pageSize : Nat := 100

/-- A question to a node. -/
inductive Question where
  | latestBlock
  | blockAt (height : Nat)
  | transactions (height page : Nat)
  | rewards (delegator : String)
  | delegations (delegator : String) (key : Bytes)
  | unbonding (delegator : String) (key : Bytes)
  deriving DecidableEq

/-- A question as it was put, with the height for which it was put. -/
structure Asked where
  question : Question
  atHeight : Option Nat
  deriving DecidableEq

/-- A question about the chain itself. -/
def Asked.plain (q : Question) : Asked :=
  ⟨q, none⟩

/-- A question about the state at a height, or about the latest state for height 0. -/
def Asked.at (q : Question) (height : Nat) : Asked :=
  ⟨q, if 0 < height then some height else none⟩

namespace Question

/-- The name of the method that answers a question. -/
def method : Question → String
  | latestBlock => "GetLatestBlock"
  | blockAt _ => "GetBlockByHeight"
  | transactions _ _ => "GetTxsEvent"
  | rewards _ => "DelegationTotalRewards"
  | delegations _ _ => "DelegatorDelegations"
  | unbonding _ _ => "DelegatorUnbondingDelegations"

/-- The condition on the transactions of a height. -/
def heightQuery (height : Nat) : String :=
  "tx.height=" ++ height.repr

/-- The number of transactions before a page; pages count from 1. -/
def offset (page : Nat) : Nat :=
  (page - 1) * pageSize

/-- The number that asks for ascending order. -/
def ascendingOrder : Nat := 1

/-- The content of a question for a page of an account. -/
def accountPage (delegator : String) (key : Bytes) : Json :=
  .object [("delegator", .text delegator), ("key", .text (hexLower key)),
    ("limit", .nat pageSize), ("offset", .nat 0)]

/-- The content of a question. -/
def content : Question → Json
  | latestBlock => .object []
  | blockAt height => .object [("height", .nat height)]
  | transactions height page => .object [
      ("events", Json.texts [heightQuery height]), ("query", .text (heightQuery height)),
      ("page", .nat page), ("limit", .nat pageSize), ("order_by", .nat ascendingOrder),
      ("pagination", .object [("key", .text ""), ("offset", .nat (offset page)),
        ("limit", .nat pageSize), ("count_total", .bool true), ("reverse", .bool false)])]
  | rewards delegator => .object [("delegator", .text delegator)]
  | delegations delegator key => accountPage delegator key
  | unbonding delegator key => accountPage delegator key

end Question

/-- A question as it was put, in writing. -/
def Asked.toJson (a : Asked) : Json :=
  .object [("method", .text a.question.method), ("request", a.question.content),
    ("height_header", Json.orNull (a.atHeight.map fun h => .text h.repr))]

end ChainIndexer.Node
