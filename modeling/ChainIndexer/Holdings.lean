import ChainIndexer.Amount.Basic
import ChainIndexer.Keyed
import ChainIndexer.Time.Instant

/-
  What an account holds: rewards, balances, and what it has delegated.

  Each answer carries the height at which it was asked, with 0 for the latest state.
-/

namespace ChainIndexer

/-- An account at a height, or 0 for the latest state. -/
structure AccountQuery where
  height : Nat
  account : String
  deriving DecidableEq

/-- The rewards of an account by validator. -/
structure Rewards where
  height : Nat
  byValidator : Keyed (List Amount)
  deriving DecidableEq

/-- The balances of an account. -/
structure Balances where
  height : Nat
  amounts : List Amount
  deriving DecidableEq

/-- A share in a validator, and what it is worth. -/
structure Delegation where
  delegator : String
  validator : String
  shares : Amount
  balance : Amount
  deriving DecidableEq

/-- An amount on its way back from a validator. -/
structure UnbondingEntry where
  creationHeight : Int
  completion : Option Instant
  initialBalance : Amount
  balance : Amount
  deriving DecidableEq

/-- What is on its way back from one validator. -/
structure Unbonding where
  delegator : String
  validator : String
  entries : List UnbondingEntry
  deriving DecidableEq

/-- What an account has delegated. -/
structure Delegations where
  height : Nat
  delegated : List Delegation
  unbonding : List Unbonding
  deriving DecidableEq

end ChainIndexer
