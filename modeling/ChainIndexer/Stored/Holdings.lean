import ChainIndexer.Holdings
import ChainIndexer.Stored.Event
import ChainIndexer.Stored.Block

/-
  The stored form of what an account holds.
-/

namespace ChainIndexer

/-- The stored form of a query for an account. -/
def AccountQuery.toJson (q : AccountQuery) : Json :=
  .object (Json.field "height" (.nat q.height) ++ Json.field "account" (.text q.account))

/-- The query for an account of a stored form. -/
def AccountQuery.ofJson : Json → Except Json.Fault AccountQuery :=
  Json.readRecord "HeightAccount" 2 fun r => AccountQuery.mk
    <$> r.defaulted 0 "height" 0 Json.readNat64
    <*> r.required (Json.recordOf "HeightAccount" 2) 1 "account" Json.readText

/-- The stored form of rewards. -/
def Rewards.toJson (r : Rewards) : Json :=
  .object (Json.field "height" (.nat r.height)
    ++ Json.field "rewards" (.object (keyedFields (listJson Amount.toJson) r.byValidator)))

/-- The rewards of a stored form. -/
def Rewards.ofJson : Json → Except Json.Fault Rewards :=
  let record := Json.recordOf "GetRewardResponse" 2
  Json.readRecord "GetRewardResponse" 2 fun r => Rewards.mk
    <$> r.required record 0 "height" Json.readNat64
    <*> r.required record 1 "rewards" (Json.readKeyed (Json.readList Amount.ofJson))

/-- The stored form of balances. -/
def Balances.toJson (b : Balances) : Json :=
  .object (Json.field "height" (.nat b.height)
    ++ Json.field "balances" (listJson Amount.toJson b.amounts))

/-- The balances of a stored form. -/
def Balances.ofJson : Json → Except Json.Fault Balances :=
  let record := Json.recordOf "GetAccountBalanceResponse" 2
  Json.readRecord "GetAccountBalanceResponse" 2 fun r => Balances.mk
    <$> r.required record 0 "height" Json.readNat64
    <*> r.required record 1 "balances" (Json.readList Amount.ofJson)

/-- The stored form of a delegation. -/
def Delegation.toJson (d : Delegation) : Json :=
  .object (Json.field "delegator" (.text d.delegator)
    ++ Json.field "validator" (.text d.validator)
    ++ Json.field "shares" d.shares.toJson
    ++ Json.field "balance" d.balance.toJson)

/-- The delegation of a stored form. -/
def Delegation.ofJson : Json → Except Json.Fault Delegation :=
  let record := Json.recordOf "Delegation" 4
  Json.readRecord "Delegation" 4 fun r => Delegation.mk
    <$> r.required record 0 "delegator" Json.readText
    <*> r.required record 1 "validator" Json.readText
    <*> r.required record 2 "shares" Amount.ofJson
    <*> r.required record 3 "balance" Amount.ofJson

/-- The stored form of an unbonding entry. -/
def UnbondingEntry.toJson (e : UnbondingEntry) : Json :=
  .object (Json.field "creation_height" (.int e.creationHeight)
    ++ Json.field "completion_time" (Json.orNull (e.completion.map Instant.toJson))
    ++ Json.field "initial_balance" e.initialBalance.toJson
    ++ Json.field "balance" e.balance.toJson)

/-- The unbonding entry of a stored form. -/
def UnbondingEntry.ofJson : Json → Except Json.Fault UnbondingEntry :=
  let record := Json.recordOf "UnbondingEntry" 4
  Json.readRecord "UnbondingEntry" 4 fun r => UnbondingEntry.mk
    <$> r.required record 0 "creation_height" Json.readInt64
    <*> r.optional record 1 "completion_time" Instant.ofJson
    <*> r.required record 2 "initial_balance" Amount.ofJson
    <*> r.required record 3 "balance" Amount.ofJson

/-- The stored form of what is on its way back. -/
def Unbonding.toJson (u : Unbonding) : Json :=
  .object (Json.field "delegator" (.text u.delegator)
    ++ Json.field "validator" (.text u.validator)
    ++ Json.field "entries" (listJson UnbondingEntry.toJson u.entries))

/-- What is on its way back, of a stored form. -/
def Unbonding.ofJson : Json → Except Json.Fault Unbonding :=
  let record := Json.recordOf "UnbondingDelegation" 3
  Json.readRecord "UnbondingDelegation" 3 fun r => Unbonding.mk
    <$> r.required record 0 "delegator" Json.readText
    <*> r.required record 1 "validator" Json.readText
    <*> r.required record 2 "entries" (Json.readList UnbondingEntry.ofJson)

/-- The stored form of delegations. -/
def Delegations.toJson (d : Delegations) : Json :=
  .object (Json.field "height" (.nat d.height)
    ++ Json.field "delegations" (listJson Delegation.toJson d.delegated)
    ++ Json.field "unbonding" (listJson Unbonding.toJson d.unbonding))

/-- The delegations of a stored form. -/
def Delegations.ofJson : Json → Except Json.Fault Delegations :=
  let record := Json.recordOf "GetAccountDelegationsResponse" 3
  Json.readRecord "GetAccountDelegationsResponse" 3 fun r => Delegations.mk
    <$> r.required record 0 "height" Json.readNat64
    <*> r.required record 1 "delegations" (Json.readList Delegation.ofJson)
    <*> r.required record 2 "unbonding" (Json.readList Unbonding.ofJson)

end ChainIndexer
