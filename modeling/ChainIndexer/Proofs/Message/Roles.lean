import ChainIndexer.Message.Mapping

/-
  The roles that the fields of a message play.

  The table `roles` has a row for each kind: which accounts send and receive which coins, which
  accounts take part under which name, which amounts are declared under which label, which details
  are told, and under which category the amounts stand that the chain moved. It says nothing about
  how an event is put together.
-/

namespace ChainIndexer.Message

open Text Wire

/-- An amount as a message names it: a coin, or a decimal of the chain. -/
inductive Quantity where
  | coin (amount denom : String)
  | decimal (value : String)
  deriving DecidableEq

/-- The amount that is meant. -/
def Quantity.read : Quantity → Except Amount.Fault Amount
  | .coin amount denom => Amount.ofCoin amount denom
  | .decimal value => Amount.ofDecimal value ""

/-- The amount that a coin names. -/
def Coin.quantity (c : Coin) : Quantity :=
  .coin c.amount c.denom

/-- A row of the table. `settled` is the category of what the chain moved, with the recipients that
do not count. -/
structure Roles where
  senders : List (String × List Coin) := []
  recipients : List (String × List Coin) := []
  nodes : List (String × Account) := []
  amounts : List (String × Quantity) := []
  additional : List (String × String) := []
  settled : Option (String × List String) := none
  deriving DecidableEq

/-- All amounts of a row, in the order in which they are read. -/
def Roles.quantities (r : Roles) : List Quantity :=
  (r.senders ++ r.recipients).flatMap (fun p => p.2.map Coin.quantity) ++ r.amounts.map Prod.snd

/-! ## Parts of rows -/

/-- Coins under numbered labels, from a number on. -/
def numbered (name : String) (coins : List Coin) (index : Nat) : List (String × Quantity) :=
  (coins.zipIdx index).map fun p => (indexedLabel name p.2, p.1.quantity)

/-- The amount of a coin, if there is one. -/
def declared (label : String) (coin : Option Coin) : List (String × Quantity) :=
  coin.toList.map fun c => (label, c.quantity)

/-- The rates of a validator, if they are given. -/
def declaredRates (rates : Option CommissionRates) : List (String × Quantity) :=
  rates.toList.flatMap fun c =>
    [("commission_rate", .decimal c.rate), ("commission_max_rate", .decimal c.maxRate),
      ("commission_max_change_rate", .decimal c.maxChangeRate)]

/-- An item unless its text is empty. -/
def filled {α : Type} (key text : String) (item : α) : List (String × α) :=
  if text = "" then [] else [(key, item)]

/-- The account of a validator; a field that an edit leaves as it is says nothing. -/
def describedAccount (address : String) (description : Option Description) : Account where
  id := address
  details := description.map fun d =>
    { name := described d.moniker
      description := described d.details
      contact := described d.securityContact
      website := described d.website }

/-- The evidence that a packed message holds, if it is evidence of two signatures. -/
def evidenceOf? (packed : Option Packed) : Option Equivocation :=
  packed.bind fun p =>
    if p.typeUrl = equivocationUrl then
      (decode .equivocation p.value).toOption.map Equivocation.ofRecord
    else none

/-- What is told of evidence. -/
def evidenceDetails : Option Equivocation → List (String × String)
  | some q =>
    [("evidence_height", integerText q.height), ("evidence_consensus", q.consensusAddress),
      ("evidence_total_power", "0"), ("evidence_validator_power", integerText q.power)]
  | none => [("evidence_height", "0")]

/-- The header of the content of a proposal, if it can be read. -/
def headerOf? (content : Packed) : Option ProposalHeader :=
  (decode .textProposal content.value).toOption.map ProposalHeader.ofRecord

/-- What is told of the content of a proposal. -/
def proposalDetails (content : Packed) : List (String × String) :=
  [("proposal_route", (proposalRoute content.typeUrl).1),
    ("proposal_type", (proposalRoute content.typeUrl).2), ("content", content.typeUrl)] ++
  (headerOf? content).toList.flatMap fun h =>
    filled "title" h.title h.title ++ filled "description" h.description h.description

/-! ## The table -/

/-- The row of a message. -/
def Body.roles (pool : String) : Body → Roles
  | .send m =>
    { senders := [(m.fromAddress, m.amount)]
      recipients := [(m.toAddress, m.amount)]
      settled := some ("send", []) }
  | .multiSend m =>
    { senders := m.inputs.map fun h => (h.address, h.coins)
      recipients := m.outputs.map fun h => (h.address, h.coins)
      settled := some ("send", []) }
  | .verifyInvariant m =>
    { senders := [(m.sender, [])]
      additional := [("invariant_route", m.invariantRoute),
        ("invariant_module_name", m.invariantModule)] }
  | .withdrawCommission m =>
    { recipients := [(m.validatorAddress, [])]
      nodes := [("validator", .plain m.validatorAddress)]
      settled := some ("send", []) }
  | .setWithdrawAddress m =>
    { nodes := [("delegator", .plain m.delegatorAddress), ("withdraw", .plain m.withdrawAddress)] }
  | .withdrawReward m =>
    { recipients := [(m.delegatorAddress, [])]
      nodes := [("delegator", .plain m.delegatorAddress), ("validator", .plain m.validatorAddress)]
      settled := some ("reward", []) }
  | .fundCommunityPool m =>
    { senders := [(m.depositor, m.amount)]
      nodes := [("depositor", .plain m.depositor)]
      settled := some ("reward", []) }
  | .submitEvidence m =>
    { nodes := [("submitter", .plain m.submitter)]
      additional := evidenceDetails (evidenceOf? m.evidence) }
  | .deposit m =>
    { senders := [(m.depositor, m.amount)]
      nodes := [("depositor", .plain m.depositor)]
      amounts := numbered "deposit" m.amount 0
      additional := [("proposalID", m.proposalId.repr)]
      settled := some ("send", []) }
  | .vote m =>
    { nodes := [("voter", .plain m.voter)]
      additional := [("proposalID", m.proposalId.repr), ("option", voteName m.option)] }
  | .submitProposal m =>
    { senders := [(m.proposer, m.initialDeposit)]
      nodes := [("proposer", .plain m.proposer)]
      amounts := numbered "initial_deposit" m.initialDeposit 0
      additional := m.content.toList.flatMap proposalDetails
      settled := some ("send", []) }
  | .unjail m => { nodes := [("validator", .plain m.validatorAddress)] }
  | .undelegate m =>
    { nodes := [("delegator", .plain m.delegatorAddress), ("validator", .plain m.validatorAddress)]
      amounts := declared "undelegate" m.amount
      settled := some ("reward", [pool]) }
  | .delegate m =>
    { nodes := [("delegator", .plain m.delegatorAddress), ("validator", .plain m.validatorAddress)]
      amounts := declared "delegate" m.amount
      settled := some ("reward", []) }
  | .redelegate m =>
    { nodes := [("delegator", .plain m.delegatorAddress),
        ("validator_source", .plain m.sourceAddress),
        ("validator_destination", .plain m.destinationAddress)]
      amounts := declared "delegate" m.amount
      settled := some ("reward", []) }
  | .createValidator m =>
    { nodes := filled "delegator" m.delegatorAddress (.plain m.delegatorAddress) ++
        [("validator", describedAccount m.validatorAddress m.description)]
      amounts := declared "self_delegation" m.value ++
        [("self_delegation_min", .coin m.minSelfDelegation "")] ++ declaredRates m.commission }
  | .editValidator m =>
    { nodes := [("validator", describedAccount m.validatorAddress m.description)]
      amounts := filled "self_delegation_min" m.minSelfDelegation (.coin m.minSelfDelegation "") ++
        filled "commission_rate" m.commissionRate (.decimal m.commissionRate) }
  | .createVestingAccount m =>
    { senders := [(m.fromAddress, m.amount)]
      recipients := [(m.toAddress, m.amount)]
      additional := [("end_time", integerText m.endTime),
        ("delayed", if m.delayed then "true" else "false")] }
  | .relay _ _ => {}

end ChainIndexer.Message
