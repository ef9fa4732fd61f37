import ChainIndexer.Message.Body
import ChainIndexer.Settlement
import ChainIndexer.Error

/-
  From messages to events.

  `Body.event` puts each field of a message in its place in the event; it needs nothing but the
  message. `attach` then adds the amounts that the chain moved, under the category of the kind. So
  the logs decide about settled transfers and about nothing else.
-/

namespace ChainIndexer.Message

open Text Wire

/-! ## Faults -/

/-- Why a message has no event. -/
inductive Fault where
  | notExpected (name : String) (cause : Wire.Fault)
  | amount (cause : Amount.Fault)
  deriving DecidableEq

/-- The error of a fault. -/
def Fault.toError : Fault → Error
  | notExpected name cause => .notExpected (name ++ ": " ++ cause.message)
  | amount cause => .ofAmount cause

/-- Reads a payload of a message type. -/
def readPayload (type : MessageType) (name : String) (payload : Bytes) : Except Fault Record :=
  (decode type payload).mapError (.notExpected name)

/-- Reads an amount. -/
def ofAmount (r : Except Amount.Fault α) : Except Fault α :=
  r.mapError .amount

/-! ## Amounts -/

/-- The amount of a coin. -/
def Coin.read (c : Coin) : Except Fault Amount :=
  ofAmount (Amount.ofCoin c.amount c.denom)

/-- The amounts of coins, in order. -/
def readCoins (coins : List Coin) : Except Fault (List Amount) :=
  coins.mapM Coin.read

/-- The label of the amount in a place: the first has the bare name. -/
def indexedLabel (name : String) (index : Nat) : String :=
  if index = 0 then name else name ++ "_" ++ index.repr

/-- Declares amounts under numbered labels, from `index` on. -/
def withIndexedAmounts (name : String) : Nat → List Amount → Event → Event
  | _, [], e => e
  | index, a :: rest, e =>
    withIndexedAmounts name (index + 1) rest (e.withAmount (indexedLabel name index) a)

/-- Declares the amount of a coin, if there is one. -/
def withCoin (e : Event) (label : String) : Option Coin → Except Fault Event
  | none => .ok e
  | some c => c.read.map (e.withAmount label)

/-- The transfers of holdings, in order. -/
def readHoldings (holdings : List Holding) : Except Fault (List Transfer) :=
  holdings.mapM fun h => (readCoins h.coins).map (Transfer.plain h.address)

/-! ## Evidence, votes and proposals -/

/-- The type URL of evidence that a validator signed two blocks. -/
def equivocationUrl : String := "/cosmos.evidence.v1beta1.Equivocation"

/-- Evidence of two signatures, if that is what was handed in. -/
def readEvidence : Option Packed → Except Fault (Option Equivocation)
  | some p =>
    if p.typeUrl = equivocationUrl then
      (readPayload .equivocation "evidence.Equivocation" p.value).map
        fun r => some (Equivocation.ofRecord r)
    else .ok none
  | none => .ok none

/-- The details of evidence. It carries no total power. -/
def withEvidence (e : Event) : Option Equivocation → Event
  | some q =>
    (((e.withDetail "evidence_height" (integerText q.height)).withDetail
      "evidence_consensus" q.consensusAddress).withDetail
      "evidence_total_power" "0").withDetail "evidence_validator_power" (integerText q.power)
  | none => e.withDetail "evidence_height" "0"

/-- The name of a vote, or its number. -/
def voteName (option : Int) : String :=
  if option = 0 then "VOTE_OPTION_UNSPECIFIED"
  else if option = 1 then "VOTE_OPTION_YES"
  else if option = 2 then "VOTE_OPTION_ABSTAIN"
  else if option = 3 then "VOTE_OPTION_NO"
  else if option = 4 then "VOTE_OPTION_NO_WITH_VETO"
  else integerText option

/-- The ending of the names of proposals. -/
def proposalSuffix : List Char := "Proposal".toList

/-- The name without an ending that it has. -/
def dropSuffix (suffix name : List Char) : List Char :=
  if suffix.isSuffixOf name then name.take (name.length - suffix.length) else name

/-- The route and the type of a proposal, from the type URL of its content. -/
def proposalRoute (typeUrl : String) : String × String :=
  let segments := (typeUrl.toList.dropWhile (· == '/')).splitOn '.'
  let route := match segments with
    | [_, moduleName, _, _] => String.ofList moduleName
    | _ => "gov"
  (route, String.ofList (dropSuffix proposalSuffix (segments.getLastD [])))

/-- Adds a detail unless it is empty. -/
def withFilled (e : Event) (key value : String) : Event :=
  if value = "" then e else e.withDetail key value

/-- The details of the content of a proposal. Its header is left out if it cannot be read. -/
def withProposal (e : Event) : Option Packed → Event
  | none => e
  | some p =>
    let (route, type) := proposalRoute p.typeUrl
    let e := ((e.withDetail "proposal_route" route).withDetail "proposal_type" type).withDetail
      "content" p.typeUrl
    match decode .textProposal p.value with
    | .ok r =>
      let header := ProposalHeader.ofRecord r
      withFilled (withFilled e "title" header.title) "description" header.description
    | .error _ => e

/-! ## Validators -/

/-- What an edit says of a field that it leaves as it is. -/
def unchanged : String := "[do-not-modify]"

/-- A field of a description; nothing stands for one that is left as it is. -/
def described (value : String) : String :=
  if value = unchanged then "" else value

/-- The account of a validator with what it says about itself. -/
def validatorAccount (address : String) (d : Option Description) : Account :=
  ⟨address, d.map fun d =>
    ⟨described d.moniker, described d.details, described d.securityContact, described d.website⟩⟩

/-- Declares a rate or a limit that is given as a decimal. -/
def withDecimal (e : Event) (label value : String) : Except Fault Event :=
  (ofAmount (Amount.ofDecimal value "")).map (e.withAmount label)

/-- Declares a number that is given as a coin without denomination. -/
def withBareCoin (e : Event) (label value : String) : Except Fault Event :=
  (ofAmount (Amount.ofCoin value "")).map (e.withAmount label)

/-- Declares the rates of a validator, if they are given. -/
def withCommission (e : Event) : Option CommissionRates → Except Fault Event
  | none => .ok e
  | some c => do
    let e ← withDecimal e "commission_rate" c.rate
    let e ← withDecimal e "commission_max_rate" c.maxRate
    withDecimal e "commission_max_change_rate" c.maxChangeRate

/-- Adds the delegator of a new validator, if it is named. -/
def withDelegator (e : Event) (address : String) : Event :=
  if address = "" then e else e.withNode "delegator" address

/-! ## Events -/

/-- The module in the events of coins that are sent. -/
def bankModule : String := "bank"

/-- The module in the events of rewards and of the community pool. -/
def distributionModule : String := "distribution"

/-- The module in the events of proposals. -/
def govModule : String := "gov"

/-- The module in the events of validators and their delegations. -/
def stakingModule : String := "staking"

/-- The module in the events of messages between chains. -/
def ibcModule : String := "ibc"

/-- The event of a message, without what the chain moved. Each message writes the kind and the
module of its event itself; a message between chains takes the tag that its kind has. -/
def Body.event : Body → Except Fault Event
  | .send m => do
    let amounts ← readCoins m.amount
    return ((Event.plain "send" bankModule).withSender m.fromAddress amounts).withRecipient
      m.toAddress amounts
  | .multiSend m => do
    let senders ← readHoldings m.inputs
    let recipients ← readHoldings m.outputs
    return { Event.plain "multisend" bankModule with senders := senders, recipients := recipients }
  | .verifyInvariant m =>
    .ok ((((Event.plain "verify_invariant" "crisis").withSender m.sender []).withDetail
      "invariant_route" m.invariantRoute).withDetail "invariant_module_name" m.invariantModule)
  | .withdrawCommission m =>
    .ok (((Event.plain "withdraw_validator_commission" distributionModule).withNode
      "validator" m.validatorAddress).withRecipient m.validatorAddress [])
  | .setWithdrawAddress m =>
    .ok (((Event.plain "set_withdraw_address" distributionModule).withNode
      "delegator" m.delegatorAddress).withNode "withdraw" m.withdrawAddress)
  | .withdrawReward m =>
    .ok ((((Event.plain "withdraw_delegator_reward" distributionModule).withNode
      "delegator" m.delegatorAddress).withNode
      "validator" m.validatorAddress).withRecipient m.delegatorAddress [])
  | .fundCommunityPool m => do
    let amounts ← readCoins m.amount
    return ((Event.plain "fund_community_pool" distributionModule).withNode
      "depositor" m.depositor).withSender m.depositor amounts
  | .submitEvidence m => do
    let evidence ← readEvidence m.evidence
    return withEvidence
      ((Event.plain "submit_evidence" "evidence").withNode "submitter" m.submitter) evidence
  | .deposit m => do
    let amounts ← readCoins m.amount
    return ((withIndexedAmounts "deposit" 0 amounts
      ((Event.plain "deposit" govModule).withNode "depositor" m.depositor)).withSender
      m.depositor amounts).withDetail "proposalID" m.proposalId.repr
  | .vote m =>
    .ok ((((Event.plain "vote" govModule).withNode "voter" m.voter).withDetail
      "proposalID" m.proposalId.repr).withDetail "option" (voteName m.option))
  | .submitProposal m => do
    let amounts ← readCoins m.initialDeposit
    return withProposal ((withIndexedAmounts "initial_deposit" 0 amounts
      ((Event.plain "submit_proposal" govModule).withNode "proposer" m.proposer)).withSender
      m.proposer amounts) m.content
  | .unjail m => .ok ((Event.plain "unjail" "slashing").withNode "validator" m.validatorAddress)
  | .undelegate m =>
    withCoin (((Event.plain "begin_unbonding" stakingModule).withNode
      "delegator" m.delegatorAddress).withNode
      "validator" m.validatorAddress) "undelegate" m.amount
  | .delegate m =>
    withCoin (((Event.plain "delegate" stakingModule).withNode
      "delegator" m.delegatorAddress).withNode
      "validator" m.validatorAddress) "delegate" m.amount
  | .redelegate m =>
    withCoin ((((Event.plain "begin_redelegate" stakingModule).withNode
      "delegator" m.delegatorAddress).withNode
      "validator_source" m.sourceAddress).withNode
      "validator_destination" m.destinationAddress) "delegate" m.amount
  | .createValidator m => do
    let e := withDelegator (Event.plain "create_validator" stakingModule) m.delegatorAddress
    let e := e.withAccount "validator" (validatorAccount m.validatorAddress m.description)
    let e ← withCoin e "self_delegation" m.value
    let e ← withBareCoin e "self_delegation_min" m.minSelfDelegation
    withCommission e m.commission
  | .editValidator m => do
    let e := (Event.plain "edit_validator" stakingModule).withAccount
      "validator" (validatorAccount m.validatorAddress m.description)
    let e ← if m.minSelfDelegation = "" then .ok e
      else withBareCoin e "self_delegation_min" m.minSelfDelegation
    if m.commissionRate = "" then .ok e
    else withDecimal e "commission_rate" m.commissionRate
  | .createVestingAccount m => do
    let amounts ← readCoins m.amount
    return ((((Event.plain "msg_create_vesting_account" "vesting").withSender
      m.fromAddress amounts).withRecipient m.toAddress amounts).withDetail
      "end_time" (integerText m.endTime)).withDetail
      "delayed" (if m.delayed then "true" else "false")
  | .relay kind _ => .ok (Event.plain kind.tag ibcModule)

/-! ## Settled transfers -/

/-- What a mapping needs besides the message. -/
structure Context where
  log : MessageLog
  unbondedPool : String

/-- The category of the amounts that a kind moves, and the recipients that do not count. Other
kinds move nothing. -/
def settlement? (pool : String) : MessageKind → Option (String × List String)
  | .bankSend => some ("send", [])
  | .bankMultiSend => some ("send", [])
  | .distributionWithdrawValidatorCommission => some ("send", [])
  | .distributionWithdrawDelegatorReward => some ("reward", [])
  | .distributionFundCommunityPool => some ("reward", [])
  | .govDeposit => some ("send", [])
  | .govSubmitProposal => some ("send", [])
  | .stakingUndelegate => some ("reward", [pool])
  | .stakingDelegate => some ("reward", [])
  | .stakingBeginRedelegate => some ("reward", [])
  | _ => none

/-- Adds the amounts that the chain moved. -/
def attach (kind : MessageKind) (ctx : Context) (e : Event) : Except Fault Event :=
  match settlement? ctx.unbondedPool kind with
  | none => .ok e
  | some (category, excluded) =>
    (ofAmount (Settlement.reconcile ctx.log excluded)).map (e.withTransfers category)

/-- The content of a payload of the given kind. -/
def read (kind : MessageKind) (payload : Bytes) : Except Fault Body :=
  (readPayload kind.messageType kind.payloadName payload).map fun r => Body.ofRecord r kind

/-- The event of a payload of the given kind. -/
def map (kind : MessageKind) (payload : Bytes) (ctx : Context) : Except Fault Event := do
  let body ← read kind payload
  let e ← body.event
  attach kind ctx e

end ChainIndexer.Message
