import ChainIndexer.Message.Kind
import ChainIndexer.Wire.Record

/-
  The contents of messages.

  Each message type whose fields matter has a structure. `ofRecord` takes it from the fields that
  stand in a message, and `toRecord` lists the fields that stand in it, so that writing a content
  and reading it again gives the same content.
-/

namespace ChainIndexer.Message

open Text Wire

/-! ## Parts -/

/-- A coin as it is written in a message. -/
structure Coin where
  denom : String
  amount : String
  deriving DecidableEq

/-- The coin of a record. -/
def Coin.ofRecord (r : Record) : Coin :=
  ⟨r.text 1, r.text 2⟩

/-- The fields of a coin. -/
def Coin.toRecord (c : Coin) : Record :=
  textField 1 c.denom ++ textField 2 c.amount

/-- A message of a type that its URL names. -/
structure Packed where
  typeUrl : String
  value : Bytes
  deriving DecidableEq

/-- The packed message of a record. -/
def Packed.ofRecord (r : Record) : Packed :=
  ⟨r.text 1, r.bytes 2⟩

/-- The fields of a packed message. -/
def Packed.toRecord (p : Packed) : Record :=
  textField 1 p.typeUrl ++ bytesField 2 p.value

/-- Coins of an account. -/
structure Holding where
  address : String
  coins : List Coin
  deriving DecidableEq

/-- The holding of a record. -/
def Holding.ofRecord (r : Record) : Holding :=
  ⟨r.text 1, (r.parts 2).map Coin.ofRecord⟩

/-- The fields of a holding. -/
def Holding.toRecord (h : Holding) : Record :=
  textField 1 h.address ++ partFields 2 (h.coins.map Coin.toRecord)

/-- What a validator says about itself. -/
structure Description where
  moniker : String
  identity : String
  website : String
  securityContact : String
  details : String
  deriving DecidableEq

/-- The description of a record. -/
def Description.ofRecord (r : Record) : Description :=
  ⟨r.text 1, r.text 2, r.text 3, r.text 4, r.text 5⟩

/-- The fields of a description. -/
def Description.toRecord (d : Description) : Record :=
  textField 1 d.moniker ++ textField 2 d.identity ++ textField 3 d.website
    ++ textField 4 d.securityContact ++ textField 5 d.details

/-- The share that a validator keeps. -/
structure CommissionRates where
  rate : String
  maxRate : String
  maxChangeRate : String
  deriving DecidableEq

/-- The rates of a record. -/
def CommissionRates.ofRecord (r : Record) : CommissionRates :=
  ⟨r.text 1, r.text 2, r.text 3⟩

/-- The fields of rates. -/
def CommissionRates.toRecord (c : CommissionRates) : Record :=
  textField 1 c.rate ++ textField 2 c.maxRate ++ textField 3 c.maxChangeRate

/-- A point in time as it is written in a message. -/
structure Timestamp where
  seconds : Int
  nanos : Int
  deriving DecidableEq

/-- The point in time of a record. -/
def Timestamp.ofRecord (r : Record) : Timestamp :=
  ⟨r.signed 1, r.signed 2⟩

/-- The fields of a point in time. -/
def Timestamp.toRecord (t : Timestamp) : Record :=
  signedField 1 t.seconds ++ signedField 2 t.nanos

/-- Evidence that a validator signed two blocks. -/
structure Equivocation where
  height : Int
  time : Option Timestamp
  power : Int
  consensusAddress : String
  deriving DecidableEq

/-- The evidence of a record. -/
def Equivocation.ofRecord (r : Record) : Equivocation :=
  ⟨r.signed 1, (r.part? 2).map Timestamp.ofRecord, r.signed 3, r.text 4⟩

/-- The fields of evidence. -/
def Equivocation.toRecord (e : Equivocation) : Record :=
  signedField 1 e.height ++ partField 2 (e.time.map Timestamp.toRecord) ++ signedField 3 e.power
    ++ textField 4 e.consensusAddress

/-- The fields with which the content of a proposal begins. -/
structure ProposalHeader where
  title : String
  description : String
  deriving DecidableEq

/-- The header of a record. -/
def ProposalHeader.ofRecord (r : Record) : ProposalHeader :=
  ⟨r.text 1, r.text 2⟩

/-- The fields of a header. -/
def ProposalHeader.toRecord (h : ProposalHeader) : Record :=
  textField 1 h.title ++ textField 2 h.description

/-! ## Messages -/

/-- Coins from one account to another. -/
structure Send where
  fromAddress : String
  toAddress : String
  amount : List Coin
  deriving DecidableEq

/-- Coins from several accounts to several others. -/
structure MultiSend where
  inputs : List Holding
  outputs : List Holding
  deriving DecidableEq

/-- A check of an invariant. -/
structure VerifyInvariant where
  sender : String
  invariantModule : String
  invariantRoute : String
  deriving DecidableEq

/-- A validator takes its commission. -/
structure WithdrawCommission where
  validatorAddress : String
  deriving DecidableEq

/-- A delegator names the account for its rewards. -/
structure SetWithdrawAddress where
  delegatorAddress : String
  withdrawAddress : String
  deriving DecidableEq

/-- A delegator takes the rewards of a validator. -/
structure WithdrawReward where
  delegatorAddress : String
  validatorAddress : String
  deriving DecidableEq

/-- A gift to the community pool. -/
structure FundCommunityPool where
  amount : List Coin
  depositor : String
  deriving DecidableEq

/-- Evidence of misbehaviour. -/
structure SubmitEvidence where
  submitter : String
  evidence : Option Packed
  deriving DecidableEq

/-- A deposit on a proposal. -/
structure Deposit where
  proposalId : Nat
  depositor : String
  amount : List Coin
  deriving DecidableEq

/-- A vote on a proposal. -/
structure Vote where
  proposalId : Nat
  voter : String
  option : Int
  deriving DecidableEq

/-- A new proposal. -/
structure SubmitProposal where
  content : Option Packed
  initialDeposit : List Coin
  proposer : String
  deriving DecidableEq

/-- A validator comes back. -/
structure Unjail where
  validatorAddress : String
  deriving DecidableEq

/-- Coins bound to a validator, or freed from it. -/
structure Delegate where
  delegatorAddress : String
  validatorAddress : String
  amount : Option Coin
  deriving DecidableEq

/-- Coins bound to another validator. -/
structure Redelegate where
  delegatorAddress : String
  sourceAddress : String
  destinationAddress : String
  amount : Option Coin
  deriving DecidableEq

/-- A new validator. -/
structure CreateValidator where
  description : Option Description
  commission : Option CommissionRates
  minSelfDelegation : String
  delegatorAddress : String
  validatorAddress : String
  pubkey : Option Packed
  value : Option Coin
  deriving DecidableEq

/-- A change of a validator. -/
structure EditValidator where
  description : Option Description
  validatorAddress : String
  commissionRate : String
  minSelfDelegation : String
  deriving DecidableEq

/-- A new account whose coins are freed over time. -/
structure CreateVestingAccount where
  fromAddress : String
  toAddress : String
  amount : List Coin
  endTime : Int
  delayed : Bool
  deriving DecidableEq

/-! ## Contents -/

/-- The content of a message. Of the messages between chains only the kind is kept. -/
inductive Body where
  | send (m : Send)
  | multiSend (m : MultiSend)
  | verifyInvariant (m : VerifyInvariant)
  | withdrawCommission (m : WithdrawCommission)
  | setWithdrawAddress (m : SetWithdrawAddress)
  | withdrawReward (m : WithdrawReward)
  | fundCommunityPool (m : FundCommunityPool)
  | submitEvidence (m : SubmitEvidence)
  | deposit (m : Deposit)
  | vote (m : Vote)
  | submitProposal (m : SubmitProposal)
  | unjail (m : Unjail)
  | undelegate (m : Delegate)
  | delegate (m : Delegate)
  | redelegate (m : Redelegate)
  | createValidator (m : CreateValidator)
  | editValidator (m : EditValidator)
  | createVestingAccount (m : CreateVestingAccount)
  | relay (kind : MessageKind) (relays : kind.isRelay = true)

/-- The coins under a tag. -/
def coinsOf (r : Record) (tag : Nat) : List Coin :=
  (r.parts tag).map Coin.ofRecord

/-- The fields of coins under a tag. -/
def coinFields (tag : Nat) (coins : List Coin) : Record :=
  partFields tag (coins.map Coin.toRecord)

/-- The coin under a tag. -/
def coinOf? (r : Record) (tag : Nat) : Option Coin :=
  (r.part? tag).map Coin.ofRecord

/-- The field of a coin under a tag. -/
def coinField (tag : Nat) (coin : Option Coin) : Record :=
  partField tag (coin.map Coin.toRecord)

/-- The content of a record of the given kind. -/
def Body.ofRecord (r : Record) : MessageKind → Body
  | .bankSend => .send ⟨r.text 1, r.text 2, coinsOf r 3⟩
  | .bankMultiSend =>
    .multiSend ⟨(r.parts 1).map Holding.ofRecord, (r.parts 2).map Holding.ofRecord⟩
  | .crisisVerifyInvariant => .verifyInvariant ⟨r.text 1, r.text 2, r.text 3⟩
  | .distributionWithdrawValidatorCommission => .withdrawCommission ⟨r.text 1⟩
  | .distributionSetWithdrawAddress => .setWithdrawAddress ⟨r.text 1, r.text 2⟩
  | .distributionWithdrawDelegatorReward => .withdrawReward ⟨r.text 1, r.text 2⟩
  | .distributionFundCommunityPool => .fundCommunityPool ⟨coinsOf r 1, r.text 2⟩
  | .evidenceSubmitEvidence => .submitEvidence ⟨r.text 1, (r.part? 2).map Packed.ofRecord⟩
  | .govDeposit => .deposit ⟨r.word 1, r.text 2, coinsOf r 3⟩
  | .govVote => .vote ⟨r.word 1, r.text 2, r.signed 3⟩
  | .govSubmitProposal =>
    .submitProposal ⟨(r.part? 1).map Packed.ofRecord, coinsOf r 2, r.text 3⟩
  | .slashingUnjail => .unjail ⟨r.text 1⟩
  | .stakingUndelegate => .undelegate ⟨r.text 1, r.text 2, coinOf? r 3⟩
  | .stakingDelegate => .delegate ⟨r.text 1, r.text 2, coinOf? r 3⟩
  | .stakingBeginRedelegate => .redelegate ⟨r.text 1, r.text 2, r.text 3, coinOf? r 4⟩
  | .stakingCreateValidator => .createValidator
    { description := (r.part? 1).map Description.ofRecord
      commission := (r.part? 2).map CommissionRates.ofRecord
      minSelfDelegation := r.text 3
      delegatorAddress := r.text 4
      validatorAddress := r.text 5
      pubkey := (r.part? 6).map Packed.ofRecord
      value := coinOf? r 7 }
  | .stakingEditValidator =>
    .editValidator ⟨(r.part? 1).map Description.ofRecord, r.text 2, r.text 3, r.text 4⟩
  | .vestingCreateVestingAccount =>
    .createVestingAccount ⟨r.text 1, r.text 2, coinsOf r 3, r.signed 4, r.word 5 != 0⟩
  | .ibcCreateClient => .relay .ibcCreateClient rfl
  | .ibcUpdateClient => .relay .ibcUpdateClient rfl
  | .ibcUpgradeClient => .relay .ibcUpgradeClient rfl
  | .ibcSubmitMisbehaviour => .relay .ibcSubmitMisbehaviour rfl
  | .ibcConnectionOpenInit => .relay .ibcConnectionOpenInit rfl
  | .ibcConnectionOpenTry => .relay .ibcConnectionOpenTry rfl
  | .ibcConnectionOpenAck => .relay .ibcConnectionOpenAck rfl
  | .ibcConnectionOpenConfirm => .relay .ibcConnectionOpenConfirm rfl
  | .ibcChannelOpenInit => .relay .ibcChannelOpenInit rfl
  | .ibcChannelOpenTry => .relay .ibcChannelOpenTry rfl
  | .ibcChannelOpenAck => .relay .ibcChannelOpenAck rfl
  | .ibcChannelOpenConfirm => .relay .ibcChannelOpenConfirm rfl
  | .ibcChannelCloseInit => .relay .ibcChannelCloseInit rfl
  | .ibcChannelCloseConfirm => .relay .ibcChannelCloseConfirm rfl
  | .ibcRecvPacket => .relay .ibcRecvPacket rfl
  | .ibcTimeout => .relay .ibcTimeout rfl
  | .ibcTimeoutOnClose => .relay .ibcTimeoutOnClose rfl
  | .ibcAcknowledgement => .relay .ibcAcknowledgement rfl
  | .ibcTransfer => .relay .ibcTransfer rfl

/-- The kind of a content. -/
def Body.kind : Body → MessageKind
  | send _ => .bankSend
  | multiSend _ => .bankMultiSend
  | verifyInvariant _ => .crisisVerifyInvariant
  | withdrawCommission _ => .distributionWithdrawValidatorCommission
  | setWithdrawAddress _ => .distributionSetWithdrawAddress
  | withdrawReward _ => .distributionWithdrawDelegatorReward
  | fundCommunityPool _ => .distributionFundCommunityPool
  | submitEvidence _ => .evidenceSubmitEvidence
  | deposit _ => .govDeposit
  | vote _ => .govVote
  | submitProposal _ => .govSubmitProposal
  | unjail _ => .slashingUnjail
  | undelegate _ => .stakingUndelegate
  | delegate _ => .stakingDelegate
  | redelegate _ => .stakingBeginRedelegate
  | createValidator _ => .stakingCreateValidator
  | editValidator _ => .stakingEditValidator
  | createVestingAccount _ => .vestingCreateVestingAccount
  | relay kind _ => kind

/-- The fields of a content. -/
def Body.toRecord : Body → Record
  | send m => textField 1 m.fromAddress ++ textField 2 m.toAddress ++ coinFields 3 m.amount
  | multiSend m =>
    partFields 1 (m.inputs.map Holding.toRecord) ++ partFields 2 (m.outputs.map Holding.toRecord)
  | verifyInvariant m =>
    textField 1 m.sender ++ textField 2 m.invariantModule ++ textField 3 m.invariantRoute
  | withdrawCommission m => textField 1 m.validatorAddress
  | setWithdrawAddress m => textField 1 m.delegatorAddress ++ textField 2 m.withdrawAddress
  | withdrawReward m => textField 1 m.delegatorAddress ++ textField 2 m.validatorAddress
  | fundCommunityPool m => coinFields 1 m.amount ++ textField 2 m.depositor
  | submitEvidence m => textField 1 m.submitter ++ partField 2 (m.evidence.map Packed.toRecord)
  | deposit m => wordField 1 m.proposalId ++ textField 2 m.depositor ++ coinFields 3 m.amount
  | vote m => wordField 1 m.proposalId ++ textField 2 m.voter ++ signedField 3 m.option
  | submitProposal m =>
    partField 1 (m.content.map Packed.toRecord) ++ coinFields 2 m.initialDeposit
      ++ textField 3 m.proposer
  | unjail m => textField 1 m.validatorAddress
  | undelegate m =>
    textField 1 m.delegatorAddress ++ textField 2 m.validatorAddress ++ coinField 3 m.amount
  | delegate m =>
    textField 1 m.delegatorAddress ++ textField 2 m.validatorAddress ++ coinField 3 m.amount
  | redelegate m =>
    textField 1 m.delegatorAddress ++ textField 2 m.sourceAddress
      ++ textField 3 m.destinationAddress ++ coinField 4 m.amount
  | createValidator m =>
    partField 1 (m.description.map Description.toRecord)
      ++ partField 2 (m.commission.map CommissionRates.toRecord)
      ++ textField 3 m.minSelfDelegation ++ textField 4 m.delegatorAddress
      ++ textField 5 m.validatorAddress ++ partField 6 (m.pubkey.map Packed.toRecord)
      ++ coinField 7 m.value
  | editValidator m =>
    partField 1 (m.description.map Description.toRecord) ++ textField 2 m.validatorAddress
      ++ textField 3 m.commissionRate ++ textField 4 m.minSelfDelegation
  | createVestingAccount m =>
    textField 1 m.fromAddress ++ textField 2 m.toAddress ++ coinFields 3 m.amount
      ++ signedField 4 m.endTime ++ flagField 5 m.delayed
  | relay _ _ => []

end ChainIndexer.Message
