import ChainIndexer.Wire.Schema

/-
  The kinds of messages that are decoded.

  A kind has a route, which is the module and the name in its type URL, a tag, which is the kind of
  its event, and the message type of its payload. `ofRoute?` finds the kind of a route; the routes
  are distinct.
-/

namespace ChainIndexer

open Wire

/-- The kinds of messages that are decoded. -/
inductive MessageKind where
  | bankSend
  | bankMultiSend
  | crisisVerifyInvariant
  | distributionWithdrawValidatorCommission
  | distributionSetWithdrawAddress
  | distributionWithdrawDelegatorReward
  | distributionFundCommunityPool
  | evidenceSubmitEvidence
  | govDeposit
  | govVote
  | govSubmitProposal
  | slashingUnjail
  | stakingUndelegate
  | stakingDelegate
  | stakingBeginRedelegate
  | stakingCreateValidator
  | stakingEditValidator
  | vestingCreateVestingAccount
  | ibcCreateClient
  | ibcUpdateClient
  | ibcUpgradeClient
  | ibcSubmitMisbehaviour
  | ibcConnectionOpenInit
  | ibcConnectionOpenTry
  | ibcConnectionOpenAck
  | ibcConnectionOpenConfirm
  | ibcChannelOpenInit
  | ibcChannelOpenTry
  | ibcChannelOpenAck
  | ibcChannelOpenConfirm
  | ibcChannelCloseInit
  | ibcChannelCloseConfirm
  | ibcRecvPacket
  | ibcTimeout
  | ibcTimeoutOnClose
  | ibcAcknowledgement
  | ibcTransfer
  deriving DecidableEq, Repr

/-- The module and the name in a type URL. -/
structure Route where
  moduleName : String
  message : String
  deriving DecidableEq

namespace MessageKind

/-- All kinds. -/
def all : List MessageKind :=
  [bankSend, bankMultiSend, crisisVerifyInvariant, distributionWithdrawValidatorCommission,
   distributionSetWithdrawAddress, distributionWithdrawDelegatorReward,
   distributionFundCommunityPool, evidenceSubmitEvidence, govDeposit, govVote, govSubmitProposal,
   slashingUnjail, stakingUndelegate, stakingDelegate, stakingBeginRedelegate,
   stakingCreateValidator, stakingEditValidator, vestingCreateVestingAccount, ibcCreateClient,
   ibcUpdateClient, ibcUpgradeClient, ibcSubmitMisbehaviour, ibcConnectionOpenInit,
   ibcConnectionOpenTry, ibcConnectionOpenAck, ibcConnectionOpenConfirm, ibcChannelOpenInit,
   ibcChannelOpenTry, ibcChannelOpenAck, ibcChannelOpenConfirm, ibcChannelCloseInit,
   ibcChannelCloseConfirm, ibcRecvPacket, ibcTimeout, ibcTimeoutOnClose, ibcAcknowledgement,
   ibcTransfer]

/-- The route of a kind. -/
def route : MessageKind → Route
  | bankSend => ⟨"bank", "MsgSend"⟩
  | bankMultiSend => ⟨"bank", "MsgMultiSend"⟩
  | crisisVerifyInvariant => ⟨"crisis", "MsgVerifyInvariant"⟩
  | distributionWithdrawValidatorCommission => ⟨"distribution", "MsgWithdrawValidatorCommission"⟩
  | distributionSetWithdrawAddress => ⟨"distribution", "MsgSetWithdrawAddress"⟩
  | distributionWithdrawDelegatorReward => ⟨"distribution", "MsgWithdrawDelegatorReward"⟩
  | distributionFundCommunityPool => ⟨"distribution", "MsgFundCommunityPool"⟩
  | evidenceSubmitEvidence => ⟨"evidence", "MsgSubmitEvidence"⟩
  | govDeposit => ⟨"gov", "MsgDeposit"⟩
  | govVote => ⟨"gov", "MsgVote"⟩
  | govSubmitProposal => ⟨"gov", "MsgSubmitProposal"⟩
  | slashingUnjail => ⟨"slashing", "MsgUnjail"⟩
  | stakingUndelegate => ⟨"staking", "MsgUndelegate"⟩
  | stakingDelegate => ⟨"staking", "MsgDelegate"⟩
  | stakingBeginRedelegate => ⟨"staking", "MsgBeginRedelegate"⟩
  | stakingCreateValidator => ⟨"staking", "MsgCreateValidator"⟩
  | stakingEditValidator => ⟨"staking", "MsgEditValidator"⟩
  | vestingCreateVestingAccount => ⟨"vesting", "MsgCreateVestingAccount"⟩
  | ibcCreateClient => ⟨"client", "MsgCreateClient"⟩
  | ibcUpdateClient => ⟨"client", "MsgUpdateClient"⟩
  | ibcUpgradeClient => ⟨"client", "MsgUpgradeClient"⟩
  | ibcSubmitMisbehaviour => ⟨"client", "MsgSubmitMisbehaviour"⟩
  | ibcConnectionOpenInit => ⟨"connection", "MsgConnectionOpenInit"⟩
  | ibcConnectionOpenTry => ⟨"connection", "MsgConnectionOpenTry"⟩
  | ibcConnectionOpenAck => ⟨"connection", "MsgConnectionOpenAck"⟩
  | ibcConnectionOpenConfirm => ⟨"connection", "MsgConnectionOpenConfirm"⟩
  | ibcChannelOpenInit => ⟨"channel", "MsgChannelOpenInit"⟩
  | ibcChannelOpenTry => ⟨"channel", "MsgChannelOpenTry"⟩
  | ibcChannelOpenAck => ⟨"channel", "MsgChannelOpenAck"⟩
  | ibcChannelOpenConfirm => ⟨"channel", "MsgChannelOpenConfirm"⟩
  | ibcChannelCloseInit => ⟨"channel", "MsgChannelCloseInit"⟩
  | ibcChannelCloseConfirm => ⟨"channel", "MsgChannelCloseConfirm"⟩
  | ibcRecvPacket => ⟨"channel", "MsgRecvPacket"⟩
  | ibcTimeout => ⟨"channel", "MsgTimeout"⟩
  | ibcTimeoutOnClose => ⟨"channel", "MsgTimeoutOnClose"⟩
  | ibcAcknowledgement => ⟨"channel", "MsgAcknowledgement"⟩
  | ibcTransfer => ⟨"transfer", "MsgTransfer"⟩

/-- The kind of the events of a message kind. -/
def tag : MessageKind → String
  | bankSend => "send"
  | bankMultiSend => "multisend"
  | crisisVerifyInvariant => "verify_invariant"
  | distributionWithdrawValidatorCommission => "withdraw_validator_commission"
  | distributionSetWithdrawAddress => "set_withdraw_address"
  | distributionWithdrawDelegatorReward => "withdraw_delegator_reward"
  | distributionFundCommunityPool => "fund_community_pool"
  | evidenceSubmitEvidence => "submit_evidence"
  | govDeposit => "deposit"
  | govVote => "vote"
  | govSubmitProposal => "submit_proposal"
  | slashingUnjail => "unjail"
  | stakingUndelegate => "begin_unbonding"
  | stakingDelegate => "delegate"
  | stakingBeginRedelegate => "begin_redelegate"
  | stakingCreateValidator => "create_validator"
  | stakingEditValidator => "edit_validator"
  | vestingCreateVestingAccount => "msg_create_vesting_account"
  | ibcCreateClient => "create_client"
  | ibcUpdateClient => "update_client"
  | ibcUpgradeClient => "upgrade_client"
  | ibcSubmitMisbehaviour => "submit_misbehaviour"
  | ibcConnectionOpenInit => "connection_open_init"
  | ibcConnectionOpenTry => "connection_open_try"
  | ibcConnectionOpenAck => "connection_open_ack"
  | ibcConnectionOpenConfirm => "connection_open_confirm"
  | ibcChannelOpenInit => "channel_open_init"
  | ibcChannelOpenTry => "channel_open_try"
  | ibcChannelOpenAck => "channel_open_ack"
  | ibcChannelOpenConfirm => "channel_open_confirm"
  | ibcChannelCloseInit => "channel_close_init"
  | ibcChannelCloseConfirm => "channel_close_confirm"
  | ibcRecvPacket => "recv_packet"
  | ibcTimeout => "timeout"
  | ibcTimeoutOnClose => "timeout_on_close"
  | ibcAcknowledgement => "acknowledgement"
  | ibcTransfer => "transfer"

/-- The message type of the payload. -/
def messageType : MessageKind → MessageType
  | bankSend => .msgSend
  | bankMultiSend => .msgMultiSend
  | crisisVerifyInvariant => .msgVerifyInvariant
  | distributionWithdrawValidatorCommission => .msgWithdrawValidatorCommission
  | distributionSetWithdrawAddress => .msgSetWithdrawAddress
  | distributionWithdrawDelegatorReward => .msgWithdrawDelegatorReward
  | distributionFundCommunityPool => .msgFundCommunityPool
  | evidenceSubmitEvidence => .msgSubmitEvidence
  | govDeposit => .msgDeposit
  | govVote => .msgVote
  | govSubmitProposal => .msgSubmitProposal
  | slashingUnjail => .msgUnjail
  | stakingUndelegate => .msgUndelegate
  | stakingDelegate => .msgDelegate
  | stakingBeginRedelegate => .msgBeginRedelegate
  | stakingCreateValidator => .msgCreateValidator
  | stakingEditValidator => .msgEditValidator
  | vestingCreateVestingAccount => .msgCreateVestingAccount
  | ibcCreateClient => .msgCreateClient
  | ibcUpdateClient => .msgUpdateClient
  | ibcUpgradeClient => .msgUpgradeClient
  | ibcSubmitMisbehaviour => .msgSubmitMisbehaviour
  | ibcConnectionOpenInit => .msgConnectionOpenInit
  | ibcConnectionOpenTry => .msgConnectionOpenTry
  | ibcConnectionOpenAck => .msgConnectionOpenAck
  | ibcConnectionOpenConfirm => .msgConnectionOpenConfirm
  | ibcChannelOpenInit => .msgChannelOpenInit
  | ibcChannelOpenTry => .msgChannelOpenTry
  | ibcChannelOpenAck => .msgChannelOpenAck
  | ibcChannelOpenConfirm => .msgChannelOpenConfirm
  | ibcChannelCloseInit => .msgChannelCloseInit
  | ibcChannelCloseConfirm => .msgChannelCloseConfirm
  | ibcRecvPacket => .msgRecvPacket
  | ibcTimeout => .msgTimeout
  | ibcTimeoutOnClose => .msgTimeoutOnClose
  | ibcAcknowledgement => .msgAcknowledgement
  | ibcTransfer => .msgTransfer

/-- The modules of the protocol between chains. -/
def relayModules : List String :=
  ["client", "connection", "channel", "transfer"]

/-- The name under which these modules are reported. -/
def relayName : String := "ibc"

/-- Whether the kind belongs to the protocol between chains. -/
def isRelay (k : MessageKind) : Bool :=
  relayModules.contains k.route.moduleName

/-- The module of the events of a kind. -/
def moduleName (k : MessageKind) : String :=
  if k.isRelay then relayName else k.route.moduleName

/-- A kind in a report. -/
def label (k : MessageKind) : String :=
  k.route.moduleName ++ "." ++ k.route.message

/-- What a report calls a payload of the kind. -/
def payloadName : MessageKind → String
  | bankSend => "bank.MsgSend"
  | bankMultiSend => "bank.MsgMultiSend"
  | crisisVerifyInvariant => "crisis.MsgVerifyInvariant"
  | distributionWithdrawValidatorCommission => "distribution.MsgWithdrawValidatorCommission"
  | distributionSetWithdrawAddress => "distribution.MsgSetWithdrawAddress"
  | distributionWithdrawDelegatorReward => "distribution.MsgWithdrawDelegatorReward"
  | distributionFundCommunityPool => "distribution.MsgFundCommunityPool"
  | evidenceSubmitEvidence => "evidence.MsgSubmitEvidence"
  | govDeposit => "gov.MsgDeposit"
  | govVote => "gov.MsgVote"
  | govSubmitProposal => "gov.MsgSubmitProposal"
  | slashingUnjail => "slashing.MsgUnjail"
  | stakingUndelegate => "staking.MsgUndelegate"
  | stakingDelegate => "staking.MsgDelegate"
  | stakingBeginRedelegate => "staking.MsgBeginRedelegate"
  | stakingCreateValidator => "staking.MsgCreateValidator"
  | stakingEditValidator => "staking.MsgEditValidator"
  | vestingCreateVestingAccount => "vesting.MsgCreateVestingAccount"
  | k => k.tag

/-- The kind of a route. -/
def ofRoute? (r : Route) : Option MessageKind :=
  all.find? (·.route == r)

theorem mem_all (k : MessageKind) : k ∈ all := by
  cases k <;> decide

/-- Two kinds with one route are the same. -/
theorem route_injective : ∀ j k : MessageKind, j.route = k.route → j = k := by
  intro j k h
  have : ∀ j ∈ all, ∀ k ∈ all, j.route = k.route → j = k := by decide +kernel
  exact this j (mem_all j) k (mem_all k) h

end MessageKind

end ChainIndexer
