/-
  The message types of the chain.

  A message type has a name and a list of fields in ascending order of their tags; a field has a
  name, a content, and a rule for standing in a message more than once. The tables hold the
  transaction envelope and every message that is decoded.
-/

namespace ChainIndexer.Wire

/-- The message types. -/
inductive MessageType where
  | tx | txBody | any | authInfo | signerInfo | modeInfo | singleMode | multiMode | bitArray
  | fee | coin | tip | equivocation | timestamp | textProposal
  | msgSend | msgMultiSend | input | output
  | msgVerifyInvariant
  | msgWithdrawValidatorCommission | msgSetWithdrawAddress | msgWithdrawDelegatorReward
  | msgFundCommunityPool
  | msgSubmitEvidence
  | msgDeposit | msgVote | msgSubmitProposal
  | msgUnjail
  | msgUndelegate | msgDelegate | msgBeginRedelegate | msgCreateValidator | description
  | commissionRates | msgEditValidator
  | msgCreateVestingAccount
  | msgCreateClient | msgUpdateClient | msgUpgradeClient | msgSubmitMisbehaviour
  | msgConnectionOpenInit | connectionCounterparty | merklePrefix | version | msgConnectionOpenTry
  | height | msgConnectionOpenAck | msgConnectionOpenConfirm
  | msgChannelOpenInit | channel | channelCounterparty | msgChannelOpenTry | msgChannelOpenAck
  | msgChannelOpenConfirm | msgChannelCloseInit | msgChannelCloseConfirm
  | msgRecvPacket | packet | msgTimeout | msgTimeoutOnClose | msgAcknowledgement
  | msgTransfer

/-- What a field holds. Words are varints of 64 bits; `word32` keeps the low 32 bits, `signed32`
keeps them with their sign, and a flag is a word that is 0 or 1. -/
inductive Content where
  | word64
  | word32
  | signed32
  | flag
  | text
  | bytes
  | message (type : MessageType)

/-- How often a field may stand in a message: once, any number of times, or as one of a group of
fields of which at most one stands. -/
inductive Label where
  | single
  | repeated
  | choice (group : String) (tags : List Nat)

/-- A field of a message type. -/
structure FieldRule where
  tag : Nat
  name : String
  content : Content
  label : Label

/-- A field that stands at most once. -/
def one (tag : Nat) (name : String) (content : Content) : FieldRule :=
  ⟨tag, name, content, .single⟩

/-- A field that stands any number of times. -/
def many (tag : Nat) (name : String) (content : Content) : FieldRule :=
  ⟨tag, name, content, .repeated⟩

namespace MessageType

/-- The name of a message type. -/
def name : MessageType → String
  | tx => "Tx"
  | txBody => "TxBody"
  | any => "Any"
  | authInfo => "AuthInfo"
  | signerInfo => "SignerInfo"
  | modeInfo => "ModeInfo"
  | singleMode => "Single"
  | multiMode => "Multi"
  | bitArray => "CompactBitArray"
  | fee => "Fee"
  | coin => "Coin"
  | tip => "Tip"
  | equivocation => "Equivocation"
  | timestamp => "Timestamp"
  | textProposal => "ProposalHeader"
  | msgSend => "MsgSend"
  | msgMultiSend => "MsgMultiSend"
  | input => "Input"
  | output => "Output"
  | msgVerifyInvariant => "MsgVerifyInvariant"
  | msgWithdrawValidatorCommission => "MsgWithdrawValidatorCommission"
  | msgSetWithdrawAddress => "MsgSetWithdrawAddress"
  | msgWithdrawDelegatorReward => "MsgWithdrawDelegatorReward"
  | msgFundCommunityPool => "MsgFundCommunityPool"
  | msgSubmitEvidence => "MsgSubmitEvidence"
  | msgDeposit => "MsgDeposit"
  | msgVote => "MsgVote"
  | msgSubmitProposal => "MsgSubmitProposal"
  | msgUnjail => "MsgUnjail"
  | msgUndelegate => "MsgUndelegate"
  | msgDelegate => "MsgDelegate"
  | msgBeginRedelegate => "MsgBeginRedelegate"
  | msgCreateValidator => "MsgCreateValidator"
  | description => "Description"
  | commissionRates => "CommissionRates"
  | msgEditValidator => "MsgEditValidator"
  | msgCreateVestingAccount => "MsgCreateVestingAccount"
  | msgCreateClient => "MsgCreateClient"
  | msgUpdateClient => "MsgUpdateClient"
  | msgUpgradeClient => "MsgUpgradeClient"
  | msgSubmitMisbehaviour => "MsgSubmitMisbehaviour"
  | msgConnectionOpenInit => "MsgConnectionOpenInit"
  | connectionCounterparty => "Counterparty"
  | merklePrefix => "MerklePrefix"
  | version => "Version"
  | msgConnectionOpenTry => "MsgConnectionOpenTry"
  | height => "Height"
  | msgConnectionOpenAck => "MsgConnectionOpenAck"
  | msgConnectionOpenConfirm => "MsgConnectionOpenConfirm"
  | msgChannelOpenInit => "MsgChannelOpenInit"
  | channel => "Channel"
  | channelCounterparty => "Counterparty"
  | msgChannelOpenTry => "MsgChannelOpenTry"
  | msgChannelOpenAck => "MsgChannelOpenAck"
  | msgChannelOpenConfirm => "MsgChannelOpenConfirm"
  | msgChannelCloseInit => "MsgChannelCloseInit"
  | msgChannelCloseConfirm => "MsgChannelCloseConfirm"
  | msgRecvPacket => "MsgRecvPacket"
  | packet => "Packet"
  | msgTimeout => "MsgTimeout"
  | msgTimeoutOnClose => "MsgTimeoutOnClose"
  | msgAcknowledgement => "MsgAcknowledgement"
  | msgTransfer => "MsgTransfer"

/-- The fields of a message type. -/
def rules : MessageType → List FieldRule
  | tx => [one 1 "body" (.message txBody), one 2 "auth_info" (.message authInfo),
      many 3 "signatures" .bytes]
  | txBody => [many 1 "messages" (.message any), one 2 "memo" .text,
      one 3 "timeout_height" .word64, many 1023 "extension_options" (.message any),
      many 2047 "non_critical_extension_options" (.message any)]
  | any => [one 1 "type_url" .text, one 2 "value" .bytes]
  | authInfo => [many 1 "signer_infos" (.message signerInfo), one 2 "fee" (.message fee),
      one 3 "tip" (.message tip)]
  | signerInfo => [one 1 "public_key" (.message any), one 2 "mode_info" (.message modeInfo),
      one 3 "sequence" .word64]
  | modeInfo => [⟨1, "single", .message singleMode, .choice "sum" [1, 2]⟩,
      ⟨2, "multi", .message multiMode, .choice "sum" [1, 2]⟩]
  | singleMode => [one 1 "mode" .signed32]
  | multiMode => [one 1 "bitarray" (.message bitArray), many 2 "mode_infos" (.message modeInfo)]
  | bitArray => [one 1 "extra_bits_stored" .word32, one 2 "elems" .bytes]
  | fee => [many 1 "amount" (.message coin), one 2 "gas_limit" .word64, one 3 "payer" .text,
      one 4 "granter" .text]
  | coin => [one 1 "denom" .text, one 2 "amount" .text]
  | tip => [many 1 "amount" (.message coin), one 2 "tipper" .text]
  | equivocation => [one 1 "height" .word64, one 2 "time" (.message timestamp),
      one 3 "power" .word64, one 4 "consensus_address" .text]
  | timestamp => [one 1 "seconds" .word64, one 2 "nanos" .signed32]
  | textProposal => [one 1 "title" .text, one 2 "description" .text]
  | msgSend => [one 1 "from_address" .text, one 2 "to_address" .text,
      many 3 "amount" (.message coin)]
  | msgMultiSend => [many 1 "inputs" (.message input), many 2 "outputs" (.message output)]
  | input => [one 1 "address" .text, many 2 "coins" (.message coin)]
  | output => [one 1 "address" .text, many 2 "coins" (.message coin)]
  | msgVerifyInvariant => [one 1 "sender" .text, one 2 "invariant_module_name" .text,
      one 3 "invariant_route" .text]
  | msgWithdrawValidatorCommission => [one 1 "validator_address" .text]
  | msgSetWithdrawAddress => [one 1 "delegator_address" .text, one 2 "withdraw_address" .text]
  | msgWithdrawDelegatorReward => [one 1 "delegator_address" .text,
      one 2 "validator_address" .text]
  | msgFundCommunityPool => [many 1 "amount" (.message coin), one 2 "depositor" .text]
  | msgSubmitEvidence => [one 1 "submitter" .text, one 2 "evidence" (.message any)]
  | msgDeposit => [one 1 "proposal_id" .word64, one 2 "depositor" .text,
      many 3 "amount" (.message coin)]
  | msgVote => [one 1 "proposal_id" .word64, one 2 "voter" .text, one 3 "option" .signed32]
  | msgSubmitProposal => [one 1 "content" (.message any),
      many 2 "initial_deposit" (.message coin), one 3 "proposer" .text]
  | msgUnjail => [one 1 "validator_addr" .text]
  | msgUndelegate => [one 1 "delegator_address" .text, one 2 "validator_address" .text,
      one 3 "amount" (.message coin)]
  | msgDelegate => [one 1 "delegator_address" .text, one 2 "validator_address" .text,
      one 3 "amount" (.message coin)]
  | msgBeginRedelegate => [one 1 "delegator_address" .text, one 2 "validator_src_address" .text,
      one 3 "validator_dst_address" .text, one 4 "amount" (.message coin)]
  | msgCreateValidator => [one 1 "description" (.message description),
      one 2 "commission" (.message commissionRates), one 3 "min_self_delegation" .text,
      one 4 "delegator_address" .text, one 5 "validator_address" .text,
      one 6 "pubkey" (.message any), one 7 "value" (.message coin)]
  | description => [one 1 "moniker" .text, one 2 "identity" .text, one 3 "website" .text,
      one 4 "security_contact" .text, one 5 "details" .text]
  | commissionRates => [one 1 "rate" .text, one 2 "max_rate" .text, one 3 "max_change_rate" .text]
  | msgEditValidator => [one 1 "description" (.message description),
      one 2 "validator_address" .text, one 3 "commission_rate" .text,
      one 4 "min_self_delegation" .text]
  | msgCreateVestingAccount => [one 1 "from_address" .text, one 2 "to_address" .text,
      many 3 "amount" (.message coin), one 4 "end_time" .word64, one 5 "delayed" .flag]
  | msgCreateClient => [one 1 "client_state" (.message any),
      one 2 "consensus_state" (.message any), one 3 "signer" .text]
  | msgUpdateClient => [one 1 "client_id" .text, one 2 "client_message" (.message any),
      one 3 "signer" .text]
  | msgUpgradeClient => [one 1 "client_id" .text, one 2 "client_state" (.message any),
      one 3 "consensus_state" (.message any), one 4 "proof_upgrade_client" .bytes,
      one 5 "proof_upgrade_consensus_state" .bytes, one 6 "signer" .text]
  | msgSubmitMisbehaviour => [one 1 "client_id" .text, one 2 "misbehaviour" (.message any),
      one 3 "signer" .text]
  | msgConnectionOpenInit => [one 1 "client_id" .text,
      one 2 "counterparty" (.message connectionCounterparty), one 3 "version" (.message version),
      one 4 "delay_period" .word64, one 5 "signer" .text]
  | connectionCounterparty => [one 1 "client_id" .text, one 2 "connection_id" .text,
      one 3 "prefix" (.message merklePrefix)]
  | merklePrefix => [one 1 "key_prefix" .bytes]
  | version => [one 1 "identifier" .text, many 2 "features" .text]
  | msgConnectionOpenTry => [one 1 "client_id" .text, one 2 "previous_connection_id" .text,
      one 3 "client_state" (.message any), one 4 "counterparty" (.message connectionCounterparty),
      one 5 "delay_period" .word64, many 6 "counterparty_versions" (.message version),
      one 7 "proof_height" (.message height), one 8 "proof_init" .bytes,
      one 9 "proof_client" .bytes, one 10 "proof_consensus" .bytes,
      one 11 "consensus_height" (.message height), one 12 "signer" .text,
      one 13 "host_consensus_state_proof" .bytes]
  | height => [one 1 "revision_number" .word64, one 2 "revision_height" .word64]
  | msgConnectionOpenAck => [one 1 "connection_id" .text,
      one 2 "counterparty_connection_id" .text, one 3 "version" (.message version),
      one 4 "client_state" (.message any), one 5 "proof_height" (.message height),
      one 6 "proof_try" .bytes, one 7 "proof_client" .bytes, one 8 "proof_consensus" .bytes,
      one 9 "consensus_height" (.message height), one 10 "signer" .text,
      one 11 "host_consensus_state_proof" .bytes]
  | msgConnectionOpenConfirm => [one 1 "connection_id" .text, one 2 "proof_ack" .bytes,
      one 3 "proof_height" (.message height), one 4 "signer" .text]
  | msgChannelOpenInit => [one 1 "port_id" .text, one 2 "channel" (.message channel),
      one 3 "signer" .text]
  | channel => [one 1 "state" .signed32, one 2 "ordering" .signed32,
      one 3 "counterparty" (.message channelCounterparty), many 4 "connection_hops" .text,
      one 5 "version" .text, one 6 "upgrade_sequence" .word64]
  | channelCounterparty => [one 1 "port_id" .text, one 2 "channel_id" .text]
  | msgChannelOpenTry => [one 1 "port_id" .text, one 2 "previous_channel_id" .text,
      one 3 "channel" (.message channel), one 4 "counterparty_version" .text,
      one 5 "proof_init" .bytes, one 6 "proof_height" (.message height), one 7 "signer" .text]
  | msgChannelOpenAck => [one 1 "port_id" .text, one 2 "channel_id" .text,
      one 3 "counterparty_channel_id" .text, one 4 "counterparty_version" .text,
      one 5 "proof_try" .bytes, one 6 "proof_height" (.message height), one 7 "signer" .text]
  | msgChannelOpenConfirm => [one 1 "port_id" .text, one 2 "channel_id" .text,
      one 3 "proof_ack" .bytes, one 4 "proof_height" (.message height), one 5 "signer" .text]
  | msgChannelCloseInit => [one 1 "port_id" .text, one 2 "channel_id" .text,
      one 3 "signer" .text]
  | msgChannelCloseConfirm => [one 1 "port_id" .text, one 2 "channel_id" .text,
      one 3 "proof_init" .bytes, one 4 "proof_height" (.message height), one 5 "signer" .text,
      one 6 "counterparty_upgrade_sequence" .word64]
  | msgRecvPacket => [one 1 "packet" (.message packet), one 2 "proof_commitment" .bytes,
      one 3 "proof_height" (.message height), one 4 "signer" .text]
  | packet => [one 1 "sequence" .word64, one 2 "source_port" .text, one 3 "source_channel" .text,
      one 4 "destination_port" .text, one 5 "destination_channel" .text, one 6 "data" .bytes,
      one 7 "timeout_height" (.message height), one 8 "timeout_timestamp" .word64]
  | msgTimeout => [one 1 "packet" (.message packet), one 2 "proof_unreceived" .bytes,
      one 3 "proof_height" (.message height), one 4 "next_sequence_recv" .word64,
      one 5 "signer" .text]
  | msgTimeoutOnClose => [one 1 "packet" (.message packet), one 2 "proof_unreceived" .bytes,
      one 3 "proof_close" .bytes, one 4 "proof_height" (.message height),
      one 5 "next_sequence_recv" .word64, one 6 "signer" .text,
      one 7 "counterparty_upgrade_sequence" .word64]
  | msgAcknowledgement => [one 1 "packet" (.message packet), one 2 "acknowledgement" .bytes,
      one 3 "proof_acked" .bytes, one 4 "proof_height" (.message height), one 5 "signer" .text]
  | msgTransfer => [one 1 "source_port" .text, one 2 "source_channel" .text,
      one 3 "token" (.message coin), one 4 "sender" .text, one 5 "receiver" .text,
      one 6 "timeout_height" (.message height), one 7 "timeout_timestamp" .word64,
      one 8 "memo" .text]

/-- The field of a tag. -/
def rule? (m : MessageType) (tag : Nat) : Option FieldRule :=
  m.rules.find? (·.tag == tag)

/-- A field as a report names it: by its group if it is in one. -/
def place (m : MessageType) (rule : FieldRule) : String :=
  m.name ++ "." ++ match rule.label with
    | .choice group _ => group
    | _ => rule.name

end MessageType

end ChainIndexer.Wire
