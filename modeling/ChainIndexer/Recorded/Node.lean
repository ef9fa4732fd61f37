import ChainIndexer.Node.Client
import ChainIndexer.Recorded.Chain

/-
  Recorded nodes.

  A recording lists the answers of a node under the name of what was asked: `latest`, `block:H` and
  `txs:H` for each height, `rewards`, `delegations` and `unbonding`. An answer may be a status, and
  it may say how long it takes.
-/

namespace ChainIndexer.Node

open Message

/-- A recorded status. -/
def refusalOfRecord (v : Json) : Refusal :=
  match v.asList with
  | [code, text] => ⟨(StatusCode.ofName? code.asText).getD .unknown, text.asText⟩
  | _ => ⟨.unknown, ""⟩

/-- A recorded answer. -/
def replyOfRecord (content : Json → α) (v : Json) : Reply α :=
  ⟨v.natAt "delay_ms", match v.present? "status" with
    | some status => .error (refusalOfRecord status)
    | none => .ok (content v)⟩

/-- The recorded answers of one kind. -/
def repliesOfRecord (content : Json → α) (v : Json) : List (Reply α) :=
  v.asList.map (replyOfRecord content)

/-! ## Contents -/

/-- The recorded head of a block. -/
def BlockHeader.ofRecord (v : Json) : BlockHeader :=
  ⟨v.textAt "chain_id", v.intAt "height", (v.present? "time").map recordedTime⟩

/-- A recorded block in one of its forms. -/
def BlockBody.ofRecord (v : Json) : BlockBody :=
  ⟨(v.present? "header").map BlockHeader.ofRecord, (v.present? "txs").map Json.asNat⟩

/-- A recorded answer about a block. -/
def BlockReply.ofRecord (v : Json) : BlockReply :=
  ⟨(v.present? "block_id").map Json.asBytes, (v.present? "sdk_block").map BlockBody.ofRecord,
    (v.present? "block").map BlockBody.ofRecord⟩

/-- The recorded end of a page. -/
def PageMark.ofRecord (v : Json) : PageMark :=
  ⟨v.bytesAt "next_key", v.natAt "total"⟩

/-- The recorded end of a page, if it has one. -/
def markOfRecord (v : Json) : Option PageMark :=
  (v.present? "pagination").map PageMark.ofRecord

/-- A recorded page of transactions. -/
def TxPage.ofRecord (v : Json) : TxPage where
  envelopes := (v.listAt "txs").filterMap fun t => (Envelope.read t.asBytes).toOption
  receipts := (v.listAt "responses").map Receipt.ofRecord
  total := v.natAt "total"
  mark := markOfRecord v

/-- A recorded coin. -/
def coinOfRecord (v : Json) : Coin :=
  ⟨v.textAt "denom", v.textAt "amount"⟩

/-- Recorded rewards. -/
def rewardsOfRecord (v : Json) : List ValidatorReward :=
  (v.listAt "rewards").map fun r => ⟨r.textAt "validator", (r.listAt "reward").map coinOfRecord⟩

/-- A recorded page of delegations. -/
def DelegationPage.ofRecord (v : Json) : DelegationPage where
  items := (v.listAt "delegations").map fun d =>
    ((d.present? "delegation").map fun d =>
        ⟨d.textAt "delegator", d.textAt "validator", d.textAt "shares"⟩,
      (d.present? "balance").map coinOfRecord)
  mark := markOfRecord v

/-- A recorded amount on its way back. -/
def UnbondingItemEntry.ofRecord (v : Json) : UnbondingItemEntry where
  creationHeight := v.intAt "creation_height"
  completion := (v.present? "completion_time").map recordedTime
  initialBalance := v.textAt "initial_balance"
  balance := v.textAt "balance"

/-- A recorded page of what is on its way back. -/
def UnbondingPage.ofRecord (v : Json) : UnbondingPage where
  items := (v.listAt "unbonding").map fun u =>
    ⟨u.textAt "delegator", u.textAt "validator",
      (u.listAt "entries").map UnbondingItemEntry.ofRecord⟩
  mark := markOfRecord v

/-! ## Nodes -/

/-- The recorded answers for each height, under names that begin in the given way. -/
def heightsOfRecord (kind : String) (content : Json → α) (v : Json) :
    List (Nat × List (Reply α)) :=
  v.asFields.filterMap fun (name, answers) =>
    match name.splitOn ":" with
    | [k, height] =>
      if k = kind then height.toNat?.map fun h => (h, repliesOfRecord content answers) else none
    | _ => none

/-- A recorded node. -/
def Script.ofRecord (v : Json) : Script where
  latest := repliesOfRecord BlockReply.ofRecord (v.get "latest")
  blocks := heightsOfRecord "block" BlockReply.ofRecord v
  transactions := heightsOfRecord "txs" TxPage.ofRecord v
  rewards := repliesOfRecord rewardsOfRecord (v.get "rewards")
  delegations := repliesOfRecord DelegationPage.ofRecord (v.get "delegations")
  unbonding := repliesOfRecord UnbondingPage.ofRecord (v.get "unbonding")

end ChainIndexer.Node
