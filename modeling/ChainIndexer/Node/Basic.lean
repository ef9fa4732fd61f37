import ChainIndexer.Node.Answer
import ChainIndexer.Node.Question

/-
  Nodes, as their clients see them.

  A node answers questions, and each answer takes its time. What it answers may change from one
  question to the next, so that a node has a state. A scripted node has a list of answers to each
  kind of question, which it gives in turn.
-/

namespace ChainIndexer

open Text

namespace Node

/-- Why a node gives no answer. -/
structure Refusal where
  code : StatusCode
  text : String
  deriving DecidableEq

/-- The error that a refusal is. -/
def Refusal.toError (r : Refusal) : Error :=
  .status r.code r.text

/-- An answer, and how many milliseconds it takes. -/
structure Reply (α : Type) where
  delay : Nat
  answer : Except Refusal α

end Node

/-- What can be asked of a node. Height 0 asks for the latest block; pages count from 1. -/
structure Node (σ : Type) where
  block : Nat → σ → Node.Reply Node.BlockReply × σ
  transactions : Nat → Nat → σ → Node.Reply Node.TxPage × σ
  rewards : AccountQuery → σ → Node.Reply (List Node.ValidatorReward) × σ
  delegations : AccountQuery → Bytes → σ → Node.Reply Node.DelegationPage × σ
  unbonding : AccountQuery → Bytes → σ → Node.Reply Node.UnbondingPage × σ

namespace Node

/-! ## Scripted nodes -/

/-- The answers that a node has ready. -/
structure Script where
  latest : List (Reply BlockReply)
  blocks : List (Nat × List (Reply BlockReply))
  transactions : List (Nat × List (Reply TxPage))
  rewards : List (Reply (List ValidatorReward))
  delegations : List (Reply DelegationPage)
  unbonding : List (Reply UnbondingPage)

namespace Script

/-- The answer of a node that has none ready. -/
def exhausted : Reply α :=
  ⟨0, .error ⟨.notFound, "no reply left"⟩⟩

/-- The next answer, and those after it. -/
def next : List (Reply α) → Reply α × List (Reply α)
  | [] => (exhausted, [])
  | r :: rest => (r, rest)

/-- The next answer under a height, and the answers after it. -/
def nextAt (height : Nat) : List (Nat × List (Reply α)) → Reply α × List (Nat × List (Reply α))
  | [] => (exhausted, [])
  | (h, rs) :: rest =>
    if h = height then
      let (r, rs) := next rs
      (r, (h, rs) :: rest)
    else
      let (r, rest) := nextAt height rest
      (r, (h, rs) :: rest)

/-- The number of answers under all heights. -/
def sizeOf (answers : List (Nat × List (Reply α))) : Nat :=
  answers.foldl (fun count e => count + e.2.length) 0

/-- The number of pages that a script can fill. -/
def pages (s : Script) : Nat :=
  sizeOf s.transactions + s.delegations.length + s.unbonding.length + 1

/-- The node that answers from a script. -/
def node : Node Script where
  block height s :=
    if height = 0 then
      let (r, rest) := next s.latest
      (r, { s with latest := rest })
    else
      let (r, rest) := nextAt height s.blocks
      (r, { s with blocks := rest })
  transactions height _ s :=
    let (r, rest) := nextAt height s.transactions
    (r, { s with transactions := rest })
  rewards _ s :=
    let (r, rest) := next s.rewards
    (r, { s with rewards := rest })
  delegations _ _ s :=
    let (r, rest) := next s.delegations
    (r, { s with delegations := rest })
  unbonding _ _ s :=
    let (r, rest) := next s.unbonding
    (r, { s with unbonding := rest })

end Script

end Node

end ChainIndexer
