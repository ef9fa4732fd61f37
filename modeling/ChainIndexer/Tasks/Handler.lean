import ChainIndexer.Tasks.Stream
import ChainIndexer.Range.Timeline
import ChainIndexer.Stored.Holdings
import ChainIndexer.Stored.Task
import ChainIndexer.Chain.Basic

/-
  What the handler of each task does.

  A handler asks the chain one question, or fetches a range after it. `Handler.plan` says which, and
  which responses or error it comes to; `Plan.course` is what a handler produces when nothing cuts
  it off, and `Plan.within` is what it produces in a limited time.
-/

namespace ChainIndexer.Tasks

open Range

/-- Who answers tasks. `timeout` is in milliseconds. -/
structure Dispatcher where
  chain : Chain
  pool : String
  workers : Nat
  maximumHeights : Nat
  timeout : Nat

/-- What a handler does once its question is answered. -/
inductive Continuation where
  | stop (c : Course)
  | stream (r : HeightRange)

/-- A question that takes some time, and what follows. -/
structure Plan where
  delay : Nat
  next : Continuation

/-! ## Plans -/

/-- The value of a payload. -/
def payload (q : TaskRequest) (read : Json → Except Json.Fault α) : Except Error α :=
  (read q.payload).mapError fun fault =>
    .task ("invalid " ++ q.kind ++ " payload: " ++ fault.message)

/-- A payload of a response, with the fields of its objects in ascending order. -/
def settled (v : Json) : Json :=
  (v.settle Json.nestingLimit).getD v

/-- A handler that fails. -/
def Course.failure (e : Error) : Course :=
  ⟨[], .failed e⟩

/-- A handler with one response, or the error in its place. -/
def Course.single (kind : ResponseType) (write : α → Json) : Except Error α → Course
  | .ok a => ⟨[⟨kind, settled (write a)⟩], .done⟩
  | .error e => .failure e

/-- A plan that ends at once. -/
def Plan.atOnce (c : Course) : Plan :=
  ⟨0, .stop c⟩

/-- The plan for a payload, or the failure to read it. -/
def Plan.ofPayload (q : TaskRequest) (read : Json → Except Json.Fault α) (f : α → Plan) : Plan :=
  match payload q read with
  | .ok a => f a
  | .error e => .atOnce (.failure e)

/-- The range of a request for transactions. -/
def transactionsPlan (r : HeightRange) : Plan :=
  if r.start = 0 ∨ r.stop = 0 then
    .atOnce (.failure (.task "start_height and end_height must be greater than zero"))
  else ⟨0, .stream r⟩

/-- The range that follows what is known, up to the latest block. -/
def latestRange (maximum : Nat) (last : LatestDataRequest) (latest : Block) :
    Option HeightRange := do
  let known ← if 0 < last.lastHeight then nextHeight? last.lastHeight else some 0
  let stop ← nextHeight? latest.height
  return .upTo known maximum stop

/-- What follows the question for the latest block. -/
def latestNext (maximum : Nat) (last : LatestDataRequest) : Except Error Block → Continuation
  | .error e => .stop (.failure e)
  | .ok latest =>
    match latestRange maximum last latest with
    | some r => .stream r
    | none => .stop ⟨[], .overflow⟩

/-- What the handler of a task does. -/
def Dispatcher.plan (d : Dispatcher) (q : TaskRequest) : TaskType → Plan
  | .transactions => .ofPayload q HeightRange.ofJson transactionsPlan
  | .latestData => .ofPayload q LatestDataRequest.ofJson fun last =>
      ⟨d.chain.delay 0, latestNext d.maximumHeights last (d.chain.block 0)⟩
  | .block => .ofPayload q HeightHash.ofJson fun selector =>
      ⟨d.chain.delay selector.height,
        .stop (.single .block Block.toJson (d.chain.block selector.height))⟩
  | .latestMark =>
      ⟨d.chain.delay 0,
        .stop (.single .latestMark LatestMark.toJson ((d.chain.block 0).map LatestMark.ofBlock))⟩
  | .reward => .ofPayload q AccountQuery.ofJson fun query =>
      .atOnce (.single .reward Rewards.toJson (d.chain.rewards query))
  | .accountBalance => .ofPayload q AccountQuery.ofJson fun query =>
      .atOnce (.single .accountBalance Balances.toJson (d.chain.balances query))
  | .accountDelegations => .ofPayload q AccountQuery.ofJson fun query =>
      .atOnce (.single .delegations Delegations.toJson (d.chain.delegations query))

/-! ## What plans come to -/

/-- The responses about a height: its block, then its transactions. -/
def heightBodies (d : HeightData) : List Body :=
  ⟨.block, settled d.block.toJson⟩
    :: d.transactions.map fun t => ⟨.transaction, settled t.toJson⟩

/-- What a handler makes of the results of a range that ends in `outcome`. -/
def Course.ofItems (outcome : Outcome) : List (RangeItem HeightData) → Course
  | [] => ⟨[], outcome⟩
  | .error e :: _ => .failure e
  | .ok d :: rest =>
    let c := Course.ofItems outcome rest
    ⟨heightBodies d ++ c.data, c.outcome⟩

/-- What a handler produces when nothing cuts it off. -/
def Plan.course (d : Dispatcher) (p : Plan) : Course :=
  match p.next with
  | .stop c => c
  | .stream r => .ofItems .done (reference (d.chain.fetch d.pool) r)

/-- What a handler has produced. -/
structure Produced where
  course : Course
  isCut : Bool
  fetched : List Nat

/-- A run of the range of a plan. -/
def Dispatcher.rangeRun (d : Dispatcher) (wanted limit : Option Nat) (r : HeightRange) :
    Timeline HeightData :=
  Timeline.run ⟨Pipeline.workers d.workers, d.chain.fetch d.pool, d.chain.delay, wanted, limit⟩ r

/-- What a handler produces in a limited time. An answer that takes no time is always in time. -/
def Plan.within (d : Dispatcher) (limit : Nat) (p : Plan) : Produced :=
  if 0 < p.delay ∧ limit ≤ p.delay then ⟨⟨[], .done⟩, true, []⟩
  else match p.next with
    | .stop c => ⟨c, false, []⟩
    | .stream r =>
      let t := d.rangeRun none (some (limit - p.delay)) r
      let failed := t.items.any fun item => !item.isOk
      ⟨.ofItems .done t.items, !t.state.hasEnded && !failed, t.state.answered⟩

/-! ## Dispatching -/

/-- The responses to a task, and how many messages could not be mapped for it. -/
def Dispatcher.dispatch (d : Dispatcher) (q : TaskRequest) : List TaskResponse × DecodeStats :=
  match TaskType.ofName q.kind with
  | .error e => ((Stream.refused q.id e.message).responses false, .zero)
  | .ok type =>
    let produced := (d.plan q type).within d d.timeout
    ((Stream.start q.id produced.course).responses produced.isCut,
      d.chain.stats d.pool produced.fetched)

/-- What is wrong when nobody listens to the responses to a task. -/
def closedError (id : String) : Error :=
  .task ("response stream of task " ++ id ++ " closed")

/-- The heights that a handler fetches until it finds that nobody listens. -/
def Plan.fetchedUnheard (d : Dispatcher) (p : Plan) : List Nat :=
  match p.next with
  | .stop _ => []
  | .stream r => (d.rangeRun (some 1) (some (d.timeout - p.delay)) r).state.answered

/-- What becomes of a task to whose responses nobody listens: `none` if its arithmetic runs over. -/
def Dispatcher.unheard (d : Dispatcher) (q : TaskRequest) : Option Error × DecodeStats :=
  match TaskType.ofName q.kind with
  | .error _ => (some (closedError q.id), .zero)
  | .ok type =>
    let p := d.plan q type
    let isLate := 0 < p.delay ∧ d.timeout ≤ p.delay
    match p.next with
    | .stop ⟨_, .overflow⟩ => (if isLate then some (closedError q.id) else none, .zero)
    | _ => (some (closedError q.id), d.chain.stats d.pool (p.fetchedUnheard d))

end ChainIndexer.Tasks
