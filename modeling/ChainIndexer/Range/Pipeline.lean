import ChainIndexer.Range.Reference

/-
  Fetching a range with several workers.

  A producer goes through the heights. For each height it puts an order into one queue and then a
  job into another. Workers take jobs, fetch them, and put each result into a cell of its own. A
  supervisor goes through the orders, waits for the cell of each, and passes the results on to a
  consumer. All queues are bounded. After an error, after the last order, or when the consumer is
  gone, the supervisor leaves, and then everything stops.

  `step` says what each action does and when it is possible; any order of actions may happen. `work`
  bounds how many actions may still happen.
-/

namespace ChainIndexer.Range

/-! ## States -/

/-- What the supervisor is doing. -/
inductive Supervisor (α : Type) where
  | idle
  | awaiting (height : Nat)
  | holding (item : RangeItem α)
  | leaving
  | gone

/-- A range that is being fetched. -/
structure Pipeline (α : Type) where
  next : Nat
  stop : Nat
  handing : Option Nat
  orders : List Nat
  jobs : List Nat
  busy : List Nat
  asked : List Nat
  cells : List (Nat × Except Error α)
  supervisor : Supervisor α
  output : List (RangeItem α)
  received : List (RangeItem α)
  cancelled : Bool

namespace Pipeline

/-- The fewest workers of a pipeline. -/
def minWorkers : Nat := 5

/-- The most workers of a pipeline. -/
def maxWorkers : Nat := 20

/-- The number of workers of a pipeline for which `n` were wanted. -/
def workers (n : Nat) : Nat :=
  max minWorkers (min n maxWorkers)

/-- A range of which nothing has been fetched. -/
def start (r : HeightRange) : Pipeline α where
  next := r.onChain.start
  stop := r.onChain.stop
  handing := none
  orders := []
  jobs := []
  busy := []
  asked := []
  cells := []
  supervisor := .idle
  output := []
  received := []
  cancelled := false

/-- Whether anything but the consumer is still at work. -/
def isRunning (s : Pipeline α) : Bool :=
  match s.supervisor with
  | .gone => false
  | _ => true

/-- Whether the consumer has seen the end. -/
def hasEnded (s : Pipeline α) : Bool :=
  !s.isRunning && s.output.isEmpty

/-- The heights whose fetch has come to an end. -/
def answered (s : Pipeline α) : List Nat :=
  s.asked.filter fun h => !s.busy.contains h

/-! ## Actions -/

/-- Something that may happen next. -/
inductive Action where
  /-- The producer puts an order for the next height. -/
  | order
  /-- The producer puts the job of the height that it has just ordered. -/
  | hand
  /-- A worker without a job takes one. -/
  | take
  /-- The worker that fetches a height puts the result into its cell. -/
  | finish (height : Nat)
  /-- The supervisor takes an order. -/
  | await
  /-- The supervisor takes the result for which it waits. -/
  | collect
  /-- The supervisor passes a result on. -/
  | deliver
  /-- The supervisor finds that there are no more orders. -/
  | leave
  /-- Everything stops. -/
  | halt
  /-- The consumer takes a result. -/
  | receive
  /-- The consumer wants no more. -/
  | cancel
  deriving DecidableEq

/-- A result under the height that it belongs to. -/
def itemOf (height : Nat) : Except Error α → RangeItem α
  | .ok a => .ok a
  | .error e => .error (.range height e)

/-- What the supervisor does after passing on a result. -/
def afterItem : RangeItem α → Supervisor α
  | .ok _ => .idle
  | .error _ => .leaving

/-- Takes the result out of a cell. -/
def takeCell (height : Nat) (cells : List (Nat × Except Error α)) : List (Nat × Except Error α) :=
  cells.filter fun c => c.1 != height

/-- The state after an action, if the action is possible. There are `w` workers, and `fetch` is what
the chain answers about a height. -/
def step (w : Nat) (fetch : Nat → Except Error α) (s : Pipeline α) : Action → Option (Pipeline α)
  | .order =>
    if s.isRunning ∧ s.handing = none ∧ s.next < s.stop ∧ s.orders.length < 2 * w then
      some { s with next := s.next + 1, handing := some s.next, orders := s.orders ++ [s.next] }
    else none
  | .hand =>
    match s.handing with
    | some h =>
      if s.isRunning ∧ s.jobs.length < w then some { s with handing := none, jobs := s.jobs ++ [h] }
      else none
    | none => none
  | .take =>
    match s.jobs with
    | h :: rest =>
      if s.isRunning ∧ s.busy.length < w then
        some { s with jobs := rest, busy := s.busy ++ [h], asked := s.asked ++ [h] }
      else none
    | [] => none
  | .finish h =>
    if s.isRunning ∧ h ∈ s.busy then
      some { s with busy := s.busy.erase h, cells := s.cells ++ [(h, fetch h)] }
    else none
  | .await =>
    match s.supervisor, s.orders with
    | .idle, h :: rest => some { s with supervisor := .awaiting h, orders := rest }
    | _, _ => none
  | .collect =>
    match s.supervisor with
    | .awaiting h =>
      match s.cells.lookup h with
      | some r => some { s with supervisor := .holding (itemOf h r), cells := takeCell h s.cells }
      | none => none
    | _ => none
  | .deliver =>
    match s.supervisor with
    | .holding item =>
      if s.cancelled then some { s with supervisor := .leaving }
      else if s.output.length < w then
        some { s with supervisor := afterItem item, output := s.output ++ [item] }
      else none
    | _ => none
  | .leave =>
    match s.supervisor with
    | .idle =>
      if s.orders = [] ∧ s.handing = none ∧ s.stop ≤ s.next then
        some { s with supervisor := .leaving }
      else none
    | _ => none
  | .halt =>
    match s.supervisor with
    | .gone => none
    | .leaving => some { s with supervisor := .gone }
    | _ => if s.cancelled then some { s with supervisor := .gone } else none
  | .receive =>
    match s.output with
    | item :: rest => some { s with output := rest, received := s.received ++ [item] }
    | [] => none
  | .cancel => if s.cancelled then none else some { s with cancelled := true, output := [] }

/-- The states that can come about. -/
inductive Reachable (w : Nat) (fetch : Nat → Except Error α) (r : HeightRange) : Pipeline α → Prop
  | start : Reachable w fetch r (start r)
  | step {s t : Pipeline α} {a : Action} (before : Reachable w fetch r s)
      (now : s.step w fetch a = some t) : Reachable w fetch r t

/-! ## Work that is left -/

/-- The work that is left to the supervisor. -/
def Supervisor.work : Supervisor α → Nat
  | .idle => 2
  | .awaiting _ => 5
  | .holding _ => 4
  | .leaving => 1
  | .gone => 0

/-- The number of actions that may still happen. -/
def work (s : Pipeline α) : Nat :=
  8 * (s.stop - s.next) + (if s.handing.isSome then 3 else 0) + 2 * s.jobs.length + s.busy.length
    + 4 * s.orders.length + Supervisor.work s.supervisor + s.output.length
    + (if s.cancelled then 0 else 1)

theorem isRunning_iff (s : Pipeline α) : s.isRunning = true ↔ s.supervisor ≠ .gone := by
  unfold isRunning
  cases s.supervisor <;> simp

end Pipeline

end ChainIndexer.Range
