import ChainIndexer.Range.Pipeline

/-
  The workers of a pipeline, one by one.

  The workers share the end of the job queue at which jobs are taken, and only one of them can be
  there. A worker waits for its turn, listens until it gets a job, lets the next one listen while it
  fetches, and then waits for its turn again. When no job can come any more, whoever listens goes
  away.

  `Crew.step` says what each worker does. In all else a crew goes on as its pipeline does.
-/

namespace ChainIndexer.Range

/-- What a worker is doing. -/
inductive Worker where
  | queuing
  | listening
  | fetching (height : Nat)
  | gone
  deriving DecidableEq

/-- The height that a worker fetches. -/
def Worker.height? : Worker → Option Nat
  | .fetching h => some h
  | _ => none

/-- A pipeline with its workers. -/
structure Crew (α : Type) where
  pipeline : Pipeline α
  workers : List Worker

namespace Crew

/-- A range of which nothing has been fetched, and `w` workers. -/
def start (w : Nat) (r : HeightRange) : Crew α :=
  ⟨.start r, List.replicate w .queuing⟩

/-- Something that may happen next. -/
inductive Action where
  /-- A worker has its turn to listen. -/
  | turn (i : Nat)
  /-- The worker that listens takes a job. -/
  | take (i : Nat)
  /-- A worker puts the result of its fetch into the cell. -/
  | finish (i : Nat)
  /-- The worker that listens finds that no job can come any more. -/
  | dismiss (i : Nat)
  /-- Something in which the workers have no part. -/
  | aside (a : Pipeline.Action)
  deriving DecidableEq

/-- Whether the workers have a part in an action of the pipeline. -/
def isWorkers : Pipeline.Action → Bool
  | .take => true
  | .finish _ => true
  | _ => false

/-- Puts the job at the front of the queue into the hands of a worker. -/
def handOver (c : Crew α) (i height : Nat) (rest : List Nat) : Crew α where
  pipeline := { c.pipeline with
    jobs := rest, busy := c.pipeline.busy ++ [height], asked := c.pipeline.asked ++ [height] }
  workers := c.workers.set i (.fetching height)

/-- Fills the cell of a height that a worker has fetched. -/
def fill (c : Crew α) (i height : Nat) (result : Except Error α) : Crew α where
  pipeline := { c.pipeline with
    busy := c.pipeline.busy.erase height, cells := c.pipeline.cells ++ [(height, result)] }
  workers := c.workers.set i .queuing

/-- The crew after an action, if the action is possible. `w` is the room in the job queue and in the
output, and half the room in the order queue. -/
def step (w : Nat) (fetch : Nat → Except Error α) (c : Crew α) : Action → Option (Crew α)
  | .turn i =>
    if c.pipeline.isRunning ∧ c.workers[i]? = some .queuing ∧ .listening ∉ c.workers then
      some { c with workers := c.workers.set i .listening }
    else none
  | .take i =>
    match c.workers[i]?, c.pipeline.jobs with
    | some .listening, h :: rest =>
      if c.pipeline.isRunning then some (c.handOver i h rest) else none
    | _, _ => none
  | .finish i =>
    match c.workers[i]? with
    | some (.fetching h) => if c.pipeline.isRunning then some (c.fill i h (fetch h)) else none
    | _ => none
  | .dismiss i =>
    if c.pipeline.isRunning ∧ c.workers[i]? = some .listening ∧ c.pipeline.jobs = [] ∧
        c.pipeline.handing = none ∧ c.pipeline.stop ≤ c.pipeline.next then
      some { c with workers := c.workers.set i .gone }
    else none
  | .aside a =>
    if isWorkers a then none
    else (c.pipeline.step w fetch a).map fun s => { c with pipeline := s }

/-- The crews that can come about. There are as many workers as there is room for jobs. -/
inductive Reachable (w : Nat) (fetch : Nat → Except Error α) (r : HeightRange) : Crew α → Prop
  | start : Reachable w fetch r (start w r)
  | step {c c' : Crew α} {a : Action} (before : Reachable w fetch r c)
      (now : c.step w fetch a = some c') : Reachable w fetch r c'

/-- What bounds the number of actions that may still happen: a worker that has filled a cell may
queue and listen once more. -/
def work (c : Crew α) : Nat :=
  3 * c.pipeline.work + 2 * c.workers.count .queuing + c.workers.count .listening

end Crew

end ChainIndexer.Range
