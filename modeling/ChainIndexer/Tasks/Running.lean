import ChainIndexer.Tasks.Handler

/-
  A task that runs.

  The handler of a task waits for the answer to its question. After that it has all its responses,
  or it goes through a range: it takes a result from the pipeline, sends the responses about it, and
  takes the next one. The pipeline, the channel and the consumer go on meanwhile. The timer may
  strike as long as the handler has not come to its end; then the handler goes away with whatever it
  has in hand, and nobody takes any more of the pipeline.

  `Running.step` says what each of them does; any order of actions may happen.
-/

namespace ChainIndexer.Tasks

open Range

/-- What a handler is doing. -/
inductive Handler where
  | asking
  | streaming
  | through
  deriving DecidableEq

/-- A task that runs. The stream has what the handler has learnt and not sent yet. -/
structure Running where
  handler : Handler
  range : Option (Pipeline HeightData)
  stream : Stream

/-- Lets a handler that has nothing to send learn what to send. -/
def Stream.learn (s : Stream) (c : Course) : Stream :=
  { s with rest := c.data, outcome := c.outcome }

namespace Running

/-- A task of which nothing has happened. -/
def start (id : String) : Running :=
  ⟨.asking, none, .start id ⟨[], .done⟩⟩

/-- Something that may happen next. -/
inductive Action where
  /-- The question of the handler is answered. -/
  | answer
  /-- The pipeline goes on. -/
  | fetch (a : Pipeline.Action)
  /-- The handler takes a result from the pipeline, or finds that there are no more. -/
  | next
  /-- Something happens to the responses. -/
  | respond (a : Stream.Action)
  deriving DecidableEq

/-- Whether an action of a pipeline is one of its consumer. -/
def isConsumers : Pipeline.Action → Bool
  | .receive => true
  | .cancel => true
  | _ => false

/-- A pipeline without a consumer. -/
def hangUp (f : Pipeline HeightData) : Pipeline HeightData :=
  { f with cancelled := true, output := [] }

/-- Puts a result into the hands of the handler. An error is the end of it. -/
def handle (s : Running) (f : Pipeline HeightData) : RangeItem HeightData → Running
  | .ok data =>
    { s with range := some f, stream := s.stream.learn ⟨heightBodies data, s.stream.outcome⟩ }
  | .error e => ⟨.through, some (hangUp f), s.stream.learn (.failure e)⟩

/-- The task after the handler has looked for the next result of a pipeline. -/
def takeNext (s : Running) (f : Pipeline HeightData) : Option Running :=
  match f.output with
  | item :: rest =>
    some (s.handle { f with output := rest, received := f.received ++ [item] } item)
  | [] =>
    if f.hasEnded then some { s with handler := .through, stream := s.stream.learn ⟨[], .done⟩ }
    else none

/-- The task after an action, if the action is possible. -/
def step (d : Dispatcher) (p : Plan) (s : Running) : Action → Option Running
  | .answer =>
    match s.handler, p.next with
    | .asking, .stop c => some { s with handler := .through, stream := s.stream.learn c }
    | .asking, .stream r => some { s with handler := .streaming, range := some (.start r) }
    | _, _ => none
  | .fetch a =>
    match s.range with
    | some f =>
      if isConsumers a then none
      else (f.step (Pipeline.workers d.workers) (d.chain.fetch d.pool) a).map fun f =>
        { s with range := some f }
    | none => none
  | .next =>
    match s.handler, s.range, s.stream.waiting, s.stream.rest with
    | .streaming, some f, none, [] => s.takeNext f
    | _, _, _, _ => none
  | .respond .conclude =>
    if s.handler = .through then (s.stream.step .conclude).map fun u => { s with stream := u }
    else none
  | .respond .expire =>
    (s.stream.step .expire).map fun u => ⟨.through, s.range.map hangUp, u⟩
  | .respond a => (s.stream.step a).map fun u => { s with stream := u }

/-- Whether the consumer has seen the end. -/
def hasEnded (s : Running) : Bool :=
  s.stream.hasEnded

/-- The states that can come about, with a timer or without one. -/
inductive Reachable (isTimed : Bool) (d : Dispatcher) (p : Plan) (id : String) : Running → Prop
  | start : Reachable isTimed d p id (start id)
  | step {s t : Running} {a : Action} (before : Reachable isTimed d p id s)
      (now : s.step d p a = some t) (allowed : a = .respond .expire → isTimed = true) :
      Reachable isTimed d p id t

end Running

end ChainIndexer.Tasks
