import ChainIndexer.Tasks.Basic

/-
  The stream of responses to a task.

  A handler produces data responses and comes to an end, while a timer may cut it off. Each response
  is numbered when it is produced and then waits until the channel has room for it. After the
  handler an error response tells of a failure, and a last response ends the stream. A handler whose
  arithmetic runs over goes away without either.
-/

namespace ChainIndexer.Tasks

/-! ## Handlers -/

/-- A response before it has a number. -/
structure Body where
  kind : ResponseType
  payload : Json

/-- How a handler ends. -/
inductive Outcome where
  | done
  | failed (e : Error)
  | overflow
  deriving DecidableEq

/-- The data responses of a handler, and how it ends. -/
structure Course where
  data : List Body
  outcome : Outcome

/-! ## States -/

/-- Who produces the next response. -/
inductive Stage where
  | working
  | failing (e : Error)
  | ending (text : Option String)
  | closed
  deriving DecidableEq

/-- A stream of which some responses have been produced. -/
structure Stream where
  id : String
  rest : List Body
  outcome : Outcome
  order : Nat
  waiting : Option TaskResponse
  stage : Stage
  channel : List TaskResponse
  received : List TaskResponse

namespace Stream

/-- The number of responses for which the channel has room. -/
def room : Nat := 64

/-- A stream before its handler has produced anything. -/
def start (id : String) (c : Course) : Stream :=
  ⟨id, c.data, c.outcome, 0, none, .working, [], []⟩

/-- The stream for a task of an unknown type. -/
def refused (id text : String) : Stream :=
  ⟨id, [], .done, 0, none, .ending (some text), [], []⟩

/-- Something that may happen next. -/
inductive Action where
  /-- A response is produced and numbered. -/
  | produce
  /-- The response that waits goes into the channel. -/
  | push
  /-- The handler comes to its end. -/
  | conclude
  /-- The timer cuts the handler off, and a response that waits is lost. -/
  | expire
  /-- The consumer takes a response. -/
  | receive
  deriving DecidableEq

/-- The response with the next number. -/
def numbered (s : Stream) (kind : String) (payload : Json) (error : Option String)
    (isFinal : Bool) : TaskResponse :=
  ⟨s.id, kind, s.order, payload, error, isFinal⟩

/-- Lets a response wait for room; the next one has the next number. -/
def propose (s : Stream) (r : TaskResponse) : Stream :=
  { s with order := s.order + 1, waiting := some r }

/-- The stage after a handler. -/
def afterHandler : Outcome → Stage
  | .done => .ending none
  | .failed e => .failing e
  | .overflow => .closed

/-- The stream after an action, if the action is possible. -/
def step (s : Stream) : Action → Option Stream
  | .produce =>
    match s.waiting, s.stage with
    | some _, _ => none
    | none, .working => match s.rest with
      | b :: rest =>
        some ({ s with rest := rest }.propose (s.numbered b.kind.name b.payload none false))
      | [] => none
    | none, .failing e =>
      some ({ s with stage := .ending none }.propose
        (s.numbered ResponseType.error.name .null (some e.message) false))
    | none, .ending text =>
      some ({ s with stage := .closed }.propose (s.numbered endKind .null text true))
    | none, .closed => none
  | .push =>
    match s.waiting with
    | some r =>
      if s.channel.length < room then some { s with waiting := none, channel := s.channel ++ [r] }
      else none
    | none => none
  | .conclude =>
    match s.waiting, s.stage, s.rest with
    | none, .working, [] => some { s with stage := afterHandler s.outcome }
    | _, _, _ => none
  | .expire =>
    match s.stage with
    | .working => some { s with rest := [], waiting := none, stage := .failing .elapsed }
    | _ => none
  | .receive =>
    match s.channel with
    | r :: rest => some { s with channel := rest, received := s.received ++ [r] }
    | [] => none

/-- Whether the consumer has seen the end. -/
def hasEnded (s : Stream) : Bool :=
  s.stage == .closed && s.waiting.isNone && s.channel.isEmpty

/-- The streams that can come about. -/
inductive Reachable (s₀ : Stream) : Stream → Prop
  | start : Reachable s₀ s₀
  | step {s t : Stream} {a : Action} (before : Reachable s₀ s) (now : s.step a = some t) :
      Reachable s₀ t

/-! ## Prompt consumers -/

/-- The work that is left in a stage. -/
def Stage.work : Stage → Nat
  | .working => 8
  | .failing _ => 6
  | .ending _ => 3
  | .closed => 0

/-- The number of actions that may still happen. -/
def work (s : Stream) : Nat :=
  3 * s.rest.length + (if s.waiting.isSome then 2 else 0) + s.channel.length + Stage.work s.stage

/-- What a prompt consumer lets happen, in this order. A handler that is cut off is so when it has
no data left. -/
def promptly (isCut : Bool) : List Action :=
  [.receive, .push, .produce, if isCut then .expire else .conclude]

/-- The stream after the first of some actions that is possible. -/
def firstStep (s : Stream) : List Action → Option Stream
  | [] => none
  | a :: rest =>
    match s.step a with
    | some t => some t
    | none => s.firstStep rest

/-- Goes on for at most `steps` actions. -/
def advanceBy (isCut : Bool) : Nat → Stream → Stream
  | 0, s => s
  | steps + 1, s =>
    match s.firstStep (promptly isCut) with
    | some t => advanceBy isCut steps t
    | none => s

/-- All responses that a prompt consumer receives. -/
def responses (isCut : Bool) (s : Stream) : List TaskResponse :=
  (advanceBy isCut s.work s).received

end Stream

end ChainIndexer.Tasks
