import ChainIndexer.Message.Router

/-
  Several messages routed at once.

  Calls share the counters and nothing else. Each call finds out by itself what becomes of its
  message, adds one to a counter if the message could not be mapped, and then answers. A call may
  begin at any time, and the steps of different calls may come in any order.
-/

namespace ChainIndexer

/-- The counters of messages that could not be mapped. -/
inductive Counter where
  | unknown
  | broken
  deriving DecidableEq

/-- Adds one to a counter. -/
def DecodeStats.addTo (s : DecodeStats) : Counter → DecodeStats
  | .unknown => s.addUnknown
  | .broken => s.addBroken

/-- The counter to which a message is added, if it is counted. -/
def Routed.counter? : Routed → Option Counter
  | event _ => none
  | unknown _ => some .unknown
  | broken _ _ => some .broken

namespace Message

/-- How far a call is. -/
inductive Phase where
  | asked
  | found (routed : Routed)
  | counted (routed : Routed)
  | answered (result : Except Error Routed)

/-- A call for one message. -/
structure Call where
  message : Packed
  ctx : Context
  phase : Phase

namespace Call

/-- A call that has not begun to look at its message. -/
def begun (message : Packed) (ctx : Context) : Call :=
  ⟨message, ctx, .asked⟩

/-- What becomes of the message. -/
def outcome (c : Call) : Except Error Routed :=
  classify c.message.typeUrl c.message.value c.ctx

/-- The next step of a call: the counter that it adds to, and how far the call is then. -/
def next? (c : Call) : Option (Option Counter × Phase) :=
  match c.phase with
  | .asked => match c.outcome with
    | .ok routed => some (none, .found routed)
    | .error e => some (none, .answered (.error e))
  | .found routed => some (routed.counter?, .counted routed)
  | .counted routed => some (none, .answered (.ok routed))
  | .answered _ => none

end Call

/-- The counters, and the calls in the order in which they began. -/
structure Calls where
  stats : DecodeStats
  calls : List Call

namespace Calls

/-- No call has begun. -/
def start (stats : DecodeStats) : Calls :=
  ⟨stats, []⟩

/-- A step: which call takes it, and to which counter it adds. -/
structure Trace where
  call : Nat
  counter? : Option Counter
  deriving DecidableEq

/-- A call begins, or one that has begun takes its next step. -/
inductive Step : Calls → Trace → Calls → Prop
  | begin (s : Calls) (message : Packed) (ctx : Context) :
      Step s ⟨s.calls.length, none⟩ ⟨s.stats, s.calls ++ [.begun message ctx]⟩
  | next {s : Calls} {i : Nat} {c : Call} {counter? : Option Counter} {phase : Phase}
      (here : s.calls[i]? = some c) (step : c.next? = some (counter?, phase)) :
      Step s ⟨i, counter?⟩
        ⟨counter?.elim s.stats s.stats.addTo, s.calls.set i { c with phase := phase }⟩

/-- Steps one after another. -/
inductive Run : Calls → List Trace → Calls → Prop
  | stay (s : Calls) : Run s [] s
  | step {s s' s'' : Calls} {traces : List Trace} {t : Trace} (before : Run s traces s')
      (last : Step s' t s'') : Run s (traces ++ [t]) s''

end Calls

end Message

end ChainIndexer
