import ChainIndexer.Message.Mapping
import ChainIndexer.Message.TypeUrl

/-
  Routing messages, and counting those that could not be mapped.

  A message of a type that is not known and a message that its kind cannot read do not stop a
  transaction; each is counted. Only a text that is no type URL is an error, and it is not counted.
-/

namespace ChainIndexer

open Text

/-- How many messages could not be mapped, modulo `2 ^ 64`. -/
structure DecodeStats where
  unknown : UInt64
  broken : UInt64
  deriving DecidableEq

namespace DecodeStats

/-- Nothing counted yet. -/
def zero : DecodeStats := ⟨0, 0⟩

/-- One more message of a type that is not known. -/
def addUnknown (s : DecodeStats) : DecodeStats :=
  { s with unknown := s.unknown + 1 }

/-- One more message that its kind could not read. -/
def addBroken (s : DecodeStats) : DecodeStats :=
  { s with broken := s.broken + 1 }

end DecodeStats

/-- What became of a message. -/
inductive Routed where
  | event (e : Event)
  | unknown (route : Route)
  | broken (kind : MessageKind) (fault : Message.Fault)
  deriving DecidableEq

namespace Routed

/-- The kind of a message whose type is not known. -/
def unknownKind : String := "unknown"

/-- The kind of the event of a message. -/
def kind : Routed → String
  | event e => e.primaryKind
  | unknown _ => unknownKind
  | broken k _ => k.tag

/-- Counts a message that could not be mapped. -/
def count (s : DecodeStats) : Routed → DecodeStats
  | event _ => s
  | unknown _ => s.addUnknown
  | broken _ _ => s.addBroken

end Routed

namespace Message

/-- What becomes of a message, without counting it. -/
def classify (typeUrl : String) (payload : Bytes) (ctx : Context) : Except Error Routed :=
  (TypeUrl.route typeUrl).map fun r =>
    match MessageKind.ofRoute? r with
    | none => .unknown r
    | some kind => match map kind payload ctx with
      | .ok e => .event e
      | .error fault => .broken kind fault

/-- What becomes of a message, and the counters after it. -/
def route (typeUrl : String) (payload : Bytes) (ctx : Context) (s : DecodeStats) :
    Except Error Routed × DecodeStats :=
  match classify typeUrl payload ctx with
  | .ok routed => (.ok routed, routed.count s)
  | .error e => (.error e, s)

end Message

end ChainIndexer
