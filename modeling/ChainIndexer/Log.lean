import ChainIndexer.Text.Numeral

/-
  The logs of the messages of a transaction.

  A log holds the events that the chain emitted for one message, whose index it declares. `find?`
  looks up the log of a message. Nodes either fill in the logs or emit flat events in which an
  attribute names the message; `ofFlat` puts these together again.
-/

namespace ChainIndexer

/-- A named value of a log event. -/
structure LogAttribute where
  key : String
  value : String
  deriving DecidableEq

/-- An event that the chain emitted. -/
structure LogEvent where
  kind : String
  attributes : List LogAttribute
  deriving DecidableEq

/-- The events of one message. -/
structure MessageLog where
  index : Nat
  text : String
  events : List LogEvent
  deriving DecidableEq

namespace MessageLog

/-- A log without events. -/
def empty : MessageLog :=
  ⟨0, "", []⟩

/-- The first log that declares an index. -/
def declared? (logs : List MessageLog) (index : Nat) : Option MessageLog :=
  logs.find? (·.index == index)

/-- The log of a message: the one in its place if it declares the index, else the first that
does. -/
def find? (logs : List MessageLog) (index : Nat) : Option MessageLog :=
  match logs[index]? with
  | some log => if log.index = index then some log else declared? logs index
  | none => declared? logs index

/-- The events of one kind, in order. -/
def eventsOf (log : MessageLog) (kind : String) : List LogEvent :=
  log.events.filter (·.kind == kind)

/-! ## Flat events -/

/-- The attribute that names the message of a flat event. -/
def indexKey : String := "msg_index"

/-- The message that the first index of a flat event names, if it names one. -/
def flatIndex? (e : LogEvent) : Option Nat :=
  (e.attributes.find? (·.key == indexKey)).bind fun a =>
    (Text.readWord Text.maxWord32 a.value.toList).toOption

/-- The event without the attributes that name its message. -/
def stripIndex (e : LogEvent) : LogEvent :=
  { e with attributes := e.attributes.filter (·.key != indexKey) }

/-- Adds an event to the log of its message, or a new log behind the others. -/
def addEvent (index : Nat) (e : LogEvent) : List MessageLog → List MessageLog
  | [] => [⟨index, "", [e]⟩]
  | log :: rest =>
    if log.index = index then { log with events := log.events ++ [e] } :: rest
    else log :: addEvent index e rest

/-- Adds a flat event; one that names no message is left out. -/
def addFlat (logs : List MessageLog) (e : LogEvent) : List MessageLog :=
  match flatIndex? e with
  | some index => addEvent index (stripIndex e) logs
  | none => logs

/-- The logs of flat events, in the order in which their messages first appear. -/
def ofFlat (events : List LogEvent) : List MessageLog :=
  events.foldl addFlat []

end MessageLog

end ChainIndexer
