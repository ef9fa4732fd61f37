import ChainIndexer.Settings.Basic
import ChainIndexer.Node.Address
import ChainIndexer.Node.Client
import ChainIndexer.Range.Timeline

/-
  Fetching a range once.

  The range is checked first, then the addresses of the node. The data of each height is written on
  a line of its own, up to the first failure.
-/

namespace ChainIndexer.Fetch

open Range

/-- What was fetched, and the error that ended it, if any. -/
structure Report where
  data : List HeightData
  failure : Option Error

/-- The report of some results: the data up to the first failure. -/
def Report.ofItems : List (RangeItem HeightData) → Report
  | [] => ⟨[], none⟩
  | .error e :: _ => ⟨[], some e⟩
  | .ok d :: rest =>
    let r := Report.ofItems rest
    ⟨d :: r.data, r.failure⟩

/-- Nothing but an error. -/
def Report.failed (e : Error) : Report :=
  ⟨[], some e⟩

/-- The lines of a report. -/
def Report.lines (r : Report) : List String :=
  r.data.map fun d => d.toJson.toText

/-- What is wrong with a range in which there is nothing to fetch. -/
def emptyRange (start stop : Nat) : Error :=
  .task ("empty range [" ++ start.repr ++ ", " ++ stop.repr ++ ")")

/-- The client of the settings. -/
def clientOf (s : Settings) (node : Node σ) (host : Url) : Client σ where
  node := node
  chainId := s.chainId
  blockLimit := s.blockLimit
  searchLimit := s.searchLimit
  host := host
  apiKey := s.apiKey

/-- A client that has asked nothing yet. -/
def session (s : Settings) (script : Node.Script) : Client.Session Node.Script :=
  ⟨script, .empty s.cacheCapacity, ⟨none, []⟩, []⟩

/-- What the settings find on a node, which answers from a script or cannot be reached. -/
def connect (s : Settings) (script : Option Node.Script) : Except Error Chain := do
  let address ← Node.Address.read s.nodeHost
  match script with
  | none => throw address.unreachable
  | some script =>
    let host ← Node.endpoint s.restHost
    return (clientOf s Node.Script.node host).chain script.pages (session s script)

/-- The report about a range of a chain. -/
def ofChain (c : Chain) (pool : String) (workers : Nat) (r : HeightRange) : Report :=
  .ofItems (Timeline.run (.whole (Pipeline.workers workers) (c.fetch pool) c.delay) r).items

/-- The report about the heights from `start` up to before `stop`. -/
def run (s : Settings) (script : Option Node.Script) (start stop : Nat) : Report :=
  if start = 0 ∨ stop ≤ start then .failed (emptyRange start stop)
  else match connect s script with
    | .error e => .failed e
    | .ok c => ofChain c s.unbondedPool s.workers ⟨start, stop⟩

end ChainIndexer.Fetch
