import ChainIndexer.Server.MediaType
import ChainIndexer.Server.Request
import ChainIndexer.Command
import ChainIndexer.Settings.Basic
import ChainIndexer.Tasks.Handler

/-
  The server.

  It tells how it is, and it carries out tasks. The responses to a task are written one to a line.
  Counters of messages that could not be mapped go on from task to task.
-/

namespace ChainIndexer.Server

open Tasks

/-- A server, with what it has counted so far. -/
structure State where
  dispatcher : Dispatcher
  chainId : String
  stats : DecodeStats

/-- A server with the given settings that has counted nothing yet. -/
def State.ofSettings (s : Settings) (chain : Chain) : State where
  dispatcher :=
    { chain := chain
      pool := s.unbondedPool
      workers := s.workers
      maximumHeights := s.maximumHeights
      timeout := s.taskLimit * 1000 }
  chainId := s.chainId
  stats := .zero

/-- The largest body of a request. -/
def bodyLimit : Nat := 4096

/-- The written form of counters. -/
def statsJson (s : DecodeStats) : Json :=
  .object (Json.field "unknown_messages" (.nat s.unknown.toNat)
    ++ Json.field "broken_messages" (.nat s.broken.toNat))

/-- How the server is. -/
def health (s : State) : Response :=
  let body := Json.object (Json.field "status" (.text "ok")
    ++ Json.field "version" (.text programVersion)
    ++ Json.field "chain_id" (.text s.chainId)
    ++ Json.field "decode" (statsJson s.stats))
  ⟨200, some "application/json", body.toText⟩

/-- The request of a body, or the response that refuses it. -/
def readTask (r : Request) : Except Response TaskRequest :=
  if !(r.contentType.bind MediaType.read?).any MediaType.isJson then
    .error (.text 400 "Content type error")
  else if bodyLimit < r.size then
    .error (.text 413 ("JSON payload (" ++ r.size.repr ++ " bytes) is larger than allowed (limit: "
      ++ bodyLimit.repr ++ " bytes)."))
  else match (Json.read? r.body).map TaskRequest.ofJson with
    | some (.ok q) => .ok q
    | _ => .error (.text 400 "Json deserialize error")

/-- The body that carries responses: each on a line. -/
def taskBody (responses : List TaskResponse) : String :=
  String.join (responses.map TaskResponse.line)

/-- Carries out a task. -/
def task (s : State) (q : TaskRequest) : Response × State :=
  let (responses, stats) := s.dispatcher.dispatch q
  (⟨200, some "application/x-ndjson", taskBody responses⟩, { s with stats := s.stats.add stats })

/-- Answers a request. -/
def answer (s : State) (r : Request) : Response × State :=
  if r.method = "GET" ∧ r.place? = some ["", "health"] then (health s, s)
  else if r.method = "POST" ∧ r.place? = some ["", "api", "task"] then
    match readTask r with
    | .ok q => task s q
    | .error refusal => (refusal, s)
  else (.empty 404, s)

end ChainIndexer.Server
