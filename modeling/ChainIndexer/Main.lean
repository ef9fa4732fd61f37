import ChainIndexer.Command
import ChainIndexer.Fetch
import ChainIndexer.Json.Reader
import ChainIndexer.Recorded.Node
import ChainIndexer.Recorded.Request
import ChainIndexer.Server.Basic

/-
  The program.

  The settings are variables of the environment. The first line of the input records the node: an
  object with its answers under `node`, and under `variables` the text of a file that defines more
  variables. `fetch` writes what it finds there; `serve` answers the requests on the lines that
  follow, one to a line.
-/

namespace ChainIndexer

/-- The setting variables of the environment. -/
def environment : IO Variables :=
  Settings.names.filterMapM fun name => do
    return (← IO.getEnv name).map fun value => (name, value)

/-- The first line of the input as a record, which is null if it cannot be read. -/
def readRecord (input : IO.FS.Stream) : IO Json := do
  return (Json.read? (← input.getLine)).getD .null

/-- Answers the requests on the lines of the input, to its end. -/
partial def answerLines (input output : IO.FS.Stream) (s : Server.State) : IO Unit := do
  let line ← input.getLine
  if line ≠ "" then
    let request := Server.Request.ofRecord ((Json.read? line).getD .null)
    let (response, s) := Server.answer s request
    output.putStrLn response.toRecord.toText
    output.flush
    answerLines input output s

/-- Ends with an error, or without one. -/
def finish : Option Error → IO UInt32
  | none => return 0
  | some e => do
    IO.eprintln e.message
    return 1

/-- Carries out a command with settings. -/
def carryOut (input output : IO.FS.Stream) (s : Settings) (script : Node.Script) :
    Command → IO UInt32
  | .fetch start stop => do
    let report := Fetch.run s (some script) start stop
    report.lines.forM output.putStrLn
    finish report.failure
  | .serve =>
    match Fetch.connect s (some script) with
    | .error e => finish (some e)
    | .ok chain => do
      answerLines input output (.ofSettings s chain)
      finish none

end ChainIndexer

open ChainIndexer

/-- Runs the program. -/
def main (args : List String) : IO UInt32 := do
  match Command.read args with
  | .error fault =>
    IO.println fault.message
    return fault.exitCode
  | .ok command =>
    let input ← IO.getStdin
    let record ← readRecord input
    let file := (record.present? "variables").map fun v => v.asText.toUTF8
    match Settings.start? (← environment) file with
    | none =>
      IO.eprintln "a variable cannot hold a NUL"
      return 101
    | some (.error e) => finish (some e)
    | some (.ok settings) =>
      let script := Node.Script.ofRecord (record.get "node")
      carryOut input (← IO.getStdout) settings script (command.getD .serve)
