import ChainIndexer.Settings.Variables
import ChainIndexer.Error

/-
  Settings, and how variables give them.

  Each setting has a variable. Only the two addresses of the node have no default.
-/

namespace ChainIndexer

open Text

/-- Where the program runs. -/
inductive Stage where
  | development
  | production
  deriving DecidableEq

namespace Stage

/-- The name of a stage. -/
def name : Stage → String
  | development => "development"
  | production => "production"

/-- The stage of a name. -/
def ofName (s : String) : Except Error Stage :=
  if s = development.name then .ok development
  else if s = production.name then .ok production
  else .error (.io ("Unknown environment " ++ s))

end Stage

/-- How much is logged. -/
inductive LogLevel where
  | error
  | warn
  | info
  | debug
  | trace
  deriving DecidableEq

namespace LogLevel

/-- The name of a level. -/
def name : LogLevel → String
  | error => "ERROR"
  | warn => "WARN"
  | info => "INFO"
  | debug => "DEBUG"
  | trace => "TRACE"

/-- All levels; a level may be given by its place, from 1 on. -/
def all : List LogLevel :=
  [error, warn, info, debug, trace]

/-- The level of a number. -/
def ofNumber? (n : Nat) : Option LogLevel :=
  if n = 0 then none else all[n - 1]?

/-- The level of a name, in letters of either case. -/
def ofName? (s : String) : Option LogLevel :=
  all.find? fun l => l.name.toList = s.toList.map Char.toUpper

/-- The level of a number or a name. -/
def read (s : String) : Except Error LogLevel :=
  let byNumber := (readWord maxWord64 s.toList).toOption.bind ofNumber?
  match byNumber <|> ofName? s with
  | some l => .ok l
  | none => .error (.configuration ("error parsing level: expected one of \"error\", \"warn\", "
      ++ "\"info\", \"debug\", \"trace\", or a number 1-5"))

end LogLevel

/-- Settings. Limits of time are in seconds. -/
structure Settings where
  stage : Stage
  serverHost : String
  portNumber : Nat
  nodeHost : String
  restHost : String
  apiKey : String
  chainId : String
  maximumHeights : Nat
  requestsPerSecond : Nat
  workers : Nat
  blockLimit : Nat
  searchLimit : Nat
  taskLimit : Nat
  cacheCapacity : Nat
  unbondedPool : String
  logLevel : LogLevel
  deriving DecidableEq

namespace Settings

/-- The number that a variable holds. -/
def numberOr (vars : Variables) (limit : Nat) (name default : String) : Except Error Nat :=
  (readWord limit (vars.valueOr name default).toList).mapError .number

/-- The value of a variable that has to be defined. -/
def required (vars : Variables) (name : String) : Except Error String :=
  match vars.lookup name with
  | some value => .ok value
  | none => .error (.configuration (name ++ " is not set"))

/-- The variables of settings. -/
def names : List String :=
  ["APP_ENV", "ADDRESS", "HTTP_PORT", "COSMOS_GRPC_ADDR", "COSMOS_LCD_ADDR", "DATAHUB_KEY",
    "CHAIN_ID", "MAXIMUM_HEIGHTS_TO_GET", "REQUESTS_PER_SECOND", "WORKERS", "TIMEOUT_BLOCK_CALL",
    "TIMEOUT_SEARCH_TX_CALL", "TASK_TIMEOUT", "BLOCK_CACHE_CAPACITY", "UNBONDED_POOL_ADDRESS",
    "LOG_LEVEL"]

/-- The settings of variables. -/
def ofVariables (vars : Variables) : Except Error Settings := do
  let stage ← Stage.ofName (vars.valueOr "APP_ENV" "development")
  let portNumber ← numberOr vars maxWord16 "HTTP_PORT" "8087"
  let nodeHost ← required vars "COSMOS_GRPC_ADDR"
  let restHost ← required vars "COSMOS_LCD_ADDR"
  let maximumHeights ← numberOr vars maxWord64 "MAXIMUM_HEIGHTS_TO_GET" "10000"
  let requestsPerSecond ← numberOr vars maxWord32 "REQUESTS_PER_SECOND" "33"
  let workers ← numberOr vars maxWord64 "WORKERS" "10"
  let blockLimit ← numberOr vars maxWord64 "TIMEOUT_BLOCK_CALL" "30"
  let searchLimit ← numberOr vars maxWord64 "TIMEOUT_SEARCH_TX_CALL" "10"
  let taskLimit ← numberOr vars maxWord64 "TASK_TIMEOUT" "600"
  let cacheCapacity ← numberOr vars maxWord64 "BLOCK_CACHE_CAPACITY" "400"
  let logLevel ← LogLevel.read (vars.valueOr "LOG_LEVEL" "info")
  return {
    stage := stage
    serverHost := vars.valueOr "ADDRESS" "0.0.0.0"
    portNumber := portNumber
    nodeHost := nodeHost
    restHost := restHost
    apiKey := vars.valueOr "DATAHUB_KEY" ""
    chainId := vars.valueOr "CHAIN_ID" "cosmoshub-4"
    maximumHeights := maximumHeights
    requestsPerSecond := requestsPerSecond
    workers := workers
    blockLimit := blockLimit
    searchLimit := searchLimit
    taskLimit := taskLimit
    cacheCapacity := cacheCapacity
    unbondedPool :=
      vars.valueOr "UNBONDED_POOL_ADDRESS" "cosmos1tygms3xhhs3yv487phx3dw4a95jn7t7lpm470r"
    logLevel := logLevel }

/-- The file of variables: its text if there is one. -/
def fileText : Option ByteArray → Except Error String
  | none => .ok ""
  | some bytes => match String.fromUTF8? bytes with
    | some s => .ok s
    | none => .error (.io "stream did not contain valid UTF-8")

/-- The settings of variables and a file that may define more of them. -/
def load (vars : Variables) (file : Option ByteArray) : Except Error Settings := do
  let text ← fileText file
  ofVariables (vars.load text)

/-- Whether the program stops while the definitions of a file are made. -/
def stops (vars : Variables) (file : Option ByteArray) : Bool :=
  match fileText file with
  | .ok text => (vars.load? text).isNone
  | .error _ => false

/-- The settings with which the program starts, if it comes that far. -/
def start? (vars : Variables) (file : Option ByteArray) : Option (Except Error Settings) :=
  if stops vars file then none else some (load vars file)

end Settings

end ChainIndexer
