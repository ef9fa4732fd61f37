import ChainIndexer.Text.Numeral

/-
  The command line.

  There are two commands: `serve`, which is also meant when none is given, and `fetch`, which takes
  the two ends of a range of heights. An argument that begins with a dash is never the value of an
  option. A value is read only when the next option comes or the line ends, so that an argument that
  is not known is reported before a value that is no number.
-/

namespace ChainIndexer

open Text

/-- What the program is asked to do. -/
inductive Command where
  | serve
  | fetch (start stop : Nat)
  deriving DecidableEq

/-- The version of the program. -/
def programVersion : String := "0.4.0"

/-- Why a command line is not carried out. -/
inductive UsageFault where
  | help
  | version
  | unknownCommand
  | unknownArgument
  | repeated
  | missingOption
  | missingValue
  | invalidValue
  | surplusValue
  deriving DecidableEq

namespace UsageFault

/-- How the program is used. -/
def usage : String :=
  "Usage: chain-indexer [serve | fetch --start HEIGHT --end HEIGHT | help]"

/-- What is said about a line. -/
def message : UsageFault → String
  | help => usage
  | version => "chain-indexer " ++ programVersion
  | unknownCommand => "unknown command\n" ++ usage
  | unknownArgument => "unexpected argument\n" ++ usage
  | repeated => "an option is given twice\n" ++ usage
  | missingOption => "an option is missing\n" ++ usage
  | missingValue => "an option has no value\n" ++ usage
  | invalidValue => "a value is no height\n" ++ usage
  | surplusValue => "an option takes no value\n" ++ usage

/-- The exit code: who asks for help or the version gets what was wanted. -/
def exitCode : UsageFault → UInt32
  | help | version => 0
  | _ => 2

end UsageFault

namespace Command

/-! ## Arguments -/

/-- An argument by its form. `shorts` is a dash with letters. -/
inductive Argument where
  | divider
  | long (name : String) (value : Option String)
  | shorts (letters : List Char)
  | plain (text : String)
  deriving DecidableEq

/-- The name of an option in front of an equals sign, and the value behind it. -/
def splitValue (cs : List Char) : Argument :=
  match cs.dropWhile (· != '=') with
  | [] => .long (String.ofList cs) none
  | _ :: value => .long (String.ofList (cs.takeWhile (· != '='))) (some (String.ofList value))

/-- The form of an argument. A single dash is a text. -/
def argument (s : String) : Argument :=
  match s.toList with
  | ['-', '-'] => .divider
  | '-' :: '-' :: cs => splitValue cs
  | '-' :: c :: cs => .shorts (c :: cs)
  | _ => .plain s

/-! ## The options of `fetch` -/

/-- An end of a range. -/
inductive Bound where
  | start
  | stop
  deriving DecidableEq

/-- The option of a name. -/
def Bound.ofName? (name : String) : Option Bound :=
  if name = "start" then some .start else if name = "end" then some .stop else none

/-- What has been read of the options. `pending` is the last option with its value, if that has
come. -/
structure Options where
  start : Option Nat
  stop : Option Nat
  pending : Option (Bound × Option String)

namespace Options

/-- Nothing read. -/
def none : Options := ⟨.none, .none, .none⟩

/-- The number of an option. -/
def get (o : Options) : Bound → Option Nat
  | .start => o.start
  | .stop => o.stop

/-- Sets the number of an option. -/
def set (o : Options) (b : Bound) (n : Nat) : Options :=
  match b with
  | .start => { o with start := some n }
  | .stop => { o with stop := some n }

/-- Reads the value of an option, which may be given once. -/
def put (o : Options) (b : Bound) (value : String) : Except UsageFault Options :=
  if (o.get b).isSome then .error .repeated
  else match readWord maxWord64 value.toList with
    | .ok n => .ok (o.set b n)
    | .error _ => .error .invalidValue

/-- Reads the value of the option that is pending. -/
def settle (o : Options) : Except UsageFault Options :=
  match o.pending with
  | .none => .ok o
  | some (_, .none) => .error .missingValue
  | some (b, some value) => { o with pending := .none }.put b value

/-- The command of the options. -/
def command (o : Options) : Except UsageFault Command := do
  let o ← o.settle
  match o.start, o.stop with
  | some start, some stop => return .fetch start stop
  | _, _ => throw .missingOption

/-- Reads one argument. -/
def read (o : Options) : Argument → Except UsageFault Options
  | .divider => .ok o
  | .long "help" .none => o.settle.bind fun _ => .error .help
  | .long "help" (some _) => .error .surplusValue
  | .long name value =>
    match Bound.ofName? name with
    | .none => .error .unknownArgument
    | some b => do
      let o ← o.settle
      match value with
      | some v => o.put b v
      | .none => return { o with pending := some (b, .none) }
  | .shorts ('h' :: _) => o.settle.bind fun _ => .error .help
  | .shorts _ => .error .unknownArgument
  | .plain s =>
    match o.pending with
    | some (b, .none) => .ok { o with pending := some (b, some s) }
    | _ => .error .unknownArgument

end Options

/-- Reads the arguments of `fetch`. Nothing may stand behind a divider. -/
def readFetch (o : Options) : List String → Except UsageFault Command
  | [] => o.command
  | s :: rest =>
    match argument s, rest with
    | .divider, [] => o.command
    | .divider, _ :: _ => .error .unknownArgument
    | a, rest => (o.read a).bind fun o => readFetch o rest

/-! ## The line -/

/-- Reads the arguments of `serve`. -/
def readServe : List String → Except UsageFault Command
  | [] => .ok .serve
  | s :: rest =>
    match argument s, rest with
    | .divider, [] => .ok .serve
    | .long "help" .none, _ => .error .help
    | .long "help" (some _), _ => .error .surplusValue
    | .shorts ('h' :: _), _ => .error .help
    | _, _ => .error .unknownArgument

/-- The names of the commands. -/
def names : List String :=
  ["serve", "fetch", "help"]

/-- What `help` says about: the program, or a command. -/
def readHelp : List String → UsageFault
  | [] => .help
  | [name] => if name ∈ names then .help else .unknownCommand
  | _ => .unknownCommand

/-- Reads what stands behind a divider, which can only be wrong. -/
def readBehindDivider : List String → Except UsageFault (Option Command)
  | [] => .ok none
  | s :: _ => .error (if s ∈ names then .unknownArgument else .unknownCommand)

/-- The command of a line, if it names one. -/
def read : List String → Except UsageFault (Option Command)
  | [] => .ok none
  | s :: rest =>
    match argument s with
    | .plain "serve" => (readServe rest).map some
    | .plain "fetch" => (readFetch .none rest).map some
    | .plain "help" => .error (readHelp rest)
    | .plain _ => .error .unknownCommand
    | .divider => readBehindDivider rest
    | .long "help" none => .error .help
    | .long "version" none => .error .version
    | .long name _ => .error (if name = "help" ∨ name = "version" then .surplusValue
        else .unknownArgument)
    | .shorts ('h' :: _) => .error .help
    | .shorts ('V' :: _) => .error .version
    | .shorts _ => .error .unknownArgument

end Command

end ChainIndexer
