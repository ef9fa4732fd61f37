import ChainIndexer.Error
import ChainIndexer.Json.Value

/-
  Tasks, and the responses that answer them.

  A task has one of seven types. It is answered by a stream of responses, numbered from 0, of which
  the last one is final and says that the stream ends.
-/

namespace ChainIndexer

/-- What a task asks for. -/
inductive TaskType where
  | transactions
  | block
  | reward
  | accountBalance
  | accountDelegations
  | latestMark
  | latestData
  deriving DecidableEq

namespace TaskType

/-- The name of a type. -/
def name : TaskType → String
  | transactions => "GetTransactions"
  | block => "GetBlock"
  | reward => "GetReward"
  | accountBalance => "GetAccountBalance"
  | accountDelegations => "GetAccountDelegations"
  | latestMark => "GetLatestMark"
  | latestData => "GetLatestData"

/-- All types. -/
def all : List TaskType :=
  [transactions, block, reward, accountBalance, accountDelegations, latestMark, latestData]

/-- The type of a name. -/
def ofName (s : String) : Except Error TaskType :=
  match all.find? (·.name == s) with
  | some t => .ok t
  | none => .error (.io ("There is no such handler " ++ s))

theorem mem_all (t : TaskType) : t ∈ all := by cases t <;> simp [all]

end TaskType

/-- What a response carries. -/
inductive ResponseType where
  | block
  | transaction
  | reward
  | accountBalance
  | delegations
  | latestMark
  | error
  deriving DecidableEq

namespace ResponseType

/-- The name of a type. -/
def name : ResponseType → String
  | block => "Block"
  | transaction => "Transaction"
  | reward => "Reward"
  | accountBalance => "AccountBalance"
  | delegations => "Delegations"
  | latestMark => "LatestMark"
  | error => "Error"

/-- All types, in their usual order. -/
def all : List ResponseType :=
  [block, transaction, reward, accountBalance, delegations, latestMark, error]

end ResponseType

/-- A request for a task. -/
structure TaskRequest where
  id : String
  kind : String
  payload : Json

/-- A response to a task. -/
structure TaskResponse where
  id : String
  kind : String
  order : Nat
  payload : Json
  error : Option String
  isFinal : Bool

/-- The type of the response that ends a stream. -/
def endKind : String := "END"

end ChainIndexer
