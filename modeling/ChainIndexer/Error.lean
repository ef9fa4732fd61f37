import ChainIndexer.Text.Numeral
import ChainIndexer.Amount.Basic
import ChainIndexer.Wire.Varint
import ChainIndexer.Url.Fault

/-
  Errors, their wording, and which of them are worth another attempt.

  An error is transient when the same call may succeed later: a limit of time that passed, a request
  that timed out, a server that failed, a node that is not available. Context around an error
  changes its wording and keeps its nature.
-/

namespace ChainIndexer

open Text

/-- The outcome that a node reports for a call. -/
inductive StatusCode where
  | ok
  | cancelled
  | unknown
  | invalidArgument
  | deadlineExceeded
  | notFound
  | alreadyExists
  | permissionDenied
  | resourceExhausted
  | failedPrecondition
  | aborted
  | outOfRange
  | unimplemented
  | internal
  | unavailable
  | dataLoss
  | unauthenticated
  deriving DecidableEq

namespace StatusCode

/-- The name of a code. -/
def name : StatusCode → String
  | ok => "Ok"
  | cancelled => "Cancelled"
  | unknown => "Unknown"
  | invalidArgument => "InvalidArgument"
  | deadlineExceeded => "DeadlineExceeded"
  | notFound => "NotFound"
  | alreadyExists => "AlreadyExists"
  | permissionDenied => "PermissionDenied"
  | resourceExhausted => "ResourceExhausted"
  | failedPrecondition => "FailedPrecondition"
  | aborted => "Aborted"
  | outOfRange => "OutOfRange"
  | unimplemented => "Unimplemented"
  | internal => "Internal"
  | unavailable => "Unavailable"
  | dataLoss => "DataLoss"
  | unauthenticated => "Unauthenticated"

/-- All codes. -/
def all : List StatusCode :=
  [ok, cancelled, unknown, invalidArgument, deadlineExceeded, notFound, alreadyExists,
   permissionDenied, resourceExhausted, failedPrecondition, aborted, outOfRange, unimplemented,
   internal, unavailable, dataLoss, unauthenticated]

/-- The code of a name. -/
def ofName? (s : String) : Option StatusCode :=
  all.find? (·.name == s)

end StatusCode

/-- What can go wrong. -/
inductive Error where
  | io (text : String)
  | url (cause : UrlFault)
  | number (cause : NumeralFault)
  | elapsed
  | missingField (text : String)
  | configuration (text : String)
  | json
  | task (text : String)
  | wire (cause : Wire.Fault)
  | narrowing (cause : NumeralFault)
  | note (text : String)
  | context (text : String) (source : Error)
  | request (timedOut : Bool)
  | transport
  | status (code : StatusCode) (text : String)
  | malformedAmount (text : String)
  | notExpected (text : String)
  | unknownMessage (text : String)
  | typeUrl (text : String)
  | refused (status : Nat) (text : String)
  | range (height : Nat) (source : Error)
  | cancelled
  deriving DecidableEq

namespace Error

/-- The wording of an error. -/
def message : Error → String
  | io text => text
  | url cause => cause.message
  | number cause => cause.message
  | elapsed => "deadline has elapsed"
  | missingField text => "Field not exists: " ++ text
  | configuration text => "Configuration error: " ++ text
  | json => "invalid document"
  | task text => "Task message error: " ++ text
  | wire cause => cause.message
  | narrowing cause => cause.message
  | note text => text
  | context text _ => text
  | request true => "request timed out"
  | request false => "request failed"
  | transport => "transport error"
  | status code text => "status: " ++ code.name ++ ", message: " ++ text
  | malformedAmount text => "Malformed amount: " ++ text
  | notExpected text => "Not expected type: " ++ text
  | unknownMessage text => "Unknown message type: " ++ text
  | typeUrl text => "TypeURL is not in a recognized format: " ++ text
  | refused answer text => "Upstream responded with status " ++ answer.repr ++ ": " ++ text
  | range height source => "Error fetching height " ++ height.repr ++ ": " ++ source.message
  | cancelled => "Request cancelled"

/-- Whether another attempt against the same endpoint may succeed. -/
def isRetryable : Error → Bool
  | elapsed => true
  | request timedOut => timedOut
  | refused answer _ => 500 ≤ answer
  | status code _ => code == .deadlineExceeded || code == .unavailable
  | context _ source => source.isRetryable
  | _ => false

/-- A malformed amount. A fraction that is too long does not fit its exponent. -/
def ofAmount : Amount.Fault → Error
  | .fractionTooLong => .narrowing .tooLarge
  | fault => .malformedAmount fault.message

end Error

end ChainIndexer
