import Rehearsal.Status

/-!
# Errors of the service

Why a call is refused (`ServiceError`), the text each cause is reported with, and the status under
which it reaches an RPC caller (`RpcError`).  All causes but the last are found by the service
itself; the last hands the caller the very failure it asked for.
-/

namespace Rehearsal

/-- Why a call fails. -/
inductive ServiceError where
  | retryNotFound (id : String)
  /-- All statuses scripted for the id have been replayed. -/
  | retryExhausted (id : String) (attempts : Nat)
  | operationNotFound (name : String)
  | invalidPageToken (token reason : String)
  | invalidArgument (field reason : String)
  /-- The failure that the caller asked for. -/
  | scripted (status : Status)
  deriving DecidableEq, Repr

/-- A failed RPC as its caller sees it. -/
structure RpcError where
  code : Code
  message : String
  deriving DecidableEq, Repr

namespace ServiceError

/-- The text of an error. -/
def message : ServiceError → String
  | retryNotFound id => s!"Retry id '{id}' not found"
  | retryExhausted id attempts =>
      s!"Retry id '{id}' has no responses left after {attempts} attempts"
  | operationNotFound name => s!"Operation '{name}' not found"
  | invalidPageToken token reason => s!"Invalid page token '{token}': {reason}"
  | invalidArgument field reason => s!"Invalid argument '{field}': {reason}"
  | scripted status => status.message

/-- Whether the error says that something named by the caller does not exist. -/
def isNotFound : ServiceError → Bool
  | retryNotFound _ | operationNotFound _ => true
  | _ => false

/-- Whether the request itself is at fault, as opposed to a failure that was asked for. -/
def isClientError : ServiceError → Bool
  | scripted _ => false
  | _ => true

/-- The code under which an RPC reports the error. -/
def rpcCode : ServiceError → Code
  | retryNotFound _ | operationNotFound _ => .notFound
  | retryExhausted .. => .outOfRange
  | invalidPageToken .. | invalidArgument .. => .invalidArgument
  | scripted status => status.kind

/-- The error as an RPC reports it. -/
def toRpc (error : ServiceError) : RpcError := ⟨error.rpcCode, error.message⟩

end ServiceError

end Rehearsal
