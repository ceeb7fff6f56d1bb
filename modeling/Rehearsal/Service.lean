import Rehearsal.Operation.Book
import Rehearsal.Paging.Page
import Rehearsal.Retry

/-!
# The service

The state of one service: its settings, the retry scripts and the operations.  Services share
nothing.  `Service.perform` runs one call at given readings of the clock; the calls that create
something draw its identifier from a list of candidates.
-/

namespace Rehearsal

open Time (Instant)
open Paging (Page PageRequest paginate)

/-- The state of a service. -/
structure Service where
  settings : Settings := {}
  retries : RetryBook := {}
  operations : OperationBook := {}
  deriving Inhabited

/-- A call to the service. -/
inductive Call where
  | setupRetry (responses : List Status)
  | retry (id : String)
  | start (spec : OperationSpec)
  | get (name : String)
  | list (pageSize : Int32) (pageToken : String)
  | cancel (name : String)
  | delete (name : String)
  | paginate (request : PageRequest)
  deriving DecidableEq, Repr

/-- Whether a call only looks at operations. -/
def Call.isLook : Call → Bool
  | .get _ | .list .. => true
  | _ => false

/-- Whether a call can start an operation. -/
def Call.isStart : Call → Bool
  | .start _ => true
  | _ => false

/-- Whether a call can remove an operation. -/
def Call.isDelete : Call → Bool
  | .delete _ => true
  | _ => false

/-- What a call answers when it succeeds. -/
inductive Answer where
  /-- Nothing to report. -/
  | done
  /-- The identifier of a new script. -/
  | script (id : String)
  | operation (snapshot : Snapshot)
  | operations (page : OperationPage)
  | page (page : Page)
  /-- No candidate for a name was free; nothing has happened. -/
  | noName
  deriving DecidableEq, Repr

namespace Service

/-- Runs a call at a reading of the clock.  Only a list takes `later` ones too. -/
def perform (service : Service) (now : Instant) (candidates : List String) (call : Call)
    (later : List Instant := []) : Except ServiceError Answer × Service :=
  match call with
  | .setupRetry responses =>
      match service.retries.setup responses candidates with
      | some (id, retries) => (.ok (.script id), { service with retries })
      | none => (.ok .noName, service)
  | .retry id =>
      let (result, retries) := service.retries.attempt id
      (result.map fun _ => .done, { service with retries })
  | .start spec =>
      match service.operations.start now spec candidates with
      | some (snapshot, operations) => (.ok (.operation snapshot), { service with operations })
      | none => (.ok .noName, service)
  | .get name =>
      let (result, operations) := service.operations.get now name
      (result.map .operation, { service with operations })
  | .list pageSize pageToken =>
      let (result, operations) := service.operations.list now pageSize pageToken later
      (result.map .operations, { service with operations })
  | .cancel name =>
      let (result, operations) := service.operations.cancel now name
      (result.map .operation, { service with operations })
  | .delete name =>
      let (result, operations) := service.operations.delete name
      (result.map fun _ => .done, { service with operations })
  | .paginate request => ((paginate request service.settings.pageSize).map .page, service)

end Service

end Rehearsal
