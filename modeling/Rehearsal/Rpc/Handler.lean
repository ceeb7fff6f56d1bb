import Rehearsal.Message.Operation
import Rehearsal.Message.Stateless
import Rehearsal.Rpc.Method
import Rehearsal.Rpc.Stream
import Rehearsal.Rpc.Wait
import Rehearsal.Service

/-!
# Handlers

What each method does with its request.  A handler answers at once or goes to sleep (`Progress`);
`Suspended.resume` continues a call that has slept.  `Service.handle` picks the handler for a path
and takes care of the frames on both sides.
-/

namespace Rehearsal.Rpc

open Message
open Paging (Page PageRequest)
open Time (Instant)
open Wire (Bytes)

/-! ## From requests to calls -/

def configured (error : Option StatusMessage) : Option Status := error.map (·.toStatus)

def toItem (request : EchoRequest) : EchoItem := ⟨request.content, configured request.error⟩

def pageRequest (request : PaginationRequest) : PageRequest where
  maxResponse := request.maxResponse
  pageSize := request.pageSize
  pageToken := request.pageToken
  pageSizeOverride := request.pageSizeOverride

def pageResponse (page : Page) : PaginationResponse where
  responses := page.responses.map Int32.ofNat
  nextPageToken := page.nextPageToken

/-- What an operation is to do.  A completion time that is no instant is refused. -/
def operationSpec (request : LongrunningRequest) : Except RpcError OperationSpec := do
  let completion ← request.completionTime.mapM (·.toInstant)
  return {
    completion
    error := configured request.error
    success := request.success.map (·.content) }

/-! ## Calls that answer at once -/

def echo (request : EchoRequest) : Except RpcError EchoResponse :=
  match (toItem request).echo with
  | .ok content => .ok { content }
  | .error error => .error error.toRpc

/-- Runs a call of the service and reads its answer. -/
def perform {α : Type} (service : Service) (now : Instant) (candidates : List String) (call : Call)
    (read : Answer → Option α) : Except RpcError α × Service :=
  match service.perform now candidates call with
  | (.error error, later) => (.error error.toRpc, later)
  | (.ok answer, later) =>
      match read answer with
      | some result => (.ok result, later)
      | none => (.error ⟨.internal, "no free name"⟩, later)

def readDone : Answer → Option Nothing
  | .done => some {}
  | _ => none

def readOperation : Answer → Option OperationMessage
  | .operation snapshot => some (.ofSnapshot snapshot)
  | _ => none

def setupRetry (service : Service) (now : Instant) (candidates : List String)
    (request : SetupRetryRequest) : Except RpcError RetryId × Service :=
  perform service now candidates (.setupRetry (request.responses.map (·.toStatus))) fun
    | .script id => some { id }
    | _ => none

def retry (service : Service) (now : Instant) (request : RetryId) :
    Except RpcError Nothing × Service := perform service now [] (.retry request.id) readDone

def longrunning (service : Service) (now : Instant) (candidates : List String)
    (request : LongrunningRequest) : Except RpcError OperationMessage × Service :=
  match operationSpec request with
  | .error error => (.error error, service)
  | .ok spec => perform service now candidates (.start spec) readOperation

def pagination (service : Service) (now : Instant) (request : PaginationRequest) :
    Except RpcError PaginationResponse × Service :=
  perform service now [] (.paginate (pageRequest request)) fun
    | .page page => some (pageResponse page)
    | _ => none

def listOperations (service : Service) (now : Instant) (request : ListOperationsRequest) :
    Except RpcError ListOperationsResponse × Service :=
  perform service now [] (.list request.pageSize request.pageToken) fun
    | .operations page =>
        some
          { operations := page.operations.map .ofSnapshot, nextPageToken := page.nextPageToken }
    | _ => none

def getOperation (service : Service) (now : Instant) (request : OperationRequest) :
    Except RpcError OperationMessage × Service :=
  perform service now [] (.get request.name) readOperation

def cancelOperation (service : Service) (now : Instant) (request : OperationRequest) :
    Except RpcError Nothing × Service :=
  perform service now [] (.cancel request.name) fun
    | .operation _ => some {}
    | _ => none

def deleteOperation (service : Service) (now : Instant) (request : OperationRequest) :
    Except RpcError Nothing × Service := perform service now [] (.delete request.name) readDone

/-! ## Calls that may sleep -/

inductive Suspended where
  | delayed (result : Except RpcError TimeoutResponse)
  | waiting (waiter : Waiter)

/-- How far a call has come. -/
inductive Progress where
  | answered (reply : Feed Bytes)
  /-- To be resumed when the timer has reached a reading. -/
  | asleep (wake : Nat) (call : Suspended)

/-- Delays of this many nanoseconds or more are beyond any timer. -/
def timerLimit : Nat := 0x7fffffffffffffff * Time.nanosPerSecond

/-- What a delay beyond any timer is cut down to: thirty years. -/
def longestDelay : Nat := 30 * 365 * 86400 * Time.nanosPerSecond

def timerDelay (delay : Nat) : Nat := if delay < timerLimit then delay else longestDelay

/-- Answers after the delay asked for, if it is one. -/
def timeout (moment : Moment) (request : TimeoutRequest) : Progress :=
  match request.responseDelay.mapM (·.toDelay "response_delay") with
  | .error error => .answered (.ofResult (.error error : Except RpcError TimeoutResponse))
  | .ok delay =>
      .asleep (moment.timer + timerDelay (delay.getD 0)) <| .delayed <|
        match check (configured request.error) with
        | .ok () => .ok (request.success.getD {})
        | .error error => .error error.toRpc

def waitProgress (waiter : Waiter) : WaitStep → Progress
  | .finished result =>
      .answered (.ofResult (result.map OperationMessage.ofSnapshot |>.mapError (·.toRpc)))
  | .asleep wake => .asleep wake (.waiting waiter)

def lookOnce (service : Service) (moment : Moment) (waiter : Waiter) : Progress × Service :=
  let (step, operations) := waiter.look service.operations moment
  (waitProgress waiter step, { service with operations })

/-- Waits for an operation, with a deadline if the request has a timeout. -/
def waitOperation (service : Service) (moment : Moment) (request : WaitOperationRequest) :
    Progress × Service :=
  match request.timeout.mapM (·.toDelay "timeout") with
  | .error error =>
      (.answered (.ofResult (.error error : Except RpcError OperationMessage)), service)
  | .ok timeout => lookOnce service moment (.begin request.name timeout moment)

/-- Continues a call when its time has come. -/
def Suspended.resume (service : Service) (moment : Moment) : Suspended → Progress × Service
  | .delayed result => (.answered (.ofResult result), service)
  | .waiting waiter => lookOnce service moment waiter

/-! ## Dispatch -/

/-- Decodes a single request, runs a handler and encodes its reply. -/
def unary {α β : Type} [Wire.Message α] [Wire.Message β] (service : Service) (body : Bytes)
    (handler : α → Except RpcError β × Service) : Progress × Service :=
  match (Feed.ofBody α body true).single with
  | .error error => (.answered (.ofResult (.error error : Except RpcError β)), service)
  | .ok request =>
      let (result, later) := handler request
      (.answered (.ofResult result), later)

/-- Decodes a single request for a handler that may sleep. -/
def sleepy {α : Type} [Wire.Message α] (service : Service) (body : Bytes)
    (handler : α → Progress × Service) : Progress × Service :=
  match (Feed.ofBody α body true).single with
  | .error error => (.answered ⟨[], .failed error⟩, service)
  | .ok request => handler request

def replies (feed : Feed String) : Progress :=
  .answered (feed.map fun content => Wire.encode ({ content } : EchoResponse))

/-- Runs the method of a path on the bytes of a body.  The sender keeps its side open unless it is
`halfClosed`. -/
def handle (service : Service) (moment : Moment) (candidates : List String) (path : String)
    (body : Bytes) (halfClosed : Bool) : Progress × Service :=
  let now := moment.clock
  match Method.ofPath? path with
  | none => (.answered ⟨[], .failed ⟨.unimplemented, ""⟩⟩, service)
  | some .echo => unary service body fun request => (echo request, service)
  | some .expand =>
      match (Feed.ofBody EchoRequest body true).single with
      | .error error => (.answered ⟨[], .failed error⟩, service)
      | .ok request => (replies (expand (toItem request)), service)
  | some .collect =>
      match collect ((Feed.ofBody EchoRequest body halfClosed).map toItem) with
      | none => (.answered ⟨[], .unfinished⟩, service)
      | some result =>
          (.answered (.ofResult (result.map fun content => ({ content } : EchoResponse))), service)
  | some .chat => (replies (chat ((Feed.ofBody EchoRequest body halfClosed).map toItem)), service)
  | some .timeout => sleepy service body fun request => (timeout moment request, service)
  | some .setupRetry => unary service body (setupRetry service now candidates)
  | some .retry => unary service body (retry service now)
  | some .longrunning => unary service body (longrunning service now candidates)
  | some .pagination => unary service body (pagination service now)
  | some .parameterFlattening =>
      unary service body fun (request : ParameterMessage) => (.ok request, service)
  | some .resourceName =>
      unary service body fun (request : ResourceNameMessage) => (.ok request, service)
  | some .listOperations => unary service body (listOperations service now)
  | some .getOperation => unary service body (getOperation service now)
  | some .deleteOperation => unary service body (deleteOperation service now)
  | some .cancelOperation => unary service body (cancelOperation service now)
  | some .waitOperation => sleepy service body (waitOperation service moment)

end Rehearsal.Rpc
