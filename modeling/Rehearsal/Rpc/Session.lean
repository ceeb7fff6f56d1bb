import Rehearsal.Rpc.Handler
import Rehearsal.Visit

/-!
# Sessions

A session is a service with the calls that sleep in it.  It meets one event after another, each at
readings of the clocks of which nothing is assumed: a new call, or a sleeping call that goes on.  Of
the service itself an event asks one call at most (`Session.call?`); what else it does is to read
bytes, to wait and to write bytes.
-/

namespace Rehearsal.Rpc

open Message
open Wire (Bytes)

/-- What a session meets. -/
inductive Event where
  | call (candidates : List String) (path : String) (body : Bytes) (halfClosed : Bool)
  /-- The sleeping call at a position goes on. -/
  | resume (position : Nat)

/-- An event with the readings of the clocks at which it comes. -/
structure Occasion where
  moment : Moment
  event : Event

/-- A service and the calls that sleep in it, in the order in which they fell asleep. -/
structure Session where
  service : Service
  asleep : List Suspended := []

/-- The calls that a progress leaves asleep. -/
def Progress.asleep? : Progress → Option Suspended
  | .answered _ => none
  | .asleep _ call => some call

namespace Session

/-- What becomes of a session in which a call has come this far and those calls have been asleep
before. -/
def proceed (asleep : List Suspended) (result : Progress × Service) : Option Progress × Session :=
  (some result.1, ⟨result.2, asleep ++ result.1.asleep?.toList⟩)

/-- How far an event brings its call, and the session afterwards.  Nothing comes of an event for a
call that does not sleep. -/
def meet (session : Session) (occasion : Occasion) : Option Progress × Session :=
  match occasion.event with
  | .call candidates path body halfClosed =>
      proceed session.asleep
        (handle session.service occasion.moment candidates path body halfClosed)
  | .resume position =>
      match session.asleep[position]? with
      | none => (none, session)
      | some call =>
          proceed (session.asleep.eraseIdx position) (call.resume session.service occasion.moment)

section

variable {session : Session} (moment : Moment)

theorem meet_call (candidates : List String) (path : String) (body : Bytes) (halfClosed : Bool) :
    session.meet ⟨moment, .call candidates path body halfClosed⟩ =
      proceed session.asleep
        (handle session.service moment candidates path body halfClosed) := rfl

theorem meet_resume_of_none {position : Nat} (h : session.asleep[position]? = none) :
    session.meet ⟨moment, .resume position⟩ = (none, session) := by
  simp only [meet, h]

theorem meet_resume_of_some {position : Nat} {call : Suspended}
    (h : session.asleep[position]? = some call) :
    session.meet ⟨moment, .resume position⟩ =
      proceed (session.asleep.eraseIdx position) (call.resume session.service moment) := by
  simp only [meet, h]

end

def after : Session → List Occasion → Session
  | session, [] => session
  | session, occasion :: rest => after (session.meet occasion).2 rest

/-- How far each event brings its call. -/
def answers : Session → List Occasion → List (Option Progress)
  | _, [] => []
  | session, occasion :: rest =>
      (session.meet occasion).1 :: answers (session.meet occasion).2 rest

end Session

/-! ## What is asked of the service -/

/-- The request in a body, if there is one. -/
def request? (α : Type) [Wire.Message α] (body : Bytes) : Option α :=
  (Feed.ofBody α body true).single.toOption

/-- The call of the service that a method makes for a body. -/
def Method.call? (method : Method) (body : Bytes) : Option Call :=
  match method with
  | .setupRetry =>
      (request? SetupRetryRequest body).map fun request =>
        .setupRetry (request.responses.map (·.toStatus))
  | .retry => (request? RetryId body).map fun request => .retry request.id
  | .longrunning => do
      let request ← request? LongrunningRequest body
      (operationSpec request).toOption.map .start
  | .pagination =>
      (request? PaginationRequest body).map fun request => .paginate (pageRequest request)
  | .listOperations =>
      (request? ListOperationsRequest body).map fun request =>
        .list request.pageSize request.pageToken
  | .getOperation => (request? OperationRequest body).map fun request => .get request.name
  | .deleteOperation => (request? OperationRequest body).map fun request => .delete request.name
  | .cancelOperation => (request? OperationRequest body).map fun request => .cancel request.name
  | .waitOperation => do
      let request ← request? WaitOperationRequest body
      (request.timeout.mapM (Duration.toDelay "timeout")).toOption.map fun _ => .get request.name
  | _ => none

/-- The call of the service that is made when a sleeping call goes on. -/
def Suspended.call? : Suspended → Option Call
  | .delayed _ => none
  | .waiting waiter => some (.get waiter.name)

namespace Session

/-- The call of the service that an event makes. -/
def call? (session : Session) (occasion : Occasion) : Option Call :=
  match occasion.event with
  | .call _ path body _ => (Method.ofPath? path).bind (·.call? body)
  | .resume position => session.asleep[position]?.bind (·.call?)

/-- The visit of the service that an event amounts to. -/
def visit? (session : Session) (occasion : Occasion) : Option Visit :=
  (session.call? occasion).map fun call =>
    { now := occasion.moment.clock
      call
      candidates :=
        match occasion.event with
        | .call candidates .. => candidates
        | .resume _ => [] }

theorem call?_call (session : Session) (moment : Moment) (candidates : List String)
    (method : Method) (body : Bytes) (halfClosed : Bool) :
    session.call? ⟨moment, .call candidates method.path body halfClosed⟩ = method.call? body := by
  simp only [call?, Method.ofPath?_path, Option.bind_some]

theorem visit?_call (session : Session) (moment : Moment) (candidates : List String)
    {method : Method} {body : Bytes} {call : Call} (h : method.call? body = some call)
    (halfClosed : Bool) :
    session.visit? ⟨moment, .call candidates method.path body halfClosed⟩ =
      some { now := moment.clock, call, candidates } := by
  simp only [visit?, call?_call, h, Option.map_some]

/-- The visits of the service that the events amount to. -/
def visits : Session → List Occasion → List Visit
  | _, [] => []
  | session, occasion :: rest =>
      (session.visit? occasion).toList ++ visits (session.meet occasion).2 rest

end Session

end Rehearsal.Rpc
