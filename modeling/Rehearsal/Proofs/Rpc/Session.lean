import Rehearsal.Proofs.Retry.Alike
import Rehearsal.Rpc.Session

/-!
# An RPC is at most one call of the service

What an RPC answers depends on the service only through the answer to one call, and it leaves the
service as that call does; an RPC that makes no call neither reads nor changes the service
(`handle_asks`).  The same is true of a sleeping call that goes on (`Suspended.resume_asks`).  So a
session does to its service what its visits do (`Session.service_after`).
-/

namespace Rehearsal.Rpc

open Message
open Time (Instant)
open Wire (Bytes)

/-- What an RPC reads in the answer of the call that it has made. -/
def readAnswer {α : Type} (read : Answer → Option α) :
    Except ServiceError Answer → Except RpcError α
  | .error error => .error error.toRpc
  | .ok answer =>
      match read answer with
      | some result => .ok result
      | none => .error ⟨.internal, "no free name"⟩

theorem perform_eq {α : Type} (service : Service) (now : Instant) (candidates : List String)
    (call : Call) (read : Answer → Option α) :
    perform service now candidates call read =
      (readAnswer read (service.perform now candidates call).1,
        (service.perform now candidates call).2) := by
  unfold perform readAnswer
  rcases service.perform now candidates call with ⟨error | answer, later⟩
  · rfl
  · dsimp only
    cases read answer <;> rfl

/-- A run asks the service for one call and for nothing else: it depends on the service only through
the answer, and leaves the service as the call does. -/
def Asks (run : Service → Progress × Service) (moment : Moment) (candidates : List String) :
    Option Call → Prop
  | none => ∃ progress, ∀ service, run service = (progress, service)
  | some call =>
      ∃ reply : Except ServiceError Answer → Progress, ∀ service,
        run service = (reply (service.perform moment.clock candidates call).1,
          (service.perform moment.clock candidates call).2)

namespace Asks

variable {run : Service → Progress × Service} {moment : Moment} {candidates : List String}
  {call : Option Call}

/-- What a run leaves of the service. -/
theorem after (h : Asks run moment candidates call) (service : Service) :
    (run service).2 =
      service.after (call.map fun call => Visit.mk moment.clock call candidates []).toList := by
  cases call with
  | none =>
      obtain ⟨progress, hrun⟩ := h
      rw [hrun]
      rfl
  | some call =>
      obtain ⟨reply, hrun⟩ := h
      rw [hrun]
      rfl

/-- On services that are alike, a run comes equally far. -/
theorem alike (h : Asks run moment candidates call) {first second : Service}
    (halike : first.Alike second) :
    (run first).1 = (run second).1 ∧ (run first).2.Alike (run second).2 := by
  cases call with
  | none =>
      obtain ⟨progress, hrun⟩ := h
      rw [hrun, hrun]
      exact ⟨rfl, halike⟩
  | some call =>
      obtain ⟨reply, hrun⟩ := h
      obtain ⟨hanswer, hafter⟩ := halike.perform moment.clock candidates call
      rw [hrun, hrun]
      exact ⟨congrArg reply hanswer, hafter⟩

end Asks

section

variable {moment : Moment} {candidates : List String}

/-- What a waiter makes of the answer to its look. -/
def lookReply (waiter : Waiter) (timer : Nat) : Except ServiceError Answer → Progress
  | .error error => waitProgress waiter (.finished (.error error))
  | .ok (.operation snapshot) => waitProgress waiter (waiter.decide timer snapshot)
  | .ok _ => .answered ⟨[], .closed⟩

theorem lookOnce_asks (moment : Moment) (candidates : List String) (waiter : Waiter) :
    Asks (lookOnce · moment waiter) moment candidates (some (.get waiter.name)) := by
  refine ⟨lookReply waiter moment.timer, fun service => ?_⟩
  cases hget : service.operations.get moment.clock waiter.name with
  | mk result later =>
      simp only [lookOnce, Waiter.look, Service.perform, hget]
      cases result <;> rfl

/-- A sleeping call that goes on asks the service for one call at most. -/
theorem Suspended.resume_asks (call : Suspended) (moment : Moment) (candidates : List String) :
    Asks (call.resume · moment) moment candidates call.call? := by
  cases call with
  | delayed result => exact ⟨_, fun _ => rfl⟩
  | waiting waiter => exact lookOnce_asks moment candidates waiter

theorem toOption_eq_some_iff {ε α : Type} {result : Except ε α} {a : α} :
    result.toOption = some a ↔ result = .ok a := by
  cases result <;> simp [Except.toOption]

section

variable {α β : Type} [Wire.Message α] [Wire.Message β] {body : Bytes}

theorem request?_eq_none_iff :
    request? α body = none ↔ ∃ error, (Feed.ofBody α body true).single = .error error := by
  unfold request?
  cases (Feed.ofBody α body true).single <;> simp [Except.toOption]

theorem request?_eq_some_iff {request : α} :
    request? α body = some request ↔ (Feed.ofBody α body true).single = .ok request :=
  toOption_eq_some_iff

theorem unary_ignores (handler : α → Except RpcError β) :
    Asks (fun service => unary service body fun request => (handler request, service)) moment
      candidates none := by
  cases hsingle : (Feed.ofBody α body true).single with
  | error error =>
      refine ⟨.answered (.ofResult (.error error : Except RpcError β)), fun service => ?_⟩
      simp only [unary, hsingle]
  | ok request =>
      refine ⟨.answered (.ofResult (handler request)), fun service => ?_⟩
      simp only [unary, hsingle]

theorem unary_asks_none {handler : Service → α → Except RpcError β × Service}
    (h : request? α body = none) :
    Asks (fun service => unary service body (handler service)) moment candidates none := by
  obtain ⟨error, hsingle⟩ := request?_eq_none_iff.1 h
  exact ⟨_, fun service => by simp only [unary, hsingle]; rfl⟩

theorem unary_asks {handler : Service → α → Except RpcError β × Service} {call : α → Call}
    {read : Answer → Option β}
    (hhandler : ∀ service request, handler service request =
      perform service moment.clock candidates (call request) read) :
    Asks (fun service => unary service body (handler service)) moment candidates
      ((request? α body).map call) := by
  cases hrequest : request? α body with
  | none => exact unary_asks_none hrequest
  | some request =>
      refine ⟨fun answer => .answered (.ofResult (readAnswer read answer)), fun service => ?_⟩
      simp only [unary, request?_eq_some_iff.1 hrequest, hhandler, perform_eq]

theorem longrunning_asks :
    Asks (fun service => unary service body (longrunning service moment.clock candidates)) moment
      candidates (Method.longrunning.call? body) := by
  cases hrequest : request? LongrunningRequest body with
  | none =>
      rw [show Method.longrunning.call? body = none by simp only [Method.call?, hrequest]; rfl]
      exact unary_asks_none hrequest
  | some request =>
      have hsingle := request?_eq_some_iff.1 hrequest
      have hcall : Method.longrunning.call? body =
          (operationSpec request).toOption.map .start := by
        simp only [Method.call?, hrequest, Option.bind_eq_bind, Option.bind_some]
      rw [hcall]
      cases hspec : operationSpec request with
      | error error =>
          show Asks _ _ _ none
          refine ⟨.answered (.ofResult (.error error : Except RpcError OperationMessage)), ?_⟩
          intro service
          simp only [unary, hsingle, longrunning, hspec]
      | ok spec =>
          show Asks _ _ _ (some (.start spec))
          refine ⟨fun answer => .answered (.ofResult (readAnswer readOperation answer)), ?_⟩
          intro service
          simp only [unary, hsingle, longrunning, hspec, perform_eq]

theorem waitOperation_asks :
    Asks (fun service => sleepy service body (waitOperation service moment)) moment candidates
      (Method.waitOperation.call? body) := by
  cases hrequest : request? WaitOperationRequest body with
  | none =>
      obtain ⟨error, hsingle⟩ := request?_eq_none_iff.1 hrequest
      rw [show Method.waitOperation.call? body = none by simp only [Method.call?, hrequest]; rfl]
      exact ⟨.answered ⟨[], .failed error⟩, fun service => by simp only [sleepy, hsingle]⟩
  | some request =>
      have hsingle := request?_eq_some_iff.1 hrequest
      have hcall : Method.waitOperation.call? body =
          (request.timeout.mapM (Duration.toDelay "timeout")).toOption.map fun _ =>
            .get request.name := by
        simp only [Method.call?, hrequest, Option.bind_eq_bind, Option.bind_some]
      rw [hcall]
      cases htimeout : request.timeout.mapM (Duration.toDelay "timeout") with
      | error error =>
          show Asks _ _ _ none
          refine ⟨.answered (.ofResult (.error error : Except RpcError OperationMessage)), ?_⟩
          intro service
          simp only [sleepy, hsingle, waitOperation, htimeout]
      | ok timeout =>
          show Asks _ _ _ (some (.get request.name))
          obtain ⟨reply, hreply⟩ :=
            lookOnce_asks moment candidates (.begin request.name timeout moment)
          refine ⟨reply, fun service => ?_⟩
          simp only [sleepy, hsingle, waitOperation, htimeout]
          exact hreply service

end

/-- An RPC asks the service for one call at most. -/
theorem handle_asks (moment : Moment) (candidates : List String) (path : String) (body : Bytes)
    (halfClosed : Bool) :
    Asks (handle · moment candidates path body halfClosed) moment candidates
      ((Method.ofPath? path).bind (·.call? body)) := by
  unfold handle
  cases Method.ofPath? path with
  | none => exact ⟨_, fun _ => rfl⟩
  | some method =>
      cases method with
      | setupRetry | retry | pagination | listOperations | getOperation | deleteOperation
        | cancelOperation => exact unary_asks fun _ _ => rfl
      | longrunning => exact longrunning_asks
      | waitOperation => exact waitOperation_asks
      | chat => exact ⟨_, fun _ => rfl⟩
      | echo | parameterFlattening | resourceName => exact unary_ignores _
      | expand =>
          show Asks _ _ _ none
          cases hsingle : (Feed.ofBody EchoRequest body true).single with
          | error error => exact ⟨_, fun _ => rfl⟩
          | ok request => exact ⟨_, fun _ => rfl⟩
      | collect =>
          show Asks _ _ _ none
          cases hresult : collect ((Feed.ofBody EchoRequest body halfClosed).map toItem) with
          | none => exact ⟨_, fun _ => rfl⟩
          | some result => exact ⟨_, fun _ => rfl⟩
      | timeout =>
          show Asks _ _ _ none
          unfold sleepy
          cases hsingle : (Feed.ofBody TimeoutRequest body true).single with
          | error error => exact ⟨_, fun _ => rfl⟩
          | ok request => exact ⟨_, fun _ => rfl⟩

end

/-! ## Sessions -/

namespace Session

theorem service_meet (session : Session) (occasion : Occasion) :
    (session.meet occasion).2.service =
      session.service.after (session.visit? occasion).toList := by
  obtain ⟨moment, event⟩ := occasion
  cases event with
  | call candidates path body halfClosed =>
      exact (handle_asks moment candidates path body halfClosed).after session.service
  | resume position =>
      simp only [meet, visit?, call?]
      cases session.asleep[position]? with
      | none => rfl
      | some call => exact (call.resume_asks moment []).after session.service

/-- A session does to its service what its visits do. -/
theorem service_after (session : Session) (occasions : List Occasion) :
    (session.after occasions).service = session.service.after (session.visits occasions) := by
  induction occasions generalizing session with
  | nil => rfl
  | cons occasion rest ih =>
      rw [after, ih, service_meet, visits, Service.after_append]

/-- Both sessions have the same calls asleep, and their services are alike. -/
structure Alike (first second : Session) : Prop where
  service : first.service.Alike second.service
  asleep : first.asleep = second.asleep

theorem proceed_alike {first second : Progress × Service} (asleep : List Suspended)
    (h : first.1 = second.1 ∧ first.2.Alike second.2) :
    (proceed asleep first).1 = (proceed asleep second).1 ∧
      (proceed asleep first).2.Alike (proceed asleep second).2 := by
  unfold proceed
  rw [h.1]
  exact ⟨rfl, h.2, rfl⟩

theorem Alike.meet {first second : Session} (h : first.Alike second) (occasion : Occasion) :
    (first.meet occasion).1 = (second.meet occasion).1 ∧
      (first.meet occasion).2.Alike (second.meet occasion).2 := by
  obtain ⟨moment, event⟩ := occasion
  cases event with
  | call candidates path body halfClosed =>
      simp only [Session.meet, h.asleep]
      apply proceed_alike
      exact (handle_asks moment candidates path body halfClosed).alike h.service
  | resume position =>
      simp only [Session.meet, h.asleep]
      cases second.asleep[position]? with
      | none => exact ⟨rfl, h⟩
      | some call =>
          apply proceed_alike
          exact (call.resume_asks moment []).alike h.service

/-- Sessions that are alike answer everything alike. -/
theorem Alike.answers {first second : Session} (h : first.Alike second)
    (occasions : List Occasion) : first.answers occasions = second.answers occasions := by
  induction occasions generalizing first second with
  | nil => rfl
  | cons occasion rest ih =>
      obtain ⟨hprogress, hafter⟩ := h.meet occasion
      rw [Session.answers, Session.answers, hprogress, ih hafter]

end Session

end Rehearsal.Rpc
