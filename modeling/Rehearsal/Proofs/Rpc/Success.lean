import Rehearsal.Proofs.Rpc.Call
import Rehearsal.Proofs.Rpc.Session

/-!
# A status that stands for success counts for nothing

Requests that differ only in statuses with the number `0`, whatever these say, get the same answer
and leave the service the same (`handle_of_sameButOk`).  A script keeps such statuses, but nobody
can tell their messages (`setupRetry_of_sameButOk`), so in either case all later calls are answered
alike too (`Session.answers_of_sameButOk`).
-/

namespace Rehearsal

/-! ## Requests without such statuses -/

namespace Message

/-- The status of a request, unless it has the number `0`. -/
def withoutOk (error : Option StatusMessage) : Option StatusMessage :=
  error.filter fun status => status.code != 0

def EchoRequest.withoutOk (request : EchoRequest) : EchoRequest :=
  { request with error := Message.withoutOk request.error }

def TimeoutRequest.withoutOk (request : TimeoutRequest) : TimeoutRequest :=
  { request with error := Message.withoutOk request.error }

def LongrunningRequest.withoutOk (request : LongrunningRequest) : LongrunningRequest :=
  { request with error := Message.withoutOk request.error }

/-- The script with nothing but the number in its statuses with the number `0`. -/
def SetupRetryRequest.withoutOk (request : SetupRetryRequest) : SetupRetryRequest where
  responses := request.responses.map fun status => if status.code = 0 then {} else status

end Message

namespace Rpc

open Message
open Time (Instant)
open Wire (Bytes)

/-- The requests in both bodies are the same once `simplify` has been applied to them. -/
def SameBut {α : Type} [Wire.Message α] (simplify : α → α) (halfClosed : Bool)
    (first second : Bytes) : Prop :=
  (Feed.ofBody α first halfClosed).map simplify = (Feed.ofBody α second halfClosed).map simplify

/-- The requests to a method in both bodies are the same but for statuses with the number `0`. -/
def Method.SameButOk (method : Method) (halfClosed : Bool) (first second : Bytes) : Prop :=
  match method with
  | .echo | .expand => SameBut EchoRequest.withoutOk true first second
  | .collect | .chat => SameBut EchoRequest.withoutOk halfClosed first second
  | .timeout => SameBut TimeoutRequest.withoutOk true first second
  | .longrunning => SameBut LongrunningRequest.withoutOk true first second
  | .setupRetry => SameBut SetupRetryRequest.withoutOk true first second
  | _ => first = second

/-! ## What they ask for -/

theorem failure?_withoutOk (error : Option StatusMessage) :
    Status.failure? (configured (withoutOk error)) = Status.failure? (configured error) := by
  cases error with
  | none => rfl
  | some status =>
      by_cases h : status.code = 0
      · simp [Status.failure?, configured, withoutOk, StatusMessage.toStatus, Status.isOk,
          Option.filter, h]
      · simp [configured, withoutOk, Option.filter, h]

theorem check_withoutOk (error : Option StatusMessage) :
    check (configured (withoutOk error)) = check (configured error) := by
  unfold check
  rw [failure?_withoutOk]

theorem echo_toItem_withoutOk (request : EchoRequest) :
    (toItem request.withoutOk).echo = (toItem request).echo := by
  unfold EchoItem.echo toItem EchoRequest.withoutOk
  rw [check_withoutOk]

theorem chatItems_withoutOk (requests : List EchoRequest) (ending : Ending) :
    chatItems ((requests.map EchoRequest.withoutOk).map toItem) ending =
      chatItems (requests.map toItem) ending := by
  induction requests with
  | nil => rfl
  | cons request rest ih => simp only [List.map_cons, chatItems, echo_toItem_withoutOk, ih]

theorem collectItems_withoutOk (collector : Collector) (requests : List EchoRequest) :
    collectItems collector ((requests.map EchoRequest.withoutOk).map toItem) =
      collectItems collector (requests.map toItem) := by
  induction requests generalizing collector with
  | nil => rfl
  | cons request rest ih =>
      simp only [List.map_cons, collectItems, Collector.push, echo_toItem_withoutOk, ih]

theorem echo_withoutOk (request : EchoRequest) : echo request.withoutOk = echo request := by
  unfold echo
  rw [echo_toItem_withoutOk]

theorem expand_withoutOk (request : EchoRequest) :
    expand (toItem request.withoutOk) = expand (toItem request) := by
  unfold expand toItem EchoRequest.withoutOk
  simp only [check_withoutOk]

theorem timeout_withoutOk (moment : Moment) (request : TimeoutRequest) :
    timeout moment request.withoutOk = timeout moment request := by
  unfold timeout TimeoutRequest.withoutOk
  simp only [check_withoutOk]

/-- An operation that is to fail with a number `0` is to succeed. -/
theorem longrunning_withoutOk (service : Service) (now : Instant) (candidates : List String)
    (request : LongrunningRequest) :
    longrunning service now candidates request.withoutOk =
      longrunning service now candidates request := by
  unfold longrunning operationSpec LongrunningRequest.withoutOk
  dsimp only
  cases request.completionTime.mapM Timestamp.toInstant with
  | error error => rfl
  | ok completion =>
      simp only [bind, Except.bind, pure, Except.pure, perform, Service.perform,
        OperationBook.start, Operation.ofSpec, OperationSpec.outcome, failure?_withoutOk]

theorem toStatus_withoutOk (status : StatusMessage) :
    (if status.code = 0 then ({} : StatusMessage) else status).toStatus = status.toStatus.plain := by
  unfold Status.plain Status.isOk StatusMessage.toStatus
  by_cases h : status.code = 0 <;> simp [h]

/-! ## What they are answered -/

theorem Feed.single_map {α β : Type} (f : α → β) (feed : Feed α) :
    (feed.map f).single = feed.single.map f := by
  obtain ⟨items, ending⟩ := feed
  cases ending <;> cases items <;> rfl

section

variable {α β γ : Type} [Wire.Message α] [Wire.Message β] {simplify : α → α}
  {first second : Bytes}

/-- Neither body has a request, or both have one that `run` cannot tell from the other. -/
theorem SameBut.single (h : SameBut simplify true first second) (run : α → γ)
    (hrun : ∀ request, run (simplify request) = run request) :
    (∃ error, (Feed.ofBody α first true).single = .error error ∧
      (Feed.ofBody α second true).single = .error error) ∨
    ∃ request other, (Feed.ofBody α first true).single = .ok request ∧
      (Feed.ofBody α second true).single = .ok other ∧ run request = run other := by
  have hsame := congrArg Feed.single h
  rw [Feed.single_map, Feed.single_map] at hsame
  cases hfirst : (Feed.ofBody α first true).single with
  | error error =>
      cases hsecond : (Feed.ofBody α second true).single with
      | error other =>
          rw [hfirst, hsecond] at hsame
          cases hsame
          exact .inl ⟨error, rfl, rfl⟩
      | ok other =>
          rw [hfirst, hsecond] at hsame
          cases hsame
  | ok request =>
      cases hsecond : (Feed.ofBody α second true).single with
      | error other =>
          rw [hfirst, hsecond] at hsame
          cases hsame
      | ok other =>
          rw [hfirst, hsecond] at hsame
          have hsimple : simplify request = simplify other := Except.ok.inj hsame
          exact .inr ⟨request, other, rfl, rfl, by rw [← hrun, hsimple, hrun]⟩

theorem unary_of_sameBut (h : SameBut simplify true first second) (service : Service)
    {handler : α → Except RpcError β × Service}
    (hhandler : ∀ request, handler (simplify request) = handler request) :
    unary service first handler = unary service second handler := by
  rcases h.single handler hhandler with ⟨error, hfirst, hsecond⟩ |
    ⟨request, other, hfirst, hsecond, hsame⟩
  · simp only [unary, hfirst, hsecond]
  · simp only [unary, hfirst, hsecond, hsame]

theorem sleepy_of_sameBut (h : SameBut simplify true first second) (service : Service)
    {handler : α → Progress × Service}
    (hhandler : ∀ request, handler (simplify request) = handler request) :
    sleepy service first handler = sleepy service second handler := by
  rcases h.single handler hhandler with ⟨error, hfirst, hsecond⟩ |
    ⟨request, other, hfirst, hsecond, hsame⟩
  · simp only [sleepy, hfirst, hsecond]
  · simp only [sleepy, hfirst, hsecond, hsame]

end

variable {first second : Bytes} {halfClosed : Bool} {method : Method}

theorem streams_of_sameBut (h : SameBut EchoRequest.withoutOk halfClosed first second) :
    collect ((Feed.ofBody EchoRequest first halfClosed).map toItem) =
        collect ((Feed.ofBody EchoRequest second halfClosed).map toItem) ∧
      chat ((Feed.ofBody EchoRequest first halfClosed).map toItem) =
        chat ((Feed.ofBody EchoRequest second halfClosed).map toItem) := by
  have hending := congrArg Feed.ending h
  have hitems := congrArg Feed.items h
  simp only [Feed.map] at hending hitems
  simp only [collect, chat, Feed.map, hending]
  constructor
  · rw [← collectItems_withoutOk, hitems, collectItems_withoutOk]
  · rw [← chatItems_withoutOk, hitems, chatItems_withoutOk]

/-- An RPC but for a setup does the same for both bodies. -/
theorem handle_of_sameButOk (h : method.SameButOk halfClosed first second)
    (hmethod : method ≠ .setupRetry) (service : Service) (moment : Moment)
    (candidates : List String) :
    handle service moment candidates method.path first halfClosed =
      handle service moment candidates method.path second halfClosed := by
  unfold handle
  rw [Method.ofPath?_path]
  cases method with
  | setupRetry => exact absurd rfl hmethod
  | echo =>
      apply unary_of_sameBut h
      intro request
      rw [echo_withoutOk]
  | expand =>
      rcases SameBut.single h (fun request => expand (toItem request)) expand_withoutOk with
        ⟨error, hfirst, hsecond⟩ | ⟨request, other, hfirst, hsecond, hsame⟩
      · simp only [hfirst, hsecond]
      · simp only [hfirst, hsecond]
        rw [show expand (toItem request) = expand (toItem other) from hsame]
  | collect => simp only [(streams_of_sameBut h).1]
  | chat => simp only [(streams_of_sameBut h).2]
  | timeout =>
      apply sleepy_of_sameBut h
      intro request
      rw [timeout_withoutOk]
  | longrunning =>
      apply unary_of_sameBut h
      intro request
      rw [longrunning_withoutOk]
  | _ => rw [show first = second from h]

/-- A setup gets the same answer for both bodies, and leaves services that are alike. -/
theorem setupRetry_of_sameBut (h : SameBut SetupRetryRequest.withoutOk true first second)
    (service : Service) (now : Instant) (candidates : List String) :
    (unary service first (setupRetry service now candidates)).1 =
        (unary service second (setupRetry service now candidates)).1 ∧
      (unary service first (setupRetry service now candidates)).2.Alike
        (unary service second (setupRetry service now candidates)).2 := by
  let script (request : SetupRetryRequest) : List Status :=
    request.responses.map fun status => status.toStatus.plain
  have hscript (request : SetupRetryRequest) : script request.withoutOk = script request := by
    simp only [script, SetupRetryRequest.withoutOk, List.map_map]
    apply List.map_congr_left
    intro status _
    rw [Function.comp, toStatus_withoutOk, Status.plain_plain]
  rcases h.single script hscript with ⟨error, hfirst, hsecond⟩ |
    ⟨request, other, hfirst, hsecond, hsame⟩
  · simp only [unary, hfirst, hsecond]
    exact ⟨trivial, .refl service⟩
  · have hplain : (request.responses.map (·.toStatus)).map Status.plain =
        (other.responses.map (·.toStatus)).map Status.plain := by
      rw [List.map_map, List.map_map]
      exact hsame
    have halike := (Service.Alike.refl service).setupRetry hplain now candidates
    simp only [unary, hfirst, hsecond, setupRetry, perform_eq, halike.1]
    exact ⟨trivial, halike.2⟩

/-- Whatever a status with the number `0` says, the call and all later ones are answered alike. -/
theorem Session.answers_of_sameButOk (h : method.SameButOk halfClosed first second)
    (session : Session) (moment : Moment) (candidates : List String) (later : List Occasion) :
    session.answers (⟨moment, .call candidates method.path first halfClosed⟩ :: later) =
      session.answers (⟨moment, .call candidates method.path second halfClosed⟩ :: later) := by
  simp only [Session.answers, Session.meet]
  by_cases hmethod : method = .setupRetry
  · subst hmethod
    have halike := Session.proceed_alike session.asleep
      (setupRetry_of_sameBut h session.service moment.clock candidates)
    simp only [handle, Method.ofPath?_path]
    rw [halike.1, halike.2.answers]
  · rw [handle_of_sameButOk h hmethod]

end Rpc

end Rehearsal
