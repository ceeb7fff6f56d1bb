import Rehearsal.Proofs.Message.Requests
import Rehearsal.Proofs.Rpc.Failure
import Rehearsal.Proofs.Rpc.Planned
import Rehearsal.Proofs.Rpc.Refusal
import Rehearsal.Proofs.Rpc.Success

/-!
# The convention about statuses

In all methods alike, a status with the number `0` counts for nothing, and every other status is a
failure that is asked for (`ok_convention`).
-/

namespace Rehearsal.Rpc

open Message
open Time (Instant)
open Wire (Bytes)

/-- Whatever a status with the number `0` says, this call and all later ones are answered as if it
were not there.  A status with another number fails the call at its place, at once, after a delay or
in its turn, with its message and its number as far as that is the number of a failure; an operation
is shown with the number as it is.  No call ever fails with the code of success. -/
theorem ok_convention :
    (∀ (method : Method) (halfClosed : Bool) (first second : Bytes),
      method.SameButOk halfClosed first second →
        ∀ (session : Session) (moment : Moment) (candidates : List String)
          (later : List Occasion),
          session.answers (⟨moment, .call candidates method.path first halfClosed⟩ :: later) =
            session.answers
              (⟨moment, .call candidates method.path second halfClosed⟩ :: later)) ∧
    (∀ (body : Bytes) (request : EchoRequest) (status : StatusMessage),
      (Feed.ofBody EchoRequest body true).single = .ok request →
      request.error = some status → status.code ≠ 0 →
        ∀ (service : Service) (moment : Moment) (candidates : List String) (halfClosed : Bool),
          (∃ reply, handle service moment candidates Method.echo.path body halfClosed =
              (.answered reply, service) ∧ reply.FailsAs [] status.toStatus) ∧
          ∃ reply, handle service moment candidates Method.expand.path body halfClosed =
              (.answered reply, service) ∧
            reply.FailsAs ((Text.words request.content).map fun content =>
              Wire.encode ({ content } : EchoResponse)) status.toStatus) ∧
    (∀ (body : Bytes) (halfClosed : Bool) (before after : List EchoRequest)
        (request : EchoRequest) (status : StatusMessage),
      (Feed.ofBody EchoRequest body halfClosed).items = before ++ request :: after →
      (∀ other ∈ before, AsksNone other) → request.error = some status → status.code ≠ 0 →
        ∀ (service : Service) (moment : Moment) (candidates : List String),
          (∃ reply, handle service moment candidates Method.chat.path body halfClosed =
              (.answered reply, service) ∧
            reply.FailsAs (before.map plainReply) status.toStatus) ∧
          ∃ reply, handle service moment candidates Method.collect.path body halfClosed =
              (.answered reply, service) ∧ reply.FailsAs [] status.toStatus) ∧
    (∀ (body : Bytes) (request : TimeoutRequest) (status : StatusMessage) (delay : Option Nat),
      (Feed.ofBody TimeoutRequest body true).single = .ok request →
      request.responseDelay.mapM (·.toDelay "response_delay") = .ok delay →
      request.error = some status → status.code ≠ 0 →
        ∀ (service : Service) (moment : Moment) (candidates : List String) (halfClosed : Bool),
          ∃ call, handle service moment candidates Method.timeout.path body halfClosed =
              (.asleep (moment.timer + timerDelay (delay.getD 0)) call, service) ∧
            ∀ later woken, ∃ reply, call.resume later woken = (.answered reply, later) ∧
              reply.FailsAs [] status.toStatus) ∧
    (∀ (session : Session) (occasion : Occasion) (visit : Visit) (responses : List Status)
        (id : String),
      session.visit? occasion = some visit → visit.call = .setupRetry responses →
      (session.service.visit visit).1 = .ok (.script id) →
        (session.meet occasion).1 = some (.answered (.ofResult (.ok ({ id } : RetryId)))) ∧
        ∀ (later : List Occasion) (attempt : Occasion) (status : Status),
          ((session.meet occasion).2.after later).call? attempt = some (.retry id) →
          responses[((session.meet occasion).2.visits later).countP
            fun visit => visit.call = .retry id]? = some status → status.code ≠ 0 →
            ∃ reply,
              (((session.meet occasion).2.after later).meet attempt).1 =
                some (.answered reply) ∧
              reply.FailsAs [] status) ∧
    (∀ (session : Session) (occasion : Occasion) (visit : Visit) (spec : OperationSpec)
        (status : Status) (snapshot : Snapshot),
      session.visit? occasion = some visit → visit.call = .start spec →
      spec.error = some status → status.code ≠ 0 →
      (session.service.visit visit).1 = .ok (.operation snapshot) →
        (session.meet occasion).1 =
          some (.answered (.ofResult (.ok (OperationMessage.ofSnapshot snapshot)))) ∧
        (spec.completion.getD visit.now ≤ visit.now →
          snapshot.state = .done (.failed status)) ∧
        ∀ (later : List Occasion) (look : Occasion),
          (session.meet occasion).2.service.SparedBy snapshot.name
            ((session.meet occasion).2.visits later) →
          spec.completion.getD visit.now ≤ look.moment.clock →
            (((session.meet occasion).2.after later).call? look = some (.get snapshot.name) →
              (((session.meet occasion).2.after later).meet look).1 = some (.answered
                (.ofResult (.ok (Session.failedMessage snapshot.name status))))) ∧
            ∀ pageSize pageToken,
              ((session.meet occasion).2.after later).call? look =
                some (.list pageSize pageToken) →
              ∃ result : Except RpcError ListOperationsResponse,
                (((session.meet occasion).2.after later).meet look).1 =
                  some (.answered (.ofResult result)) ∧
                ∀ response, result = .ok response → ∀ shown ∈ response.operations,
                  shown.name = snapshot.name →
                    shown = Session.failedMessage snapshot.name status) ∧
    (∀ (service after : Service) (now : Instant) (candidates : List String) (call : Call)
        (later : List Instant) (error : ServiceError),
      service.perform now candidates call later = (.error error, after) →
        error.toRpc.code ≠ .ok) ∧
    ∀ (settings : Settings) (occasions : List Occasion) (reply : Feed Bytes) (error : RpcError),
      some (.answered reply) ∈ Session.answers ⟨{ settings }, []⟩ occasions →
      reply.ending = .failed error → error.code ≠ .ok ∧ error.delivered.code ≠ .ok := by
  refine ⟨?_, ?_, ?_, ?_, ?_, ?_, ?_, ?_⟩
  · intro method halfClosed first second hsame session moment candidates later
    exact Session.answers_of_sameButOk hsame session moment candidates later
  · intro body request status hrequest herror hcode service moment candidates halfClosed
    exact ⟨handle_echo_of_error herror hcode service moment candidates hrequest,
      handle_expand_of_error herror hcode service moment candidates hrequest⟩
  · intro body halfClosed before after request status hitems hbefore herror hcode service moment
      candidates
    exact ⟨handle_chat_of_error herror hcode service moment candidates hbefore hitems,
      handle_collect_of_error herror hcode service moment candidates hbefore hitems⟩
  · intro body request status delay hrequest hdelay herror hcode service moment candidates
      halfClosed
    exact handle_timeout_of_error hrequest hdelay herror hcode service moment candidates
  · intro session occasion visit responses id hvisit hcall hset
    refine ⟨Session.meet_of_setupRetry hvisit hcall hset, ?_⟩
    intro later attempt status hattempt hstatus hcode
    exact Session.retry_of_setup hvisit hcall hset later hattempt hstatus hcode
  · intro session occasion visit spec status snapshot hvisit hcall herror hcode hstarted
    refine ⟨Session.meet_of_start hvisit hcall hstarted,
      Session.state_of_start hcall herror hcode hstarted, ?_⟩
    intro later look spared hdue
    exact Session.looks_of_start hvisit hcall herror hcode hstarted spared hdue
  · intro service after now candidates call later error herror
    exact (Service.perform_proper herror).rpcCode_ne_ok
  · intro settings occasions reply error hreply hfailed
    have hnew : Session.Proper ⟨{ settings }, []⟩ := by
      rintro _ ⟨⟩
    have hproper : error.code ≠ .ok := hnew.answers occasions _ hreply error hfailed
    exact ⟨hproper, RpcError.delivered_code_ne_ok hproper⟩

/-- A status whose number is that of no code. -/
def oddStatus : StatusMessage := { code := 17, message := "odd" }

theorem readable_oddStatus : ∀ status ∈ some oddStatus, Wire.Readable 0 status := by
  rintro _ ⟨⟩
  exact StatusMessage.readable (by decide)

theorem ofBody_setupRetry {status : StatusMessage} (h : Wire.Readable 0 status)
    (hlength : (Wire.encode ({ responses := [status] } : SetupRetryRequest)).length ≤
      maxMessageBytes) :
    Feed.ofBody SetupRetryRequest
      (Client.bodyOf [({ responses := [status] } : SetupRetryRequest)]) true =
        ⟨[{ responses := [status] }], .closed⟩ := by
  apply ofBody_bodyOf
  · refine List.forall_mem_singleton.2 (SetupRetryRequest.decode_encode ?_)
    exact List.forall_mem_singleton.2 h
  · exact List.forall_mem_singleton.2 hlength

theorem call?_setupRetry_oddStatus : Method.setupRetry.call?
    (Client.bodyOf [({ responses := [oddStatus] } : SetupRetryRequest)]) =
      some (.setupRetry [⟨17, "odd"⟩]) := by
  have hrequest := ofBody_setupRetry (readable_oddStatus _ rfl) (by decide +kernel)
  have hsingle := request?_eq_some_iff.2 (congrArg Feed.single hrequest)
  simp only [Method.call?, hsingle]
  rfl

theorem call?_retry : Method.retry.call? (Client.bodyOf [({ id := "a" } : RetryId)]) =
    some (.retry "a") := by
  have hid := single_ofBody_retryId (show (Text.Utf8.encode "a").length + 20 ≤ _ by decide)
  simp only [Method.call?, request?_eq_some_iff.2 hid, Option.map_some]

/-- An operation that fails with that status when it is due. -/
def oddRequest : LongrunningRequest :=
  { completionTime := some { seconds := 40 }, error := some oddStatus }

theorem call?_longrunning_oddRequest : Method.longrunning.call? (Client.bodyOf [oddRequest]) =
    some (.start
      { completion := some (.ofSeconds 40 (by decide)), error := some ⟨17, "odd"⟩ }) := by
  have hrequest : Wire.decode LongrunningRequest (Wire.encode oddRequest) = .ok oddRequest :=
    LongrunningRequest.decode_encode readable_oddStatus (by rintro _ ⟨⟩)
  have hsingle := request?_eq_some_iff.2 (single_ofBody hrequest (by decide +kernel))
  simp only [Method.call?, hsingle]
  rfl

theorem call?_getOperation : Method.getOperation.call?
    (Client.bodyOf [({ name := "operations/a" } : OperationRequest)]) =
      some (.get "operations/a") := by
  have hname : Wire.decode OperationRequest
      (Wire.encode ({ name := "operations/a" } : OperationRequest)) =
        .ok { name := "operations/a" } :=
    (OperationRequest.readable (by decide)).decode_encode (by decide)
  have hsingle := request?_eq_some_iff.2 (single_ofBody hname (by decide +kernel))
  simp only [Method.call?, hsingle, Option.map_some]

/-- An RPC with one request in it and one free name for what it creates. -/
def rpc {α : Type} [Wire.Message α] (clock : Instant) (method : Method) (request : α) : Occasion :=
  ⟨⟨clock, 0⟩, .call ["a"] method.path (Client.bodyOf [request]) true⟩

/-- A status for success with a message of its own, and a status whose number is that of no code,
in each of the methods. -/
theorem ok_convention_odd :
    let early : Instant := .ofSeconds 30 (by decide)
    let late : Instant := .ofSeconds 50 (by decide)
    let session : Session := ⟨{}, []⟩
    let setup (status : StatusMessage) :=
      rpc early .setupRetry ({ responses := [status] } : SetupRetryRequest)
    let attempt := rpc late .retry ({ id := "a" } : RetryId)
    let start := rpc early .longrunning
      ({ completionTime := some { seconds := 40 }, error := some oddStatus } : LongrunningRequest)
    let look := rpc late .getOperation ({ name := "operations/a" } : OperationRequest)
    let odd : EchoRequest := { content := "a b", error := some oddStatus }
    session.answers [setup { message := "fine" }, attempt] = session.answers [setup {}, attempt] ∧
    (∃ reply, handle {} ⟨early, 0⟩ [] Method.expand.path (Client.bodyOf [odd]) true =
        (.answered reply, {}) ∧ reply.FailsAs ((Text.words "a b").map fun content =>
          Wire.encode ({ content } : EchoResponse)) ⟨17, "odd"⟩) ∧
    (∃ reply, handle {} ⟨early, 0⟩ [] Method.chat.path
        (Client.bodyOf [({ content := "c" } : EchoRequest), odd]) true = (.answered reply, {}) ∧
      reply.FailsAs [plainReply { content := "c" }] ⟨17, "odd"⟩) ∧
    (∃ call, handle {} ⟨early, 0⟩ [] Method.timeout.path
        (Client.bodyOf [({ error := some oddStatus } : TimeoutRequest)]) true =
        (.asleep 0 call, {}) ∧
      ∀ later woken, ∃ reply, call.resume later woken = (.answered reply, later) ∧
        reply.FailsAs [] ⟨17, "odd"⟩) ∧
    (∃ reply error, some (.answered reply) ∈ session.answers [setup oddStatus, attempt] ∧
      reply.FailsAs [] ⟨17, "odd"⟩ ∧ reply.ending = .failed error ∧ error.code ≠ .ok) ∧
    ((session.meet start).2.meet look).1 = some (.answered (.ofResult
      (.ok (Session.failedMessage "operations/a" ⟨17, "odd"⟩)))) := by
  intro early late session setup attempt start look odd
  obtain ⟨same, once, streams, delayed, scripted, planned, performed, proper⟩ := ok_convention
  have hodd : Wire.decode EchoRequest (Wire.encode odd) = .ok odd :=
    EchoRequest.decode_encode (by decide) readable_oddStatus
  refine ⟨?_, ?_, ?_, ?_, ?_, ?_⟩
  · refine same .setupRetry true _ _ ?_ session _ _ _
    show SameBut SetupRetryRequest.withoutOk true _ _
    unfold SameBut
    rw [ofBody_setupRetry (StatusMessage.readable (by decide)) (by decide +kernel),
      ofBody_setupRetry (StatusMessage.readable (by decide)) (by decide +kernel)]
    rfl
  · exact (once _ odd oddStatus (single_ofBody hodd (by decide +kernel)) rfl (by decide) {}
      ⟨early, 0⟩ [] true).2
  · refine (streams _ true [{ content := "c" }] [] odd oddStatus ?_ ?_ rfl (by decide) {}
      ⟨early, 0⟩ []).1
    · have hplain : Wire.decode EchoRequest (Wire.encode ({ content := "c" } : EchoRequest)) =
          .ok { content := "c" } := EchoRequest.decode_encode (by decide) (by rintro _ ⟨⟩)
      rw [ofBody_bodyOf (List.forall_mem_cons.2 ⟨hplain, List.forall_mem_singleton.2 hodd⟩)]
      · rfl
      · decide +kernel
    · intro other hother status hstatus
      rw [List.mem_singleton.1 hother] at hstatus
      cases hstatus
  · have hrequest : Wire.decode TimeoutRequest
        (Wire.encode ({ error := some oddStatus } : TimeoutRequest)) =
          .ok { error := some oddStatus } :=
      TimeoutRequest.decode_encode readable_oddStatus (by rintro _ ⟨⟩)
    exact delayed _ _ oddStatus none (single_ofBody hrequest (by decide +kernel)) rfl rfl
      (by decide) {} ⟨early, 0⟩ [] true
  · have hvisit := session.visit?_call ⟨early, 0⟩ ["a"] call?_setupRetry_oddStatus true
    obtain ⟨reply, hreply, hfails⟩ := (scripted session (setup oddStatus) _ _ "a" hvisit rfl
      rfl).2 [] attempt ⟨17, "odd"⟩ ((Session.call?_call ..).trans call?_retry) rfl (by decide)
    obtain ⟨error, hending, -⟩ := hfails.ending
    have hmem : some (.answered reply) ∈ session.answers [setup oddStatus, attempt] :=
      List.mem_cons_of_mem _ (List.mem_cons.2 (.inl hreply.symm))
    exact ⟨reply, error, hmem, hfails, hending, (proper {} _ reply error hmem hending).1⟩
  · have hvisit := session.visit?_call ⟨early, 0⟩ ["a"] call?_longrunning_oddRequest true
    refine ((planned session start _ _ ⟨17, "odd"⟩ _ hvisit rfl rfl (by decide) rfl).2.2 []
      look ?_ (by decide)).1 ((Session.call?_call ..).trans call?_getOperation)
    intro i visit hnone
    cases hnone

end Rehearsal.Rpc
