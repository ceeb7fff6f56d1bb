import Rehearsal.Proofs.Rpc.Call
import Rehearsal.Proofs.Service.Refusal
import Rehearsal.Proofs.Wire.RoundTrip
import Rehearsal.Rpc.Handler
import Rehearsal.Rpc.Vigil

/-!
# Refused RPCs leave the service alone

An RPC that fails, or has only gone to sleep (`Progress.Unmet`), leaves the service as it was
(`handle_refused`); the one exception is an attempt under an identifier that fails with the status
it has claimed (`retry_of_unmet`).  A look of a waiter changes something only if it finds the
operation done, so a wait that fails has changed nothing by any of its looks, whatever others do
between them (`Vigil.Reachable.spares`).
-/

namespace Rehearsal

namespace Rpc

open Message
open Time (Instant)
open Wire (Bytes)

/-- The call has failed, or it sleeps. -/
def Progress.Unmet : Progress → Prop
  | .answered reply => ∃ error, reply.ending = .failed error
  | .asleep .. => True

section

variable {service after : Service} {moment : Moment} {progress : Progress}

/-! ## Calls that answer at once -/

section

variable {α β : Type} {now : Instant} {candidates : List String} {call : Call}
  {read : Answer → Option α} {error : RpcError}

/-- A handler that runs a call and can read its answers fails if the call does, or if there is no
name to be found. -/
theorem perform_of_error (hread : ∀ answer, call.Answers answer → (read answer).isSome)
    (h : perform service now candidates call read = (.error error, after)) :
    (after = service ∧ service.perform now candidates call = (.ok .noName, after)) ∨
    ∃ cause, error = cause.toRpc ∧
      service.perform now candidates call = (.error cause, after) := by
  unfold perform at h
  split at h
  · rename_i cause later hcause
    cases h
    exact .inr ⟨cause, rfl, hcause⟩
  · rename_i answer later hanswer
    split at h
    · cases h
    · rename_i hnone
      cases h
      rcases Service.perform_of_ok hanswer with ⟨rfl, hsame⟩ | hanswers
      · exact .inl ⟨hsame, hanswer⟩
      · have hsome := hread answer hanswers
        rw [hnone] at hsome
        cases hsome

theorem perform_refused (hread : ∀ answer, call.Answers answer → (read answer).isSome)
    (hcall : ∀ id, call ≠ .retry id)
    (h : perform service now candidates call read = (.error error, after)) : after = service := by
  rcases perform_of_error hread h with ⟨hsame, -⟩ | ⟨cause, -, hcause⟩
  · exact hsame
  · rcases Service.perform_of_error hcause with ⟨-, hsame⟩ | ⟨id, -, hretry, -⟩
    · exact hsame
    · exact absurd hretry (hcall id)

variable [Wire.Message α] [Wire.Message β] {body : Bytes}

theorem unary_of_unmet {handler : α → Except RpcError β × Service}
    (h : unary service body handler = (progress, after)) (unmet : progress.Unmet) :
    (after = service ∧ ∃ error, (Feed.ofBody α body true).single = .error error) ∨
    ∃ request error, (Feed.ofBody α body true).single = .ok request ∧
      handler request = (.error error, after) ∧ progress = .answered ⟨[], .failed error⟩ := by
  unfold unary at h
  split at h
  · rename_i error herror
    cases h
    exact .inl ⟨rfl, error, herror⟩
  · rename_i request hrequest
    cases hhandler : handler request with
    | mk result later =>
        rw [hhandler] at h
        cases h
        cases result with
        | ok reply =>
            obtain ⟨error, hfailed⟩ := unmet
            cases hfailed
        | error error => exact .inr ⟨request, error, hrequest, hhandler, rfl⟩

theorem unary_refused {handler : α → Except RpcError β × Service}
    (hhandler : ∀ request error, handler request = (.error error, after) → after = service)
    (h : unary service body handler = (progress, after)) (unmet : progress.Unmet) :
    after = service := by
  rcases unary_of_unmet h unmet with ⟨hsame, -⟩ | ⟨request, error, -, hfailed, -⟩
  · exact hsame
  · exact hhandler request error hfailed

end

/-- An RPC for an attempt fails because there is no request in it, or because the attempt fails. -/
theorem retry_of_unmet {body : Bytes}
    (h : unary service body (retry service moment.clock) = (progress, after))
    (unmet : progress.Unmet) :
    (after = service ∧ ∃ error, (Feed.ofBody RetryId body true).single = .error error) ∨
    ∃ id cause, (Feed.ofBody RetryId body true).single = .ok ⟨id⟩ ∧
      progress = .answered ⟨[], .failed cause.toRpc⟩ ∧
      service.perform moment.clock [] (.retry id) = (.error cause, after) := by
  rcases unary_of_unmet h unmet with hsame | ⟨⟨id⟩, error, hrequest, hfailed, hprogress⟩
  · exact .inl hsame
  · have hread (answer : Answer) (hanswer : (Call.retry id).Answers answer) :
        (readDone answer).isSome := by
      cases answer <;> first | rfl | cases hanswer
    rcases perform_of_error hread hfailed with ⟨-, hanswer⟩ | ⟨cause, rfl, hcause⟩
    · obtain ⟨_, -, hnone⟩ := ok_of_map (congrArg Prod.fst hanswer)
      cases hnone
    · exact .inr ⟨id, cause, hrequest, hprogress, hcause⟩

/-! ## Calls that may sleep -/

/-- A look of a waiter that does not find the operation done changes nothing. -/
theorem Waiter.look_spares {waiter : Waiter} {book : OperationBook}
    (h : ∀ snapshot, (waiter.look book moment).1 ≠ .finished (.ok snapshot)) :
    (waiter.look book moment).2 = book := by
  unfold look at h ⊢
  cases hget : book.get moment.clock waiter.name with
  | mk result later =>
      rw [hget] at h
      cases result with
      | error error =>
          have hsame := (OperationBook.update_refused (congrArg Prod.fst hget)).2
          exact (congrArg Prod.snd hget).symm.trans hsame
      | ok snapshot =>
          have hpending : snapshot.isDone = false := by
            obtain ⟨name, state⟩ := snapshot
            cases state with
            | pending remaining => rfl
            | done outcome => exact absurd rfl (h ⟨name, .done outcome⟩)
          have hsame := OperationBook.get_of_pending (congrArg Prod.fst hget) hpending
          exact (congrArg Prod.snd hget).symm.trans hsame

theorem lookOnce_of_unmet {waiter : Waiter}
    (h : lookOnce service moment waiter = (progress, after)) (unmet : progress.Unmet) :
    after = service := by
  have hprogress : waitProgress waiter (waiter.look service.operations moment).1 = progress :=
    congrArg Prod.fst h
  have hafter : { service with operations := (waiter.look service.operations moment).2 } = after :=
    congrArg Prod.snd h
  refine Service.eq_of_operations hafter (Waiter.look_spares ?_)
  intro snapshot hfinished
  rw [hfinished] at hprogress
  subst hprogress
  obtain ⟨error, hfailed⟩ := unmet
  cases hfailed

theorem waitOperation_of_unmet {request : WaitOperationRequest}
    (h : waitOperation service moment request = (progress, after)) (unmet : progress.Unmet) :
    after = service := by
  unfold waitOperation at h
  split at h
  · cases h
    rfl
  · exact lookOnce_of_unmet h unmet

theorem sleepy_refused {α : Type} [Wire.Message α] {body : Bytes}
    {handler : α → Progress × Service}
    (hhandler : ∀ request, handler request = (progress, after) → after = service)
    (h : sleepy service body handler = (progress, after)) : after = service := by
  unfold sleepy at h
  split at h
  · cases h
    rfl
  · rename_i request hrequest
    exact hhandler request h

/-- A call that has slept and fails, or goes to sleep again, leaves the service as it was. -/
theorem Suspended.resume_of_unmet {call : Suspended}
    (h : call.resume service moment = (progress, after)) (unmet : progress.Unmet) :
    after = service := by
  cases call with
  | delayed result =>
      cases h
      rfl
  | waiting waiter => exact lookOnce_of_unmet h unmet

/-! ## All methods -/

theorem longrunning_refused {candidates : List String} {request : LongrunningRequest}
    {error : RpcError}
    (h : longrunning service moment.clock candidates request = (.error error, after)) :
    after = service := by
  unfold longrunning at h
  split at h
  · cases h
    rfl
  · refine perform_refused ?_ (fun id hretry => by cases hretry) h
    intro answer hanswer
    cases answer <;> first | rfl | cases hanswer

variable {candidates : List String} {path : String} {body : Bytes} {halfClosed : Bool}

theorem handle_refused
    (h : handle service moment candidates path body halfClosed = (progress, after))
    (unmet : progress.Unmet) (hother : Method.ofPath? path ≠ some .retry) : after = service := by
  unfold handle at h
  cases hmethod : Method.ofPath? path with
  | none =>
      rw [hmethod] at h
      cases h
      rfl
  | some method =>
      rw [hmethod] at h hother
      cases method with
      | retry => exact absurd rfl hother
      | chat =>
          cases h
          rfl
      | expand | collect =>
          dsimp only at h
          split at h <;>
          · cases h
            rfl
      | echo | parameterFlattening | resourceName =>
          refine unary_refused ?_ h unmet
          intro request error hfailed
          exact (congrArg Prod.snd hfailed).symm
      | timeout =>
          refine sleepy_refused ?_ h
          intro request hanswer
          exact (congrArg Prod.snd hanswer).symm
      | waitOperation =>
          refine sleepy_refused ?_ h
          intro request hanswer
          exact waitOperation_of_unmet hanswer unmet
      | longrunning =>
          refine unary_refused ?_ h unmet
          intro request error hfailed
          exact longrunning_refused hfailed
      | setupRetry | pagination | listOperations | getOperation | deleteOperation
        | cancelOperation =>
          refine unary_refused ?_ h unmet
          intro request error hfailed
          refine perform_refused ?_ (fun id hretry => by cases hretry) hfailed
          intro answer hanswer
          cases answer <;> first | rfl | cases hanswer

theorem handle_retry
    (h : handle service moment candidates path body halfClosed = (progress, after))
    (hmethod : Method.ofPath? path = some .retry) :
    unary service body (retry service moment.clock) = (progress, after) := by
  unfold handle at h
  rw [hmethod] at h
  exact h

end

/-! ## Waits among others -/

namespace Vigil

/-- No look of the waiter has changed anything. -/
def Spares (vigil : Vigil) : Prop :=
  ∀ look ∈ vigil.looks, (vigil.waiter.look look.book look.moment).2 = look.book

/-- The waiter has not reported an operation. -/
def Unserved (vigil : Vigil) : Prop := ∀ snapshot, vigil.watch ≠ .finished (.ok snapshot)

variable {first vigil later : Vigil}

theorem spares_look (h : vigil.Spares) (unserved : vigil.look.Unserved) : vigil.look.Spares := by
  intro look hlook
  rcases List.mem_cons.1 hlook with rfl | hlook
  · refine Waiter.look_spares ?_
    intro snapshot hfinished
    exact unserved snapshot (congrArg WaitStep.watch hfinished)
  · exact h look hlook

/-- As long as the waiter has not reported an operation, a step keeps it from having changed
anything: it looks only while it is awake. -/
theorem Step.spares (h : vigil.Unserved → vigil.Spares) (step : Step vigil later)
    (unserved : later.Unserved) : later.Spares := by
  cases step with
  | visit | set | tick => exact h unserved
  | calm step =>
      cases step with
      | pass => exact h unserved
      | wake wake hasleep due =>
          refine h ?_
          intro snapshot hfinished
          rw [hasleep] at hfinished
          cases hfinished
      | look hawake =>
          refine spares_look (h ?_) unserved
          intro snapshot hfinished
          rw [hawake] at hfinished
          cases hfinished

theorem Reachable.spares (h : Reachable first vigil) (hstart : first.Spares) :
    vigil.Unserved → vigil.Spares := by
  induction h with
  | start => exact fun _ => hstart
  | step h step ih => exact step.spares ih

end Vigil

/-- A call that the service refuses leaves it as it was, and so does one that fails as its caller
has asked for, unless it is an attempt under an identifier, which has then claimed one status.  The
same is true of an RPC when it is made and whenever it has slept, and of all looks of a wait that
fails in the end, whatever others have done between them. -/
theorem refused_without_effect :
    (∀ (service after : Service) (now : Instant) (candidates : List String) (call : Call)
        (later : List Instant) (error : ServiceError),
      service.perform now candidates call later = (.error error, after) →
        (error.isClientError = true → after = service) ∧
        ∀ status, error = .scripted status →
          ∃ id, call = .retry id ∧ service.Claims id status after) ∧
    (∀ (service after : Service) (moment : Moment) (candidates : List String) (path : String)
        (body : Bytes) (halfClosed : Bool) (progress : Progress),
      handle service moment candidates path body halfClosed = (progress, after) →
      progress.Unmet →
        (Method.ofPath? path ≠ some .retry → after = service) ∧
        (Method.ofPath? path = some .retry →
          (after = service ∧ ∃ error, (Feed.ofBody RetryId body true).single = .error error) ∨
          ∃ id cause, (Feed.ofBody RetryId body true).single = .ok ⟨id⟩ ∧
            progress = .answered ⟨[], .failed cause.toRpc⟩ ∧
            service.perform moment.clock [] (.retry id) = (.error cause, after))) ∧
    (∀ (service after : Service) (moment : Moment) (call : Suspended) (progress : Progress),
      call.resume service moment = (progress, after) → progress.Unmet → after = service) ∧
    ∀ (service : Service) (moment : Moment) (name : String) (timeout : Option Nat)
        (vigil : Vigil) (error : ServiceError),
      Vigil.Reachable (.start service moment name timeout) vigil →
      vigil.watch = .finished (.error error) → vigil.Spares := by
  refine ⟨?_, ?_, ?_, ?_⟩
  · intro service after now candidates call later error h
    rcases Service.perform_of_error h with ⟨hclient, hsame⟩ | ⟨id, status, hcall, rfl, hclaims⟩
    · refine ⟨fun _ => hsame, ?_⟩
      rintro status rfl
      cases hclient
    · refine ⟨?_, ?_⟩
      · rintro ⟨⟩
      · rintro _ ⟨⟩
        exact ⟨id, hcall, hclaims⟩
  · intro service after moment candidates path body halfClosed progress h unmet
    refine ⟨handle_refused h unmet, ?_⟩
    intro hmethod
    exact retry_of_unmet (handle_retry h hmethod) unmet
  · intro service after moment call progress h unmet
    exact Suspended.resume_of_unmet h unmet
  · intro service moment name timeout vigil error h hfailed
    refine h.spares ?_ ?_
    · intro look hlook
      cases hlook
    · intro snapshot hreported
      rw [hfailed] at hreported
      cases hreported

/-- An attempt arrives under the identifier that its caller has sent. -/
theorem single_ofBody_retryId {id : String}
    (h : (Text.Utf8.encode id).length + 20 ≤ maxMessageBytes) :
    (Feed.ofBody RetryId (Client.bodyOf [(⟨id⟩ : RetryId)]) true).single = .ok ⟨id⟩ := by
  have hid : (Text.Utf8.encode id).length < UInt64.size := by
    unfold maxMessageBytes at h
    unfold UInt64.size
    omega
  have hfield : 0 < 1 ∧ 1 < Wire.Record.maxField := by decide
  have hdecode : Wire.decode RetryId (Wire.encode (⟨id⟩ : RetryId)) = .ok ⟨id⟩ :=
    Wire.decode_encode (fun _ => Wire.Record.writable_of_mem_ofBytes hfield hid)
      (Wire.mergeAll_ofText RetryId.mk (fun _ => rfl) rfl id)
  have hlength : (Wire.encode (⟨id⟩ : RetryId)).length ≤ 20 + (Text.Utf8.encode id).length :=
    Wire.Record.length_writeAll_ofBytes_le hfield.2 hid
  exact single_ofBody hdecode (by omega)

/-- A service with an operation that is due in ten seconds and a script of one failure. -/
def overdue : Service :=
  Service.after default
    [{ now := .ofSeconds 30 (by decide)
       call := .start { completion := some (.ofSeconds 40 (by decide)) }
       candidates := ["a"] },
      { now := .ofSeconds 30 (by decide)
        call := .setupRetry [⟨14, "busy"⟩]
        candidates := ["a"] }]

/-- A list with a bad token leaves an operation that is due without an outcome; an attempt that
fails moves its cursor, also as an RPC; and a waiter that finds its operation pending, and deleted
the next time, has changed nothing. -/
theorem refused_without_effect_overdue :
    let late : Instant := .ofSeconds 50 (by decide)
    ((overdue.perform late [] (.list 0 "x")).1 =
        .error (.invalidPageToken "x" Paging.Token.notDecimal) ∧
      (overdue.perform late [] (.list 0 "x")).2 = overdue) ∧
    ((overdue.perform late [] (.retry "a")).1 = .error (.scripted ⟨14, "busy"⟩) ∧
      ∃ id, Call.retry "a" = .retry id ∧
        overdue.Claims id ⟨14, "busy"⟩ (overdue.perform late [] (.retry "a")).2) ∧
    (∃ id cause after,
      handle overdue ⟨late, 0⟩ [] Method.retry.path (Client.bodyOf [(⟨"a"⟩ : RetryId)]) true =
        (.answered ⟨[], .failed ⟨.unavailable, "busy"⟩⟩, after) ∧
      overdue.perform late [] (.retry id) = (.error cause, after)) ∧
    ∃ vigil : Vigil, vigil.watch = .finished (.error (.operationNotFound "operations/a")) ∧
      vigil.looks.length = 2 ∧ vigil.Spares := by
  intro late
  refine ⟨⟨rfl, ?_⟩, ⟨rfl, ?_⟩, ?_, ?_⟩
  · have hlist : overdue.perform late [] (.list 0 "x") =
        (.error (.invalidPageToken "x" Paging.Token.notDecimal), _) := rfl
    exact (refused_without_effect.1 _ _ _ _ _ _ _ hlist).1 rfl
  · have hretry : overdue.perform late [] (.retry "a") = (.error (.scripted ⟨14, "busy"⟩), _) := rfl
    exact (refused_without_effect.1 _ _ _ _ _ _ _ hretry).2 _ rfl
  · have hmethod : Method.ofPath? Method.retry.path = some .retry := rfl
    have hrequest := single_ofBody_retryId (show (Text.Utf8.encode "a").length + 20 ≤ _ by decide)
    have hhandle : ∃ after,
        handle overdue ⟨late, 0⟩ [] Method.retry.path (Client.bodyOf [(⟨"a"⟩ : RetryId)]) true =
          (.answered ⟨[], .failed ⟨.unavailable, "busy"⟩⟩, after) := by
      simp only [handle, hmethod, unary, hrequest]
      exact ⟨_, rfl⟩
    obtain ⟨after, hafter⟩ := hhandle
    rcases (refused_without_effect.2.1 _ _ _ _ _ _ _ _ hafter ⟨_, rfl⟩).2 hmethod with
      ⟨-, error, hbad⟩ | ⟨id, cause, -, -, hcause⟩
    · rw [hrequest] at hbad
      cases hbad
    · exact ⟨id, cause, after, hafter, hcause⟩
  · have h : Vigil.Reachable
        (.start overdue ⟨.ofSeconds 35 (by decide), 0⟩ "operations/a" none) _ := .start
    have h := h.step (.calm (.look _ rfl))
    have h := h.step (.visit _ (.delete "operations/a") [])
    have h := h.step (.tick _ 5000000000)
    have h := h.step (.calm (.wake _ 5000000000 rfl (by decide)))
    have h := h.step (.calm (.look _ rfl))
    exact ⟨_, rfl, rfl, refused_without_effect.2.2.2 _ _ _ _ _ _ h rfl⟩

end Rpc

end Rehearsal
