import Rehearsal.Proofs.Message.Operation
import Rehearsal.Proofs.Operation.Plan
import Rehearsal.Proofs.Retry.Replay
import Rehearsal.Proofs.Rpc.Configured
import Rehearsal.Proofs.Rpc.Session

/-!
# Failures that are asked for in advance

A failure in a script is met by the attempt whose turn it is (`Session.retry_of_setup`), and an
operation that is to fail is shown as failed from its due instant on, if nobody has deleted or
cancelled it before (`Session.looks_of_start`).
-/

namespace Rehearsal

open Message
open Time (Instant)
open Wire (Bytes)

/-! ## Scripts -/

namespace Service

variable {service : Service} {id : String} {tally : Tally}

/-- Nobody binds an identifier again that is bound, so only attempts count for it. -/
theorem add_of_bound (h : service.retries.scripts.get? id = some tally.script) (visit : Visit) :
    Tally.add id (some tally) (visit, (service.visit visit).1) =
      some { tally with
        attempts := tally.attempts + if visit.call = .retry id then 1 else 0 } := by
  obtain ⟨now, call, candidates, later⟩ := visit
  cases call with
  | setupRetry responses =>
      cases hfresh : Ident.firstFresh? service.retries.scripts.contains candidates with
      | none =>
          simp only [Service.visit, perform, RetryBook.setup_of_not_fresh responses hfresh]
          rfl
      | some fresh =>
          obtain ⟨bound, rest⟩ := fresh
          have hfree := Ident.not_inUse_of_firstFresh? hfresh
          have hbound : bound ≠ id := by
            rintro rfl
            rw [Table.contains, h] at hfree
            cases hfree
          simp only [Service.visit, perform, RetryBook.setup_of_fresh responses hfresh, Tally.add,
            if_neg hbound]
          rfl
  | retry attempted =>
      by_cases hid : attempted = id
      · simp [Tally.add, hid]
      · simp [Tally.add, hid]
  | _ => rfl

theorem script_after (h : service.retries.scripts.get? id = some tally.script)
    (visits : List Visit) :
    (service.after visits).retries.scripts.get? id = some (Tally.script { tally with
      attempts := tally.attempts + visits.countP fun visit => visit.call = .retry id }) := by
  induction visits generalizing service tally with
  | nil => exact h
  | cons visit rest ih =>
      have hnext := get?_visit (show _ = (some tally).map Tally.script from h) visit
      rw [add_of_bound h visit] at hnext
      rw [after, ih hnext, List.countP_cons]
      simp only [decide_eq_true_eq, Nat.add_assoc, Nat.add_comm]

theorem script_of_setup {visit : Visit} {responses : List Status}
    (hcall : visit.call = .setupRetry responses)
    (hset : (service.visit visit).1 = .ok (.script id)) :
    (service.visit visit).2.retries.scripts.get? id = some (Tally.script { responses }) := by
  obtain ⟨now, call, candidates, later⟩ := visit
  subst hcall
  cases hfresh : Ident.firstFresh? service.retries.scripts.contains candidates with
  | none => simp [Service.visit, perform, RetryBook.setup_of_not_fresh responses hfresh] at hset
  | some fresh =>
      obtain ⟨bound, rest⟩ := fresh
      simp only [Service.visit, perform, RetryBook.setup_of_fresh responses hfresh,
        Except.ok.injEq, Answer.script.injEq] at hset ⊢
      subst hset
      rw [Table.get?_insert_self]
      simp [Tally.script]

/-- An attempt fails with the status whose turn it is. -/
theorem retry_of_script (h : service.retries.scripts.get? id = some tally.script)
    {status : Status} (hstatus : tally.responses[tally.attempts]? = some status)
    (hcode : status.code ≠ 0) (now : Instant) :
    (service.perform now [] (.retry id)).1 = .error (.scripted status) := by
  have hanswer := answer_retry (show _ = (some tally).map Tally.script from h)
    (show (Visit.mk now (.retry id) [] []).call = _ from rfl)
  refine hanswer.trans ?_
  simp only [Tally.tell, Tally.next, hstatus, if_neg hcode]

end Service

namespace Rpc

/-! ## Which RPCs make a call -/

/-- The method and the request behind a call of the service. -/
theorem Method.of_call? {method : Method} {body : Bytes} {call : Call}
    (h : method.call? body = some call) :
    match call with
    | .setupRetry responses => method = .setupRetry ∧
        ∃ request, request? SetupRetryRequest body = some request ∧
          responses = request.responses.map (·.toStatus)
    | .retry id => method = .retry ∧ request? RetryId body = some ⟨id⟩
    | .start spec => method = .longrunning ∧
        ∃ request, request? LongrunningRequest body = some request ∧
          operationSpec request = .ok spec
    | .get name =>
        (method = .getOperation ∧ request? OperationRequest body = some ⟨name⟩) ∨
          (method = .waitOperation ∧
            ∃ request timeout, request? WaitOperationRequest body = some request ∧
              request.name = name ∧
              request.timeout.mapM (Duration.toDelay "timeout") = .ok timeout)
    | .list pageSize pageToken => method = .listOperations ∧
        ∃ request, request? ListOperationsRequest body = some request ∧
          request.pageSize = pageSize ∧ request.pageToken = pageToken
    | .cancel name => method = .cancelOperation ∧ request? OperationRequest body = some ⟨name⟩
    | .delete name => method = .deleteOperation ∧ request? OperationRequest body = some ⟨name⟩
    | .paginate asked => method = .pagination ∧
        ∃ request, request? PaginationRequest body = some request ∧
          pageRequest request = asked := by
  cases method with
  | setupRetry | listOperations | pagination | retry | getOperation | cancelOperation
    | deleteOperation =>
      obtain ⟨request, hrequest, rfl⟩ := Option.map_eq_some_iff.1 h
      first
        | exact ⟨rfl, hrequest⟩
        | exact .inl ⟨rfl, hrequest⟩
        | exact ⟨rfl, request, hrequest, rfl⟩
        | exact ⟨rfl, request, hrequest, rfl, rfl⟩
  | longrunning =>
      obtain ⟨request, hrequest, hrest⟩ := Option.bind_eq_some_iff.1 h
      obtain ⟨spec, hspec, rfl⟩ := Option.map_eq_some_iff.1 hrest
      exact ⟨rfl, request, hrequest, toOption_eq_some_iff.1 hspec⟩
  | waitOperation =>
      obtain ⟨request, hrequest, hrest⟩ := Option.bind_eq_some_iff.1 h
      obtain ⟨timeout, htimeout, rfl⟩ := Option.map_eq_some_iff.1 hrest
      exact .inr ⟨rfl, request, timeout, hrequest, rfl, toOption_eq_some_iff.1 htimeout⟩
  | _ => cases h

/-! ## What these RPCs answer -/

theorem lookOnce_of_done {service : Service} {moment : Moment} {waiter : Waiter}
    {outcome : Outcome} (h : (service.operations.get moment.clock waiter.name).1 =
      .ok ⟨waiter.name, .done outcome⟩) :
    (lookOnce service moment waiter).1 =
      .answered (.ofResult (.ok (OperationMessage.ofSnapshot ⟨waiter.name, .done outcome⟩))) := by
  cases hget : service.operations.get moment.clock waiter.name with
  | mk result later =>
      rw [hget] at h
      simp only [lookOnce, Waiter.look, hget, show result = _ from h]
      rfl

namespace Session

variable {session : Session} {occasion : Occasion}

/-- The call of the service that an event makes is made by an RPC or by a waiter who goes on. -/
theorem of_call? {call : Call} (h : session.call? occasion = some call) :
    (∃ moment candidates method body halfClosed path,
      occasion = ⟨moment, .call candidates path body halfClosed⟩ ∧
      Method.ofPath? path = some method ∧ method.call? body = some call) ∨
    ∃ moment position waiter, occasion = ⟨moment, .resume position⟩ ∧
      session.asleep[position]? = some (.waiting waiter) ∧ call = .get waiter.name := by
  obtain ⟨moment, event⟩ := occasion
  cases event with
  | call candidates path body halfClosed =>
      obtain ⟨method, hmethod, hcall⟩ := Option.bind_eq_some_iff.1 h
      exact .inl ⟨moment, candidates, method, body, halfClosed, path, rfl, hmethod, hcall⟩
  | resume position =>
      obtain ⟨asleep, hasleep, hcall⟩ := Option.bind_eq_some_iff.1 h
      cases asleep with
      | delayed result => cases hcall
      | waiting waiter =>
          cases hcall
          exact .inr ⟨moment, position, waiter, rfl, hasleep, rfl⟩

theorem meet_of_retry {id : String} (h : session.call? occasion = some (.retry id)) :
    (session.meet occasion).1 = some (.answered (.ofResult
      (readAnswer readDone
        (session.service.perform occasion.moment.clock [] (.retry id)).1))) := by
  rcases of_call? h with ⟨moment, candidates, method, body, halfClosed, path, rfl, hmethod, hcall⟩ |
    ⟨moment, position, waiter, rfl, hasleep, hcall⟩
  · obtain ⟨rfl, hrequest⟩ := Method.of_call? hcall
    simp only [meet_call, handle, hmethod, unary, request?_eq_some_iff.1 hrequest, retry,
      perform_eq]
    rfl
  · cases hcall

theorem meet_of_get {name : String} {outcome : Outcome}
    (h : session.call? occasion = some (.get name))
    (hdone : (session.service.operations.get occasion.moment.clock name).1 =
      .ok ⟨name, .done outcome⟩) :
    (session.meet occasion).1 = some (.answered (.ofResult
      (.ok (OperationMessage.ofSnapshot ⟨name, .done outcome⟩)))) := by
  rcases of_call? h with ⟨moment, candidates, method, body, halfClosed, path, rfl, hmethod, hcall⟩ |
    ⟨moment, position, waiter, rfl, hasleep, hcall⟩
  · rcases Method.of_call? hcall with ⟨rfl, hrequest⟩ |
      ⟨rfl, request, timeout, hrequest, rfl, htimeout⟩
    · have hanswer : (session.service.perform moment.clock [] (.get name)).1 =
          .ok (.operation ⟨name, .done outcome⟩) := congrArg (Except.map Answer.operation) hdone
      simp only [meet_call, handle, hmethod, unary, request?_eq_some_iff.1 hrequest, getOperation,
        perform_eq, hanswer]
      rfl
    · have hlook := @lookOnce_of_done _ _ (.begin request.name timeout moment) _ hdone
      simp only [meet_call, handle, hmethod, sleepy, request?_eq_some_iff.1 hrequest,
        waitOperation, htimeout]
      exact congrArg some hlook
  · cases hcall
    rw [meet_resume_of_some moment hasleep]
    exact congrArg some (lookOnce_of_done hdone)

/-- A page of operations as an RPC shows it. -/
def pageMessage (page : OperationPage) : ListOperationsResponse where
  operations := page.operations.map .ofSnapshot
  nextPageToken := page.nextPageToken

theorem meet_of_list {pageSize : Int32} {pageToken : String}
    (h : session.call? occasion = some (.list pageSize pageToken)) :
    (session.meet occasion).1 = some (.answered (.ofResult
      (((session.service.operations.list occasion.moment.clock pageSize pageToken).1.map
        pageMessage).mapError (·.toRpc)))) := by
  rcases of_call? h with ⟨moment, candidates, method, body, halfClosed, path, rfl, hmethod, hcall⟩ |
    ⟨moment, position, waiter, rfl, hasleep, hcall⟩
  · obtain ⟨rfl, request, hrequest, rfl, rfl⟩ := Method.of_call? hcall
    simp only [meet_call, handle, hmethod, unary, request?_eq_some_iff.1 hrequest, listOperations,
      perform_eq, Service.perform]
    cases (session.service.operations.list moment.clock request.pageSize request.pageToken).1 <;>
      rfl
  · cases hcall

section

variable {visit : Visit} (hvisit : session.visit? occasion = some visit)
include hvisit

theorem meet_of_setupRetry {responses : List Status} {id : String}
    (hcall : visit.call = .setupRetry responses)
    (hset : (session.service.visit visit).1 = .ok (.script id)) :
    (session.meet occasion).1 = some (.answered (.ofResult (.ok ({ id } : RetryId)))) := by
  obtain ⟨call, hmade, rfl⟩ := Option.map_eq_some_iff.1 hvisit
  subst hcall
  rcases of_call? hmade with ⟨moment, candidates, method, body, halfClosed, path, rfl, hmethod,
    hcall⟩ | ⟨moment, position, waiter, rfl, hasleep, hcall⟩
  · obtain ⟨rfl, request, hrequest, rfl⟩ := Method.of_call? hcall
    have hanswer : (session.service.perform moment.clock candidates
        (.setupRetry (request.responses.map (·.toStatus)))).1 = .ok (.script id) := hset
    simp only [meet_call, handle, hmethod, unary, request?_eq_some_iff.1 hrequest, setupRetry,
      perform_eq, hanswer]
    rfl
  · cases hcall

theorem meet_of_start {spec : OperationSpec} {snapshot : Snapshot}
    (hcall : visit.call = .start spec)
    (hstarted : (session.service.visit visit).1 = .ok (.operation snapshot)) :
    (session.meet occasion).1 =
      some (.answered (.ofResult (.ok (OperationMessage.ofSnapshot snapshot)))) := by
  obtain ⟨call, hmade, rfl⟩ := Option.map_eq_some_iff.1 hvisit
  subst hcall
  rcases of_call? hmade with ⟨moment, candidates, method, body, halfClosed, path, rfl, hmethod,
    hcall⟩ | ⟨moment, position, waiter, rfl, hasleep, hcall⟩
  · obtain ⟨rfl, request, hrequest, hspec⟩ := Method.of_call? hcall
    have hanswer : (session.service.perform moment.clock candidates (.start spec)).1 =
        .ok (.operation snapshot) := hstarted
    simp only [meet_call, handle, hmethod, unary, request?_eq_some_iff.1 hrequest, longrunning,
      hspec, perform_eq, hanswer]
    rfl
  · cases hcall

end

/-! ## Failures in advance -/

/-- What an RPC sets up fails in its turn, whatever else is done in between. -/
theorem retry_of_setup {visit : Visit} (hvisit : session.visit? occasion = some visit)
    {responses : List Status} (hcall : visit.call = .setupRetry responses) {id : String}
    (hset : (session.service.visit visit).1 = .ok (.script id)) (later : List Occasion)
    {attempt : Occasion}
    (hattempt : ((session.meet occasion).2.after later).call? attempt = some (.retry id))
    {status : Status}
    (hstatus : responses[((session.meet occasion).2.visits later).countP
      fun visit => visit.call = .retry id]? = some status)
    (hcode : status.code ≠ 0) :
    ∃ reply, (((session.meet occasion).2.after later).meet attempt).1 = some (.answered reply) ∧
      reply.FailsAs [] status := by
  have hscript := Service.script_of_setup hcall hset
  have hservice : (session.meet occasion).2.service = (session.service.visit visit).2 := by
    rw [service_meet, hvisit]
    rfl
  rw [← hservice] at hscript
  have hafter := Service.script_after hscript ((session.meet occasion).2.visits later)
  rw [← service_after] at hafter
  have hfails := Service.retry_of_script hafter
    (by simpa only [Nat.zero_add] using hstatus) hcode attempt.moment.clock
  rw [meet_of_retry hattempt, hfails]
  exact ⟨_, rfl, Feed.failsAs status hcode []⟩

/-- An operation that has failed, as a caller sees it. -/
def failedMessage (name : String) (status : Status) : OperationMessage where
  name
  done := true
  result := some (.error { code := status.code, message := status.message })

theorem ofSnapshot_failed (name : String) (status : Status) :
    OperationMessage.ofSnapshot ⟨name, .done (.failed status)⟩ = failedMessage name status := rfl

theorem outcome_of_code_ne_zero {spec : OperationSpec} {status : Status}
    (herror : spec.error = some status) (hcode : status.code ≠ 0) :
    spec.outcome = .failed status := by
  simp [OperationSpec.outcome, Status.failure?, herror, Option.filter, Status.isOk, hcode]

theorem state_of_start {service : Service} {visit : Visit} {spec : OperationSpec}
    (hcall : visit.call = .start spec) {status : Status} (herror : spec.error = some status)
    (hcode : status.code ≠ 0) {snapshot : Snapshot}
    (hstarted : (service.visit visit).1 = .ok (.operation snapshot))
    (hdue : spec.completion.getD visit.now ≤ visit.now) :
    snapshot.state = .done (.failed status) := by
  rw [(Service.plans_of_start hcall hstarted).1, ← outcome_of_code_ne_zero herror hcode]
  exact (Operation.OnPlan.ofSpec spec visit.now).evaluate_of_due hdue

/-- An operation that an RPC starts is shown as failed from its due instant on by everything that
looks at it, unless somebody deletes it, or cancels it while it is pending. -/
theorem looks_of_start {visit : Visit} (hvisit : session.visit? occasion = some visit)
    {spec : OperationSpec} (hcall : visit.call = .start spec) {status : Status}
    (herror : spec.error = some status) (hcode : status.code ≠ 0) {snapshot : Snapshot}
    (hstarted : (session.service.visit visit).1 = .ok (.operation snapshot))
    {later : List Occasion}
    (spared : (session.meet occasion).2.service.SparedBy snapshot.name
      ((session.meet occasion).2.visits later)) {look : Occasion}
    (hdue : spec.completion.getD visit.now ≤ look.moment.clock) :
    (((session.meet occasion).2.after later).call? look = some (.get snapshot.name) →
      (((session.meet occasion).2.after later).meet look).1 = some (.answered (.ofResult
        (.ok (failedMessage snapshot.name status))))) ∧
    ∀ pageSize pageToken,
      ((session.meet occasion).2.after later).call? look = some (.list pageSize pageToken) →
      ∃ result : Except RpcError ListOperationsResponse,
        (((session.meet occasion).2.after later).meet look).1 =
          some (.answered (.ofResult result)) ∧
        ∀ response, result = .ok response → ∀ shown ∈ response.operations,
          shown.name = snapshot.name → shown = failedMessage snapshot.name status := by
  have hplans := (Service.plans_of_start hcall hstarted).2
  rw [outcome_of_code_ne_zero herror hcode] at hplans
  have hservice : (session.meet occasion).2.service = (session.service.visit visit).2 := by
    rw [service_meet, hvisit]
    rfl
  rw [← hservice] at hplans
  have hafter := hplans.after spared
  rw [← service_after] at hafter
  constructor
  · intro hlook
    rw [meet_of_get hlook (hafter.get_of_due hdue), ofSnapshot_failed]
  · intro pageSize pageToken hlook
    refine ⟨_, meet_of_list hlook, ?_⟩
    intro response hresponse shown hshown hname
    cases hpage : (((session.meet occasion).2.after later).service.operations.list
        look.moment.clock pageSize pageToken).1 with
    | error error =>
        rw [hpage] at hresponse
        cases hresponse
    | ok page =>
        rw [hpage] at hresponse
        cases hresponse
        obtain ⟨seen, hseen, rfl⟩ := List.mem_map.1 hshown
        rw [OperationMessage.name_ofSnapshot] at hname
        rw [hafter.list_of_due hdue hpage seen hseen hname, ofSnapshot_failed]

end Session

end Rpc

end Rehearsal
