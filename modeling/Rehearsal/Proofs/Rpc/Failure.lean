import Rehearsal.Proofs.Service.Refusal
import Rehearsal.Proofs.Rpc.Session

/-!
# No call fails with the code of success

A failure that a caller has asked for has a number other than `0`, and all others have codes of
their own.  So whatever a call comes to, at once or after it has slept, it does not fail with the
code of success (`Session.Proper.answers`).
-/

namespace Rehearsal

open Rpc
open Time (Instant)
open Wire (Bytes)

/-! ## Errors of the service -/

theorem Status.kind_ne_ok {status : Status} (h : status.code ≠ 0) : status.kind ≠ .ok := by
  unfold kind
  by_cases hknown : 0 ≤ status.code ∧ status.code ≤ 16
  · intro hok
    have hcode := Code.toInt32_ofInt32 hknown
    rw [hok] at hcode
    exact h hcode.symm
  · rw [Code.ofInt32_of_not hknown]
    rintro ⟨⟩

theorem Status.code_ne_zero_of_failure? {error : Option Status} {status : Status}
    (h : Status.failure? error = some status) : status.code ≠ 0 := by
  obtain ⟨-, hfailure⟩ := Option.filter_eq_some_iff.1 h
  simpa [isOk] using hfailure

/-- An error that is reported with a code of its own, or with the number that was asked for. -/
def ServiceError.Proper : ServiceError → Prop
  | .scripted status => status.code ≠ 0
  | _ => True

theorem ServiceError.Proper.rpcCode_ne_ok {error : ServiceError} (h : error.Proper) :
    error.toRpc.code ≠ .ok := by
  cases error with
  | scripted status => exact Status.kind_ne_ok h
  | _ => rintro ⟨⟩

theorem ServiceError.proper_of_isClientError {error : ServiceError}
    (h : error.isClientError = true) : error.Proper := by
  cases error with
  | scripted status => cases h
  | _ => trivial

theorem check_proper {asked : Option Status} {error : ServiceError}
    (h : check asked = .error error) : error.Proper := by
  unfold check at h
  split at h
  · rename_i status hstatus
    cases h
    exact Status.code_ne_zero_of_failure? hstatus
  · cases h

theorem EchoItem.echo_proper {item : EchoItem} {error : ServiceError}
    (h : item.echo = .error error) : error.Proper := by
  unfold EchoItem.echo at h
  cases hcheck : check item.error with
  | error refusal =>
      rw [hcheck] at h
      cases h
      exact check_proper hcheck
  | ok _ =>
      rw [hcheck] at h
      cases h

theorem Status.outcome_proper {status : Status} {error : ServiceError}
    (h : status.outcome = .error error) : error.Proper := by
  unfold outcome at h
  split at h
  · cases h
  · rename_i hfailure
    cases h
    show status.code ≠ 0
    simpa [isOk] using hfailure

theorem RetryBook.attempt_proper {book : RetryBook} {id : String} {error : ServiceError}
    (h : (book.attempt id).1 = .error error) : error.Proper := by
  unfold attempt at h
  split at h
  · cases h
    trivial
  · split at h
    · cases h
      trivial
    · exact Status.outcome_proper h

theorem Service.perform_proper {service after : Service} {now : Instant} {candidates : List String}
    {call : Call} {later : List Instant} {error : ServiceError}
    (h : service.perform now candidates call later = (.error error, after)) : error.Proper := by
  rcases Service.perform_of_error h with ⟨hclient, -⟩ | ⟨id, status, rfl, -, -⟩
  · exact ServiceError.proper_of_isClientError hclient
  · exact RetryBook.attempt_proper (error_of_map (congrArg Prod.fst h))

/-- An error reaches its caller with the code it has, or as unknown. -/
theorem RpcError.delivered_code_ne_ok {error : RpcError} (h : error.code ≠ .ok) :
    error.delivered.code ≠ .ok := by
  unfold delivered
  dsimp only
  split
  · exact h
  · rintro ⟨⟩

namespace Rpc

open Message

/-! ## Streams -/

/-- A result that is no failure with the code of success. -/
def Proper {α : Type} (result : Except RpcError α) : Prop :=
  ∀ error, result = .error error → error.code ≠ .ok

/-- A feed that does not fail with the code of success. -/
def Feed.Proper {α : Type} (feed : Feed α) : Prop :=
  ∀ error, feed.ending = .failed error → error.code ≠ .ok

theorem Feed.proper_ofResult {α : Type} [Wire.Message α] {result : Except RpcError α}
    (h : Rpc.Proper result) : (Feed.ofResult result).Proper := by
  intro error hfailed
  cases result with
  | ok message => cases hfailed
  | error cause =>
      cases hfailed
      exact h _ rfl

theorem Feed.proper_decode {α : Type} [Wire.Message α] (messages : List Bytes) {ending : Ending}
    (h : (⟨messages, ending⟩ : Feed Bytes).Proper) : (Feed.decode α messages ending).Proper := by
  induction messages with
  | nil => exact h
  | cons message rest ih =>
      unfold Feed.decode
      split
      · rintro _ ⟨⟩ ⟨⟩
      · exact ih h

theorem unframeWithin_proper (fuel : Nat) (bytes : Bytes) : (unframeWithin fuel bytes).Proper := by
  fun_induction unframeWithin fuel bytes with
  | case1 => rintro _ ⟨⟩
  | case2 => rintro _ ⟨⟩
  | case3 => rintro _ ⟨⟩ ⟨⟩
  | case4 => rintro _ ⟨⟩ ⟨⟩
  | case5 => rintro _ ⟨⟩ ⟨⟩
  | case6 =>
      intro error hfailed
      dsimp only at hfailed
      split at hfailed
      · cases hfailed
      · cases hfailed
        rintro ⟨⟩
  | case7 fuel flag a b c d rest h1 h2 length h3 h4 later ih => exact ih
  | case8 => rintro _ ⟨⟩ ⟨⟩

theorem Feed.proper_ofBody (α : Type) [Wire.Message α] (body : Bytes) (halfClosed : Bool) :
    (Feed.ofBody α body halfClosed).Proper := by
  have hframes : (unframe body).Proper := unframeWithin_proper body.length body
  unfold Feed.ofBody
  apply Feed.proper_decode
  intro error hfailed
  dsimp only at hfailed
  split at hfailed
  · split at hfailed <;> cases hfailed
  · exact hframes error hfailed

theorem Feed.proper_single {α : Type} {feed : Feed α} (h : feed.Proper) : Rpc.Proper feed.single := by
  obtain ⟨items, ending⟩ := feed
  intro error hfailed
  cases ending with
  | failed cause =>
      cases hfailed
      exact h _ rfl
  | closed | unfinished =>
      cases items with
      | nil =>
          cases hfailed
          rintro ⟨⟩
      | cons item rest => cases hfailed

theorem chatItems_proper (items : List EchoItem) {ending : Ending}
    (h : (⟨items, ending⟩ : Feed EchoItem).Proper) : (chatItems items ending).Proper := by
  induction items with
  | nil => exact h
  | cons item rest ih =>
      unfold chatItems
      split
      · rename_i error herror
        rintro _ ⟨⟩
        exact (EchoItem.echo_proper herror).rpcCode_ne_ok
      · exact ih h

theorem collectItems_proper (collector : Collector) (items : List EchoItem) :
    Proper (collectItems collector items) := by
  induction items generalizing collector with
  | nil => rintro _ ⟨⟩
  | cons item rest ih =>
      unfold collectItems
      split
      · rename_i error herror
        rintro _ ⟨⟩
        refine ServiceError.Proper.rpcCode_ne_ok ?_
        unfold Collector.push at herror
        cases hecho : item.echo with
        | error cause =>
            rw [hecho] at herror
            cases herror
            exact EchoItem.echo_proper hecho
        | ok content =>
            rw [hecho] at herror
            cases herror
      · exact ih _

theorem collect_proper {inbound : Feed EchoItem} (h : inbound.Proper)
    {result : Except RpcError String} (hresult : collect inbound = some result) :
    Proper result := by
  unfold collect at hresult
  split at hresult
  · rename_i error herror
    cases hresult
    rintro _ ⟨⟩
    exact collectItems_proper {} inbound.items error herror
  · split at hresult
    · cases hresult
      rintro _ ⟨⟩
    · rename_i error hending
      cases hresult
      rintro _ ⟨⟩
      exact h error hending
    · cases hresult

theorem expand_proper (item : EchoItem) : (expand item).Proper := by
  unfold expand
  cases hcheck : check item.error with
  | ok _ => rintro _ ⟨⟩
  | error error =>
      rintro _ ⟨⟩
      exact (check_proper hcheck).rpcCode_ne_ok

/-! ## Handlers -/

theorem toDelay_proper (field : String) (duration : Duration) :
    Proper (duration.toDelay field) := by
  intro error herror
  unfold Duration.toDelay at herror
  dsimp only at herror
  split at herror <;> cases herror
  rintro ⟨⟩

theorem toInstant_proper (timestamp : Timestamp) : Proper timestamp.toInstant := by
  intro error herror
  unfold Timestamp.toInstant at herror
  split at herror
  · cases herror
    rintro ⟨⟩
  · split at herror <;> cases herror
    rintro ⟨⟩

theorem mapM_proper {α β : Type} {f : α → Except RpcError β} (h : ∀ a, Proper (f a))
    (value : Option α) : Proper (value.mapM f) := by
  intro error herror
  cases value with
  | none => cases herror
  | some a =>
      cases hvalue : f a with
      | ok b =>
          rw [Option.mapM_some, hvalue] at herror
          cases herror
      | error cause =>
          rw [Option.mapM_some, hvalue] at herror
          cases herror
          exact h a _ hvalue

theorem operationSpec_proper (request : LongrunningRequest) : Proper (operationSpec request) := by
  intro error herror
  unfold operationSpec at herror
  cases hcompletion : request.completionTime.mapM (·.toInstant) with
  | ok completion =>
      rw [hcompletion] at herror
      cases herror
  | error cause =>
      rw [hcompletion] at herror
      cases herror
      exact mapM_proper toInstant_proper _ _ hcompletion

theorem perform_proper {α : Type} (service : Service) (now : Instant) (candidates : List String)
    (call : Call) (read : Answer → Option α) :
    Proper (perform service now candidates call read).1 := by
  intro error herror
  unfold perform at herror
  split at herror
  · rename_i cause after hcause
    cases herror
    exact (Service.perform_proper hcause).rpcCode_ne_ok
  · split at herror <;> cases herror
    rintro ⟨⟩

theorem longrunning_proper (service : Service) (now : Instant) (candidates : List String)
    (request : LongrunningRequest) : Proper (longrunning service now candidates request).1 := by
  unfold longrunning
  split
  · rename_i error herror
    rintro _ ⟨⟩
    exact operationSpec_proper request _ herror
  · apply perform_proper

theorem echo_proper (request : EchoRequest) : Proper (echo request) := by
  intro error herror
  unfold echo at herror
  split at herror
  · cases herror
  · rename_i cause hcause
    cases herror
    exact (EchoItem.echo_proper hcause).rpcCode_ne_ok

/-- The call will not fail with the code of success when it goes on, whatever it looks at then. -/
def Suspended.Proper : Suspended → Prop
  | .delayed result => Rpc.Proper result
  | .waiting _ => True

/-- The call does not fail with the code of success, nor will it once it has slept. -/
def Progress.Proper : Progress → Prop
  | .answered reply => reply.Proper
  | .asleep _ call => call.Proper

theorem timeout_proper (moment : Moment) (request : TimeoutRequest) :
    (timeout moment request).Proper := by
  unfold timeout
  split
  · rename_i error herror
    apply Feed.proper_ofResult
    rintro _ ⟨⟩
    exact mapM_proper (toDelay_proper "response_delay") _ _ herror
  · intro error herror
    split at herror
    · cases herror
    · rename_i cause hcause
      cases herror
      exact (check_proper hcause).rpcCode_ne_ok

theorem lookOnce_proper (service : Service) (moment : Moment) (waiter : Waiter) :
    (lookOnce service moment waiter).1.Proper := by
  have hfinished (result : Except ServiceError Snapshot)
      (h : ∀ error, result = .error error → error.Proper) :
      (waitProgress waiter (.finished result)).Proper := by
    apply Feed.proper_ofResult
    intro error herror
    cases result with
    | ok snapshot => cases herror
    | error cause =>
        cases herror
        exact (h _ rfl).rpcCode_ne_ok
  cases hget : service.operations.get moment.clock waiter.name with
  | mk result later =>
      simp only [lookOnce, Waiter.look, hget]
      cases result with
      | error cause =>
          apply hfinished
          rintro _ ⟨⟩
          have hrefused := OperationBook.update_refused (congrArg Prod.fst hget)
          exact ServiceError.proper_of_isClientError hrefused.1
      | ok snapshot =>
          have hpending : (waitProgress waiter (.finished (.ok snapshot))).Proper :=
            hfinished _ (by rintro _ ⟨⟩)
          dsimp only
          unfold Waiter.decide
          split
          · exact hpending
          · unfold Waiter.settle
            split
            · trivial
            · split
              · exact hpending
              · trivial

theorem waitOperation_proper (service : Service) (moment : Moment)
    (request : WaitOperationRequest) : (waitOperation service moment request).1.Proper := by
  unfold waitOperation
  split
  · rename_i error herror
    apply Feed.proper_ofResult
    rintro _ ⟨⟩
    exact mapM_proper (toDelay_proper "timeout") _ _ herror
  · apply lookOnce_proper

theorem Suspended.Proper.resume {call : Suspended} (h : call.Proper) (service : Service)
    (moment : Moment) : (call.resume service moment).1.Proper := by
  cases call with
  | delayed result => exact Feed.proper_ofResult h
  | waiting waiter => exact lookOnce_proper service moment waiter

/-! ## All methods -/

theorem single_proper (α : Type) [Wire.Message α] (body : Bytes) :
    Proper (Feed.ofBody α body true).single :=
  Feed.proper_single (Feed.proper_ofBody α body true)

theorem unary_proper {α β : Type} [Wire.Message α] [Wire.Message β] (service : Service)
    (body : Bytes) {handler : α → Except RpcError β × Service}
    (h : ∀ request, Proper (handler request).1) : (unary service body handler).1.Proper := by
  unfold unary
  split
  · rename_i error herror
    apply Feed.proper_ofResult
    rintro _ ⟨⟩
    exact single_proper α body _ herror
  · rename_i request hrequest
    exact Feed.proper_ofResult (h request)

theorem sleepy_proper {α : Type} [Wire.Message α] (service : Service) (body : Bytes)
    {handler : α → Progress × Service} (h : ∀ request, (handler request).1.Proper) :
    (sleepy service body handler).1.Proper := by
  unfold sleepy
  split
  · rename_i error herror
    rintro _ ⟨⟩
    exact single_proper α body _ herror
  · rename_i request hrequest
    exact h request

/-- An RPC does not fail with the code of success, nor will it once it has slept. -/
theorem handle_proper (service : Service) (moment : Moment) (candidates : List String)
    (path : String) (body : Bytes) (halfClosed : Bool) :
    (handle service moment candidates path body halfClosed).1.Proper := by
  have hinbound := Feed.proper_ofBody EchoRequest body halfClosed
  unfold handle
  cases Method.ofPath? path with
  | none => rintro _ ⟨⟩ ⟨⟩
  | some method =>
      cases method with
      | setupRetry | retry | pagination | listOperations | getOperation | deleteOperation
        | cancelOperation =>
          apply unary_proper
          intro request
          apply perform_proper
      | longrunning =>
          apply unary_proper
          intro request
          apply longrunning_proper
      | parameterFlattening | resourceName =>
          apply unary_proper
          rintro request _ ⟨⟩
      | echo =>
          apply unary_proper
          intro request
          exact echo_proper request
      | timeout =>
          apply sleepy_proper
          intro request
          exact timeout_proper moment request
      | waitOperation =>
          apply sleepy_proper
          intro request
          exact waitOperation_proper service moment request
      | expand =>
          dsimp only
          split
          · rename_i error herror
            rintro _ ⟨⟩
            exact single_proper EchoRequest body _ herror
          · exact expand_proper _
      | chat => exact chatItems_proper _ hinbound
      | collect =>
          dsimp only
          split
          · rintro _ ⟨⟩
          · rename_i result hresult
            apply Feed.proper_ofResult
            intro error herror
            cases result with
            | ok content => cases herror
            | error cause =>
                cases herror
                exact collect_proper hinbound hresult _ rfl

/-! ## Sessions -/

namespace Session

/-- No call that sleeps will fail with the code of success. -/
def Proper (session : Session) : Prop := ∀ call ∈ session.asleep, call.Proper

theorem proceed_proper {asleep : List Suspended} {result : Progress × Service}
    (hasleep : ∀ call ∈ asleep, call.Proper) (h : result.1.Proper) :
    (∀ progress, (proceed asleep result).1 = some progress → progress.Proper) ∧
      (proceed asleep result).2.Proper := by
  refine ⟨fun progress hprogress => Option.some.inj hprogress ▸ h, ?_⟩
  intro call hcall
  rcases List.mem_append.1 hcall with hcall | hcall
  · exact hasleep call hcall
  · obtain ⟨progress, later⟩ := result
    cases progress with
    | answered reply => cases hcall
    | asleep wake slept =>
        rw [List.mem_singleton.1 hcall]
        exact h

theorem Proper.meet {session : Session} (h : session.Proper) (occasion : Occasion) :
    (∀ progress, (session.meet occasion).1 = some progress → progress.Proper) ∧
      (session.meet occasion).2.Proper := by
  obtain ⟨moment, event⟩ := occasion
  cases event with
  | call candidates path body halfClosed =>
      exact proceed_proper h (handle_proper session.service moment candidates path body halfClosed)
  | resume position =>
      cases hcall : session.asleep[position]? with
      | none =>
          rw [meet_resume_of_none moment hcall]
          refine ⟨?_, h⟩
          rintro _ ⟨⟩
      | some call =>
          rw [meet_resume_of_some moment hcall]
          refine proceed_proper (fun other hother => h other (List.mem_of_mem_eraseIdx hother)) ?_
          exact (h call (List.mem_of_getElem? hcall)).resume session.service moment

/-- Nothing fails with the code of success in a run of a session. -/
theorem Proper.answers {session : Session} (h : session.Proper) (occasions : List Occasion) :
    ∀ progress, some progress ∈ session.answers occasions → progress.Proper := by
  induction occasions generalizing session with
  | nil => rintro _ ⟨⟩
  | cons occasion rest ih =>
      obtain ⟨hprogress, hafter⟩ := h.meet occasion
      intro progress hmem
      rcases List.mem_cons.1 hmem with heq | hmem
      · exact hprogress progress heq.symm
      · exact ih hafter progress hmem

end Session

end Rpc

end Rehearsal
