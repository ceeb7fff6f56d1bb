import Rehearsal.Service

/-!
# Refused calls leave the service alone

A call that the service refuses leaves the service as it was: every check comes before the first
change.  A call fails as its caller has asked for only if it is an attempt under an identifier, and
then it has claimed the status that it fails with and changed nothing else (`Service.Claims`).
`Service.perform_of_error` is all that a failing call can do.
-/

namespace Rehearsal

open Time (Instant)

/-! ## Calls on the books -/

theorem error_of_map {α β : Type} {f : α → β} {result : Except ServiceError α}
    {error : ServiceError} (h : result.map f = .error error) : result = .error error := by
  cases result with
  | error _ =>
      cases h
      rfl
  | ok _ => cases h

theorem ok_of_map {α β : Type} {f : α → β} {result : Except ServiceError α} {answer : β}
    (h : result.map f = .ok answer) : ∃ value, result = .ok value ∧ f value = answer := by
  cases result with
  | error _ => cases h
  | ok value =>
      cases h
      exact ⟨value, rfl, rfl⟩

theorem Status.eq_scripted_of_outcome {status : Status} {error : ServiceError}
    (h : status.outcome = .error error) : error = .scripted status := by
  unfold outcome at h
  split at h
  · cases h
  · cases h
    rfl

theorem Script.claim_eq_some {script later : Script} {status : Status}
    (h : script.claim = some (status, later)) :
    script.responses[script.cursor]? = some status ∧
      later = { script with cursor := script.cursor + 1 } := by
  obtain ⟨found, hfound, heq⟩ := Option.map_eq_some_iff.1 h
  cases heq
  exact ⟨hfound, rfl⟩

/-- An attempt fails because the service refuses it, or with the status that it has claimed. -/
theorem RetryBook.attempt_of_error {book : RetryBook} {id : String} {error : ServiceError}
    (h : (book.attempt id).1 = .error error) :
    (error.isClientError = true ∧ (book.attempt id).2 = book) ∨
    ∃ script status, book.scripts.get? id = some script ∧
      script.responses[script.cursor]? = some status ∧ error = .scripted status ∧
      (book.attempt id).2 =
        ⟨book.scripts.insert id { script with cursor := script.cursor + 1 }⟩ := by
  cases hscript : book.scripts.get? id with
  | none =>
      rw [attempt_of_none hscript] at h ⊢
      cases h
      exact .inl ⟨rfl, rfl⟩
  | some script =>
      cases hclaim : script.claim with
      | none =>
          rw [attempt_of_claimed hscript hclaim] at h ⊢
          cases h
          exact .inl ⟨rfl, rfl⟩
      | some claim =>
          obtain ⟨status, later⟩ := claim
          obtain ⟨hstatus, hlater⟩ := Script.claim_eq_some hclaim
          rw [attempt_of_claim hscript hclaim] at h ⊢
          refine .inr ⟨script, status, rfl, hstatus, Status.eq_scripted_of_outcome h, ?_⟩
          rw [hlater]

namespace OperationBook

variable {book : OperationBook} {error : ServiceError}

theorem update_refused {name : String} {act : Operation → OperationState × Operation}
    (h : (book.update name act).1 = .error error) :
    error.isClientError = true ∧ (book.update name act).2 = book := by
  cases hop : book.operations.get? name with
  | none =>
      rw [update_of_none act hop] at h ⊢
      cases h
      exact ⟨rfl, rfl⟩
  | some op =>
      rw [update_of_some act hop] at h
      cases h

theorem delete_refused {name : String} (h : (book.delete name).1 = .error error) :
    error.isClientError = true ∧ (book.delete name).2 = book := by
  cases hop : book.operations.get? name with
  | none =>
      rw [delete_of_none hop] at h ⊢
      cases h
      exact ⟨rfl, rfl⟩
  | some op =>
      rw [delete_of_some hop] at h
      cases h

theorem list_refused {now : Instant} {pageSize : Int32} {pageToken : String}
    {later : List Instant} (h : (book.list now pageSize pageToken later).1 = .error error) :
    (∃ reason, error = .invalidPageToken pageToken reason) ∧
      (book.list now pageSize pageToken later).2 = book := by
  cases hparse : Paging.Token.parse pageToken book.operations.names.length with
  | error refusal =>
      rw [list_of_error now pageSize later hparse] at h ⊢
      cases h
      exact ⟨Paging.Token.eq_invalidPageToken_of_parse hparse, rfl⟩
  | ok start =>
      rw [list_of_ok now pageSize later hparse] at h
      cases h

/-- A look at an operation that is pending changes nothing. -/
theorem get_of_pending {now : Instant} {name : String} {snapshot : Snapshot}
    (h : (book.get now name).1 = .ok snapshot) (hpending : snapshot.isDone = false) :
    (book.get now name).2 = book := by
  unfold get at h ⊢
  cases hop : book.operations.get? name with
  | none =>
      rw [update_of_none _ hop] at h
      cases h
  | some op =>
      rw [update_of_some _ hop] at h ⊢
      cases h
      cases hr : op.recorded with
      | some outcome =>
          rw [Operation.evaluate_of_recorded hr] at hpending
          cases hpending
      | none =>
          by_cases hdue : op.due ≤ now
          · rw [Operation.evaluate_of_due hr hdue] at hpending
            cases hpending
          · rw [Operation.evaluate_of_not_due hr hdue, Table.insert_of_get? hop]

end OperationBook

theorem Paging.isClientError_of_paginate {request : PageRequest} {fallback : Int32}
    {error : ServiceError} (h : paginate request fallback = .error error) :
    error.isClientError = true := by
  by_cases hneg : request.maxResponse < 0
  · rw [paginate_of_neg fallback hneg] at h
    cases h
    rfl
  · have hpos := Int32.not_lt.1 hneg
    cases hparse : Token.parse request.pageToken request.maxResponse.toInt.toNat with
    | error refusal =>
        rw [paginate_of_refused fallback hpos hparse] at h
        cases h
        obtain ⟨reason, rfl⟩ := Token.eq_invalidPageToken_of_parse hparse
        rfl
    | ok start =>
        cases hsize : request.size? fallback with
        | none =>
            rw [paginate_of_none hpos hparse hsize] at h
            cases h
            rfl
        | some size =>
            by_cases hlarge : maxPageSize < size
            · rw [paginate_of_large hpos hparse hsize hlarge] at h
              cases h
              rfl
            · rw [paginate_of_fits hpos hparse hsize (Int32.not_lt.1 hlarge)] at h
              cases h

/-! ## Calls on the service -/

/-- An attempt under an identifier has claimed a status: the cursor of its script has moved past the
status, and nothing else has changed. -/
def Service.Claims (service : Service) (id : String) (status : Status) (after : Service) : Prop :=
  ∃ script, service.retries.scripts.get? id = some script ∧
    script.responses[script.cursor]? = some status ∧
    after = { service with
      retries := ⟨service.retries.scripts.insert id { script with cursor := script.cursor + 1 }⟩ }

/-- The answers that there are to a call. -/
def Call.Answers : Call → Answer → Prop
  | .setupRetry _, .script _ => True
  | .retry _, .done => True
  | .start _, .operation _ => True
  | .get _, .operation _ => True
  | .list .., .operations _ => True
  | .cancel _, .operation _ => True
  | .delete _, .done => True
  | .paginate _, .page _ => True
  | _, _ => False

namespace Service

variable {service after : Service} {now : Instant} {candidates : List String} {call : Call}
  {later : List Instant} {error : ServiceError}

theorem eq_of_operations {book : OperationBook}
    (hafter : { service with operations := book } = after) (hsame : book = service.operations) :
    after = service := by
  rw [← hafter, hsame]

/-- All that a failing call can do. -/
theorem perform_of_error
    (h : service.perform now candidates call later = (.error error, after)) :
    (error.isClientError = true ∧ after = service) ∨
    ∃ id status, call = .retry id ∧ error = .scripted status ∧
      service.Claims id status after := by
  have hresult := congrArg Prod.fst h
  have hafter := congrArg Prod.snd h
  cases call with
  | setupRetry responses =>
      simp only [perform] at h
      split at h <;> cases h
  | start spec =>
      simp only [perform] at h
      split at h <;> cases h
  | retry id =>
      rcases RetryBook.attempt_of_error (error_of_map hresult) with ⟨hclient, hsame⟩ |
        ⟨script, status, hscript, hstatus, herror, hmoved⟩
      · refine .inl ⟨hclient, hafter.symm.trans ?_⟩
        show { service with retries := (service.retries.attempt id).2 } = service
        rw [hsame]
      · refine .inr ⟨id, status, rfl, herror, script, hscript, hstatus, hafter.symm.trans ?_⟩
        show { service with retries := (service.retries.attempt id).2 } = _
        rw [hmoved]
  | get name =>
      have hrefused : (service.operations.get now name).1 = .error error := error_of_map hresult
      obtain ⟨hclient, hsame⟩ := OperationBook.update_refused hrefused
      exact .inl ⟨hclient, eq_of_operations hafter hsame⟩
  | cancel name =>
      have hrefused : (service.operations.cancel now name).1 = .error error := error_of_map hresult
      obtain ⟨hclient, hsame⟩ := OperationBook.update_refused hrefused
      exact .inl ⟨hclient, eq_of_operations hafter hsame⟩
  | delete name =>
      obtain ⟨hclient, hsame⟩ := OperationBook.delete_refused (error_of_map hresult)
      exact .inl ⟨hclient, eq_of_operations hafter hsame⟩
  | list pageSize pageToken =>
      obtain ⟨⟨reason, rfl⟩, hsame⟩ := OperationBook.list_refused (error_of_map hresult)
      exact .inl ⟨rfl, eq_of_operations hafter hsame⟩
  | paginate request =>
      exact .inl ⟨Paging.isClientError_of_paginate (error_of_map hresult), hafter.symm⟩

/-- A call that succeeds has an answer of its own kind, but for a name that cannot be found. -/
theorem perform_of_ok {answer : Answer}
    (h : service.perform now candidates call later = (.ok answer, after)) :
    (answer = .noName ∧ after = service) ∨ call.Answers answer := by
  have hresult := congrArg Prod.fst h
  cases call with
  | setupRetry responses =>
      simp only [perform] at h
      split at h
      · cases h
        exact .inr trivial
      · cases h
        exact .inl ⟨rfl, rfl⟩
  | start spec =>
      simp only [perform] at h
      split at h
      · cases h
        exact .inr trivial
      · cases h
        exact .inl ⟨rfl, rfl⟩
  | _ =>
      obtain ⟨result, -, rfl⟩ := ok_of_map hresult
      exact .inr trivial

end Service

end Rehearsal
