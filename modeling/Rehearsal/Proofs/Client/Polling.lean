import Mathlib.Data.Nat.Find
import Rehearsal.Client.Polling
import Rehearsal.Command.Run
import Rehearsal.Proofs.Message.Operation
import Rehearsal.Proofs.Message.Requests
import Rehearsal.Proofs.Operation.Plan
import Rehearsal.Proofs.Rpc.Call
import Rehearsal.Proofs.Rpc.Lookout
import Rehearsal.Proofs.Time.Instant

/-!
# Polls until an operation is done

The loop of a polling client ends with the first poll that does not find the operation pending
(`waitForOperation_of_first`), and what it is told then stays true as long as nobody deletes the
operation.  An operation that is left alone is found pending before it is due and done from then on
(`Undisturbed.answer_eq`), so the loop ends if the clock comes that far.
-/

namespace Rehearsal.Client

open Message (OperationMessage OperationRequest)
open Rpc (getOperation)
open Time (Instant Span)

/-! ## One poll -/

theorem done_ofSnapshot (snapshot : Snapshot) :
    (OperationMessage.ofSnapshot snapshot).done = snapshot.isDone := by
  obtain ⟨name, state⟩ := snapshot
  rcases state with remaining | content | status <;> rfl

namespace Enquiry

variable {enquiry : Enquiry} {op : Operation}

theorem left_eq (enquiry : Enquiry) :
    enquiry.left = { enquiry.service with
      operations := (enquiry.service.operations.get enquiry.now enquiry.name).2 } := by
  rw [left, reply, getOperation, Rpc.perform_eq]
  rfl

theorem answer_of_none
    (h : enquiry.service.operations.operations.get? enquiry.name = none) :
    enquiry.answer = .error (ServiceError.operationNotFound enquiry.name).toRpc := by
  rw [answer, reply, Rpc.getOperation_eq, OperationBook.get_of_none h]
  rfl

theorem answer_of_some
    (h : enquiry.service.operations.operations.get? enquiry.name = some op) :
    enquiry.answer = .ok (.ofSnapshot ⟨enquiry.name, (op.evaluate enquiry.now).1⟩) := by
  rw [answer, reply, Rpc.getOperation_eq, OperationBook.get_of_some h]
  rfl

theorem not_isPending {outcome : Outcome}
    (h : enquiry.answer = .ok (.ofSnapshot ⟨enquiry.name, .done outcome⟩)) :
    ¬ enquiry.IsPending := by
  rintro ⟨remaining, hpending⟩
  have hdone := congrArg OperationMessage.done (Except.ok.inj (hpending.symm.trans h))
  rw [done_ofSnapshot, done_ofSnapshot] at hdone
  cases hdone

/-- A poll that does not find the operation pending has found it done, or not at all. -/
theorem done_or_failed (h : ¬ enquiry.IsPending) :
    (∃ outcome, enquiry.answer = .ok (.ofSnapshot ⟨enquiry.name, .done outcome⟩)) ∨
      enquiry.answer = .error (ServiceError.operationNotFound enquiry.name).toRpc := by
  cases hop : enquiry.service.operations.operations.get? enquiry.name with
  | none => exact .inr (answer_of_none hop)
  | some op =>
      have hanswer := answer_of_some hop
      cases hstate : (op.evaluate enquiry.now).1 with
      | pending remaining => exact absurd ⟨remaining, hstate ▸ hanswer⟩ h
      | done outcome => exact .inl ⟨outcome, hstate ▸ hanswer⟩

end Enquiry

/-! ## The loop -/

section

variable {σ : Type} {poll : String → σ → Except RpcError OperationMessage × σ} {fuel : Nat}
  {operation later : OperationMessage} {world next : σ}

theorem waitForOperation_of_done (h : operation.done = true) :
    waitForOperation poll fuel operation world = (some (.ok operation), world) := by
  unfold waitForOperation
  rw [if_pos h]

theorem waitForOperation_zero (h : operation.done = false) :
    waitForOperation poll 0 operation world = (none, world) := by
  simp [waitForOperation, h]

theorem waitForOperation_of_error (h : operation.done = false) {error : RpcError}
    (hpoll : poll operation.name world = (.error error, next)) :
    waitForOperation poll (fuel + 1) operation world = (some (.error error), next) := by
  simp [waitForOperation, h, hpoll]

theorem waitForOperation_of_ok (h : operation.done = false)
    (hpoll : poll operation.name world = (.ok later, next)) :
    waitForOperation poll (fuel + 1) operation world = waitForOperation poll fuel later next := by
  rw [waitForOperation, h, if_neg Bool.false_ne_true]
  simp only [hpoll]

end

section

variable {shared : Shared} {fuel : Nat} {operation : OperationMessage}

theorem waitForOperation_of_pending (h : operation.done = false)
    (hpending : (shared.enquiry operation.name).IsPending) (fuel : Nat) :
    ∃ later : OperationMessage, later.done = false ∧ later.name = operation.name ∧
      waitForOperation Shared.poll (fuel + 1) operation shared =
        waitForOperation Shared.poll fuel later (shared.poll operation.name).2 := by
  obtain ⟨remaining, hanswer⟩ := hpending
  exact ⟨.ofSnapshot ⟨operation.name, .pending remaining⟩, rfl, rfl,
    waitForOperation_of_ok h (Prod.ext hanswer rfl)⟩

theorem waitForOperation_of_not_pending (h : operation.done = false)
    (hfound : ¬ (shared.enquiry operation.name).IsPending) :
    waitForOperation Shared.poll (fuel + 1) operation shared =
      (some (shared.enquiry operation.name).answer, (shared.poll operation.name).2) := by
  rcases Enquiry.done_or_failed hfound with ⟨outcome, hanswer⟩ | hanswer
  · have hdone : (OperationMessage.ofSnapshot ⟨operation.name, .done outcome⟩).done = true :=
      done_ofSnapshot _
    rw [waitForOperation_of_ok h (Prod.ext hanswer rfl), hanswer]
    exact waitForOperation_of_done hdone
  · rw [waitForOperation_of_error h (Prod.ext hanswer rfl), hanswer]

/-- The loop ends with the first poll that does not find the operation pending. -/
theorem waitForOperation_of_first (h : operation.done = false) {k : Nat} (hk : k < fuel)
    (hbefore : ∀ i < k, (shared.enquiryAt operation.name i).IsPending)
    (hfound : ¬ (shared.enquiryAt operation.name k).IsPending) :
    waitForOperation Shared.poll fuel operation shared =
      (some (shared.enquiryAt operation.name k).answer,
        shared.polled operation.name (k + 1)) := by
  induction k generalizing shared fuel operation with
  | zero =>
      obtain ⟨fuel, rfl⟩ := Nat.exists_eq_succ_of_ne_zero (Nat.ne_of_gt hk)
      exact waitForOperation_of_not_pending h hfound
  | succ k ih =>
      obtain ⟨fuel, rfl⟩ := Nat.exists_eq_succ_of_ne_zero (Nat.ne_zero_of_lt hk)
      have hfirst : (shared.enquiry operation.name).IsPending := hbefore 0 (Nat.zero_lt_succ k)
      obtain ⟨later, hlater, hname, hwait⟩ := waitForOperation_of_pending h hfirst fuel
      rw [Nat.succ_eq_add_one, hwait]
      rw [← hname] at hbefore hfound ⊢
      exact ih hlater (Nat.lt_of_succ_lt_succ hk)
        (fun i hi => hbefore (i + 1) (Nat.succ_lt_succ hi)) hfound

/-- The loop goes on as long as all polls find the operation pending. -/
theorem waitForOperation_of_all (h : operation.done = false)
    (hpending : ∀ i < fuel, (shared.enquiryAt operation.name i).IsPending) :
    waitForOperation Shared.poll fuel operation shared =
      (none, shared.polled operation.name fuel) := by
  induction fuel generalizing shared operation with
  | zero => exact waitForOperation_zero h
  | succ fuel ih =>
      have hfirst : (shared.enquiry operation.name).IsPending := hpending 0 (Nat.zero_lt_succ fuel)
      obtain ⟨later, hlater, hname, hwait⟩ := waitForOperation_of_pending h hfirst fuel
      rw [hwait]
      rw [← hname] at hpending ⊢
      exact ih hlater fun i hi => hpending (i + 1) (Nat.succ_lt_succ hi)

/-- What the loop comes to with a number of polls at most. -/
theorem waitForOperation_cases (h : operation.done = false) (fuel : Nat) (shared : Shared) :
    (∃ k < fuel, (∀ i < k, (shared.enquiryAt operation.name i).IsPending) ∧
      ¬ (shared.enquiryAt operation.name k).IsPending ∧
      waitForOperation Shared.poll fuel operation shared =
        (some (shared.enquiryAt operation.name k).answer,
          shared.polled operation.name (k + 1))) ∨
    ((∀ i < fuel, (shared.enquiryAt operation.name i).IsPending) ∧
      waitForOperation Shared.poll fuel operation shared =
        (none, shared.polled operation.name fuel)) := by
  classical
  by_cases hall : ∀ i < fuel, (shared.enquiryAt operation.name i).IsPending
  · exact .inr ⟨hall, waitForOperation_of_all h hall⟩
  · have hsome : ∃ i, i < fuel ∧ ¬ (shared.enquiryAt operation.name i).IsPending := by
      simpa using hall
    have hbefore : ∀ i < Nat.find hsome, (shared.enquiryAt operation.name i).IsPending := by
      intro i hi
      have hmin := Nat.find_min hsome hi
      have hlt := (Nat.find_spec hsome).1
      exact Classical.byContradiction fun hnot => hmin ⟨by omega, hnot⟩
    obtain ⟨hk, hfound⟩ := Nat.find_spec hsome
    exact .inl ⟨_, hk, hbefore, hfound, waitForOperation_of_first h hk hbefore hfound⟩

end

/-! ## One poll after another -/

namespace Shared

variable (shared : Shared) (name : String)

theorem polled_succ (count : Nat) :
    shared.polled name (count + 1) = ((shared.polled name count).poll name).2 := by
  induction count generalizing shared with
  | zero => rfl
  | succ count ih => exact ih (shared.poll name).2

theorem pauses_polled (count i : Nat) :
    (shared.polled name count).pauses i = shared.pauses (count + i) := by
  induction count generalizing shared with
  | zero => rw [Nat.zero_add, polled]
  | succ count ih =>
      rw [polled, ih, Nat.add_right_comm]
      rfl

theorem enquiries_polled (count : Nat) :
    (shared.polled name count).enquiries =
      ((List.range count).map (shared.enquiryAt name)).reverse ++ shared.enquiries := by
  induction count generalizing shared with
  | zero => rfl
  | succ count ih =>
      rw [polled, ih, List.range_succ_eq_map, List.map_cons, List.map_map, List.reverse_cons,
        List.append_assoc]
      rfl

theorem now_enquiryAt (i : Nat) : (shared.enquiryAt name i).now = (shared.pauses i).now :=
  congrArg Pause.now (shared.pauses_polled name i 0)

theorem service_enquiryAt_succ (i : Nat) :
    (shared.enquiryAt name (i + 1)).service =
      (shared.enquiryAt name i).left.after (shared.pauses (i + 1)).visits := by
  have hpause := shared.pauses_polled name (i + 1) 0
  rw [enquiryAt, enquiry, hpause, polled_succ]
  rfl

end Shared

/-! ## What stays true -/

/-- Once an operation has been found done, it is found so until it is deleted. -/
theorem Enquiry.answer_stays {enquiry : Enquiry} {found : OperationMessage}
    (hanswer : enquiry.answer = .ok found) (hdone : found.done = true) :
    ∃ outcome, found = .ofSnapshot ⟨enquiry.name, .done outcome⟩ ∧
      ∀ visits : List Visit, (∀ visit ∈ visits, visit.call ≠ .delete enquiry.name) →
        ∀ now, (getOperation (enquiry.left.after visits) now ⟨enquiry.name⟩).1 = .ok found := by
  cases hop : enquiry.service.operations.operations.get? enquiry.name with
  | none =>
      rw [answer_of_none hop] at hanswer
      cases hanswer
  | some op =>
      rw [answer_of_some hop] at hanswer
      cases hanswer
      cases hstate : (op.evaluate enquiry.now).1 with
      | pending remaining =>
          rw [done_ofSnapshot, hstate] at hdone
          cases hdone
      | done outcome =>
          have hleft : enquiry.left.operations.Has enquiry.name (·.recorded = some outcome) := by
            rw [left_eq, OperationBook.get_of_some hop]
            exact OperationBook.Has.insert (Operation.recorded_evaluate hstate)
          refine ⟨outcome, rfl, fun visits hvisits now => ?_⟩
          obtain ⟨later, hlater, hrecorded⟩ := hleft.after
            (fun _ _ reading _ op hr => by rwa [Operation.evaluate_of_recorded hr])
            (fun visit _ _ op hr => by rwa [Operation.cancel_of_recorded hr]) hvisits
          rw [Rpc.getOperation_eq, OperationBook.get_of_recorded hlater hrecorded]
          rfl

/-! ## Operations that are left alone -/

/-- An operation that is on its plan, and has not ended before it was due by a clock that has not
gone beyond a reading. -/
structure Punctual (due : Instant) (planned : Outcome) (reading : Instant) (op : Operation) :
    Prop where
  plan : op.OnPlan due planned
  waits : reading < due → op.recorded = none

namespace Punctual

variable {due reading later : Instant} {planned : Outcome} {op : Operation}

theorem mono (h : Punctual due planned reading op) (hle : reading ≤ later) :
    Punctual due planned later op where
  plan := h.plan
  waits hlt := h.waits (Instant.lt_of_le_of_lt hle hlt)

theorem evaluate (h : Punctual due planned reading op) {now : Instant} (hnow : now ≤ reading) :
    Punctual due planned reading (op.evaluate now).2 where
  plan := h.plan.evaluate now
  waits hlt := by
    have hr := h.waits hlt
    have hdue : ¬ op.due ≤ now := by
      rw [h.plan.due]
      exact Instant.not_le.2 (Instant.lt_of_le_of_lt hnow hlt)
    rw [Operation.evaluate_of_not_due hr hdue]
    exact hr

/-- A cancellation that comes when the operation is due changes nothing. -/
theorem cancel (h : Punctual due planned reading op) {now : Instant} (hdue : due ≤ now)
    (hnow : now ≤ reading) : Punctual due planned reading (op.cancel now).2 where
  plan := h.plan.cancel fun remaining hpending => by
    rw [h.plan.evaluate_of_due hdue] at hpending
    cases hpending
  waits hlt := absurd (Instant.le_trans hdue hnow) (Instant.not_le.2 hlt)

end Punctual

/-- While an operation is polled nobody cancels or deletes it, and the clock goes on: it does not
go back between one poll and the next, and until the operation is due it is at least an interval
later at the next poll. -/
structure Undisturbed (pauses : Nat → Pause) (name : String) (op : Operation) (interval : Span) :
    Prop where
  positive : 0 < interval.nanos
  advances (i : Nat) : (pauses i).now < op.due →
    ∃ next, (pauses i).now.add? interval = some next ∧ next ≤ (pauses (i + 1)).now
  readings (i : Nat) : ∀ visit ∈ (pauses i).visits, ∀ reading ∈ visit.readings,
    reading ≤ (pauses i).now
  deletions (i : Nat) : ∀ visit ∈ (pauses i).visits, visit.call ≠ .delete name
  /-- A cancellation finds the operation done. -/
  cancellations (i : Nat) : ∀ visit ∈ (pauses i).visits, visit.call = .cancel name →
    op.due ≤ visit.now
  recorded : ∀ outcome ∈ op.recorded, outcome = op.planned ∧ op.due ≤ (pauses 0).now

namespace Undisturbed

variable {service : Service} {pauses : Nat → Pause} {name : String} {op : Operation}
  {interval : Span}

theorem punctual (h : Undisturbed pauses name op interval) :
    Punctual op.due op.planned (pauses 0).now op where
  plan := ⟨rfl, rfl, fun outcome houtcome => (h.recorded outcome houtcome).1⟩
  waits hlt := by
    refine Option.eq_none_iff_forall_ne_some.2 fun outcome houtcome => ?_
    exact Instant.not_le.2 hlt (h.recorded outcome houtcome).2

theorem lt_succ (h : Undisturbed pauses name op interval) {i : Nat}
    (hlt : (pauses i).now < op.due) : (pauses i).now < (pauses (i + 1)).now := by
  obtain ⟨next, hnext, hle⟩ := h.advances i hlt
  exact Instant.lt_of_lt_of_le (Instant.lt_of_add? hnext h.positive) hle

theorem after (h : Undisturbed pauses name op interval) (i : Nat)
    (hhas : service.operations.Has name (Punctual op.due op.planned (pauses i).now)) :
    (service.after (pauses i).visits).operations.Has name
      (Punctual op.due op.planned (pauses i).now) := by
  refine hhas.after ?_ ?_ (h.deletions i)
  · intro visit hvisit reading hreading other hpunctual
    exact hpunctual.evaluate (h.readings i visit hvisit reading hreading)
  · intro visit hvisit hcall other hpunctual
    have hreading : visit.now ∈ visit.readings := by
      rw [Visit.readings, hcall]
      exact List.mem_cons_self
    exact hpunctual.cancel (h.cancellations i visit hvisit hcall)
      (h.readings i visit hvisit _ hreading)

/-- The operation as the polls meet it that come before it is due, and the first one after. -/
theorem enquiryAt (h : Undisturbed pauses name op interval)
    (hop : service.operations.operations.get? name = some op) (i : Nat)
    (hbefore : ∀ j < i, (pauses j).now < op.due) :
    (Shared.enquiryAt { service, pauses } name i).service.operations.Has name
      (Punctual op.due op.planned (pauses i).now) := by
  induction i with
  | zero => exact h.after 0 ⟨op, hop, h.punctual⟩
  | succ i ih =>
      have hle := Instant.le_of_lt (h.lt_succ (hbefore i (Nat.lt_succ_self i)))
      have hhas := ih fun j hj => hbefore j (Nat.lt_succ_of_lt hj)
      rw [Shared.service_enquiryAt_succ]
      apply h.after
      have hleft : (Shared.enquiryAt { service, pauses } name i).left.operations.Has name
          (Punctual op.due op.planned (pauses i).now) := by
        rw [Enquiry.left_eq, Shared.now_enquiryAt]
        exact hhas.update name fun _ _ _ hpunctual => hpunctual.evaluate (Instant.le_refl _)
      obtain ⟨other, hother, hpunctual⟩ := hleft
      exact ⟨other, hother, hpunctual.mono hle⟩

/-- Until the operation is due it is found pending. -/
theorem isPending (h : Undisturbed pauses name op interval)
    (hop : service.operations.operations.get? name = some op) {i : Nat}
    (hlt : ∀ j ≤ i, (pauses j).now < op.due) :
    (Shared.enquiryAt { service, pauses } name i).IsPending := by
  obtain ⟨other, hother, hpunctual⟩ := h.enquiryAt hop i fun j hj => hlt j (Nat.le_of_lt hj)
  have hnow := Shared.now_enquiryAt { service, pauses } name i
  have hdue : ¬ other.due ≤ (pauses i).now := by
    rw [hpunctual.plan.due]
    exact Instant.not_le.2 (hlt i (Nat.le_refl i))
  have hanswer := Enquiry.answer_of_some hother
  rw [hnow, Operation.evaluate_of_not_due (hpunctual.waits (hlt i (Nat.le_refl i))) hdue] at hanswer
  exact ⟨_, hanswer⟩

/-- The first poll after it is due finds the operation done as planned. -/
theorem answer_of_due (h : Undisturbed pauses name op interval)
    (hop : service.operations.operations.get? name = some op) {i : Nat}
    (hbefore : ∀ j < i, (pauses j).now < op.due) (hdue : op.due ≤ (pauses i).now) :
    (Shared.enquiryAt { service, pauses } name i).answer =
      .ok (.ofSnapshot ⟨name, .done op.planned⟩) := by
  obtain ⟨other, hother, hpunctual⟩ := h.enquiryAt hop i hbefore
  have hnow := Shared.now_enquiryAt { service, pauses } name i
  rw [Enquiry.answer_of_some hother, hnow, hpunctual.plan.evaluate_of_due hdue]
  rfl

/-- The clock comes to the instant at which the operation is due. -/
theorem exists_due (h : Undisturbed pauses name op interval) :
    ∃ k, (∀ i < k, (pauses i).now < op.due) ∧ op.due ≤ (pauses k).now := by
  have hdue := Instant.exists_le_of_ascending (fun i => (pauses i).now) op.due
    fun _ hlt => h.lt_succ hlt
  classical
  refine ⟨Nat.find hdue, fun i hi => Instant.not_le.1 (Nat.find_min hdue hi), Nat.find_spec hdue⟩

end Undisturbed

/-! ## Polls in simulated time -/

section

variable {timeline : Rpc.Timeline} {name : String}
  (hname : (Text.Utf8.encode name).length ≤ 1000)
include hname

/-- A request for an operation crosses the wire unharmed, and so does what is answered. -/
theorem unary_getOperation (hticket : timeline.calls.lookup timeline.ticket = none)
    (hfits : ∀ op, timeline.service.operations.operations.get? name = some op →
      Snapshot.Fits ⟨name, (op.evaluate timeline.now).1⟩) :
    let enquiry : Enquiry := ⟨name, timeline.service, timeline.now⟩
    let called := unary OperationMessage .getOperation ({ name } : OperationRequest) timeline
    called.1 = some ⟨timeline.elapsed, enquiry.answer.mapError (·.delivered)⟩ ∧
      called.2.service = enquiry.left := by
  intro enquiry called
  have hlength : (Wire.encode ({ name } : OperationRequest)).length ≤ Rpc.maxMessageBytes := by
    have hbytes := Wire.Record.length_writeAll_ofBytes_le
      (show 1 < Wire.Record.maxField by decide)
      (Nat.lt_of_le_of_lt hname (show 1000 < UInt64.size by decide))
    exact Nat.le_trans hbytes (Nat.le_trans (Nat.add_le_add_left hname 20) (by decide))
  have hreadable : Wire.Readable 0 ({ name } : OperationRequest) :=
    OperationRequest.readable (Nat.lt_of_le_of_lt hname (by decide))
  have hunary := Rpc.unary_bodyOf (hreadable.decode_encode (by decide)) hlength timeline.service
    (getOperation timeline.service timeline.now)
  have hhandle : Rpc.handle timeline.service timeline.moment timeline.candidates
      Rpc.Method.getOperation.path (bodyOf [({ name } : OperationRequest)]) true =
      Rpc.unary timeline.service (bodyOf [({ name } : OperationRequest)])
        (getOperation timeline.service timeline.now) := by
    rw [Rpc.handle, Rpc.Method.ofPath?_path]
    rfl
  have hread : readSingle OperationMessage (.ofResult enquiry.answer) =
      enquiry.answer.mapError (·.delivered) := by
    cases hop : timeline.service.operations.operations.get? name with
    | none =>
        rw [Enquiry.answer_of_none hop]
        exact readSingle_error _
    | some op =>
        rw [Enquiry.answer_of_some hop]
        exact readSingle_ok (OperationMessage.decode_encode_ofSnapshot (hfits op hop))
  obtain ⟨hreply, hservice⟩ := Rpc.Timeline.call_of_answered hticket (hhandle.trans hunary)
  refine ⟨?_, hservice⟩
  simp only [called, unary, hreply, Option.map_some]
  exact congrArg (fun result => some (Arrival.mk timeline.elapsed result)) hread

/-- A poll in simulated time asks the service as it is when the interval has passed. -/
theorem pollOnce_eq {woken : Rpc.Timeline} {interval : Nat}
    (hwoken : timeline.advanceTo (timeline.elapsed + interval) = woken)
    (hticket : woken.calls.lookup woken.ticket = none)
    (hfits : ∀ op, woken.service.operations.operations.get? name = some op →
      Snapshot.Fits ⟨name, (op.evaluate woken.now).1⟩) :
    let enquiry : Enquiry := ⟨name, woken.service, woken.now⟩
    let polled := Command.pollOnce interval name timeline
    polled.1 = enquiry.answer.mapError (·.delivered) ∧ polled.2.service = enquiry.left := by
  obtain ⟨hanswer, hservice⟩ := unary_getOperation hname hticket hfits
  simp only [Command.pollOnce, hwoken, hanswer]
  exact ⟨trivial, hservice⟩

end

/-! ## Waiting for an operation -/

/-- A client that is given a finished operation asks for nothing.  Otherwise the loop ends with the
first poll that does not find the operation pending, whatever others do meanwhile, and with its
answer; an operation found done stays so until it is deleted.  If the operation is left alone and
the clock goes on, that is the first poll at which it is due.  A poll in simulated time is such a
poll. -/
theorem polls_until_done (service : Service) (pauses : Nat → Pause)
    (operation : OperationMessage) :
    let shared : Shared := { service, pauses }
    let name := operation.name
    let enquiry := shared.enquiryAt name
    let wait (fuel : Nat) := waitForOperation Shared.poll fuel operation shared
    (operation.done = true → ∀ fuel, wait fuel = (some (.ok operation), shared)) ∧
    (∀ fuel found, (wait fuel).1 = some (.ok found) → found.done = true) ∧
    (operation.done = false → ∀ fuel,
      (∃ k < fuel, (∀ i < k, (enquiry i).IsPending) ∧ ¬ (enquiry k).IsPending ∧
        wait fuel = (some (enquiry k).answer, shared.polled name (k + 1))) ∨
      ((∀ i < fuel, (enquiry i).IsPending) ∧ wait fuel = (none, shared.polled name fuel))) ∧
    (∀ count, (shared.polled name count).enquiries = ((List.range count).map enquiry).reverse) ∧
    ((enquiry 0).service = service.after (pauses 0).visits ∧
      ∀ i, (enquiry i).name = name ∧ (enquiry i).now = (pauses i).now ∧
        (enquiry (i + 1)).service = (enquiry i).left.after (pauses (i + 1)).visits) ∧
    (∀ i found, (enquiry i).answer = .ok found → found.done = true →
      ∃ outcome, found = .ofSnapshot ⟨name, .done outcome⟩ ∧
        ∀ visits : List Visit, (∀ visit ∈ visits, visit.call ≠ .delete name) →
          ∀ now, (getOperation ((enquiry i).left.after visits) now ⟨name⟩).1 = .ok found) ∧
    (operation.done = false → ∀ op interval,
      service.operations.operations.get? name = some op → Undisturbed pauses name op interval →
      ∃ k, (∀ i < k, (pauses i).now < op.due) ∧ op.due ≤ (pauses k).now ∧
        ∀ fuel, k < fuel → wait fuel =
          (some (.ok (.ofSnapshot ⟨name, .done op.planned⟩)), shared.polled name (k + 1))) ∧
    ∀ (timeline woken : Rpc.Timeline) (interval : Nat),
      timeline.advanceTo (timeline.elapsed + interval) = woken →
      woken.calls.lookup woken.ticket = none → (Text.Utf8.encode name).length ≤ 1000 →
      (∀ op, woken.service.operations.operations.get? name = some op →
        Snapshot.Fits ⟨name, (op.evaluate woken.now).1⟩) →
      let asked : Enquiry := ⟨name, woken.service, woken.now⟩
      let polled := Command.pollOnce interval name timeline
      polled.1 = asked.answer.mapError (·.delivered) ∧ polled.2.service = asked.left := by
  intro shared name enquiry wait
  refine ⟨fun hdone fuel => waitForOperation_of_done hdone, fun fuel found hfound => ?_,
    fun hdone fuel => waitForOperation_cases hdone fuel shared, fun count => ?_,
    ⟨rfl, fun i => ⟨rfl, shared.now_enquiryAt name i, shared.service_enquiryAt_succ name i⟩⟩,
    fun i found => Enquiry.answer_stays, fun hdone op interval hop undisturbed => ?_,
    fun timeline woken interval hwoken hticket hname hfits =>
      pollOnce_eq hname hwoken hticket hfits⟩
  · cases hdone : operation.done with
    | true =>
        have hwait : wait fuel = _ := waitForOperation_of_done hdone
        rw [hwait] at hfound
        cases hfound
        exact hdone
    | false =>
        rcases waitForOperation_cases hdone fuel shared with
          ⟨k, -, -, hend, hwait⟩ | ⟨-, hwait⟩
        · rw [show wait fuel = _ from hwait] at hfound
          have hanswer := Option.some.inj hfound
          rcases Enquiry.done_or_failed hend with ⟨outcome, hdone⟩ | hfailed
          · cases hanswer.symm.trans hdone
            exact done_ofSnapshot _
          · cases hanswer.symm.trans hfailed
        · rw [show wait fuel = _ from hwait] at hfound
          cases hfound
  · have hpolled := shared.enquiries_polled name count
    rwa [List.append_nil] at hpolled
  · obtain ⟨k, hbefore, hdue⟩ := undisturbed.exists_due
    have hanswer := undisturbed.answer_of_due hop hbefore hdue
    refine ⟨k, hbefore, hdue, fun fuel hfuel => ?_⟩
    have hpending : ∀ i < k, (enquiry i).IsPending := fun i hi =>
      undisturbed.isPending hop fun j hj => hbefore j (Nat.lt_of_le_of_lt hj hi)
    have hwait := waitForOperation_of_first hdone hfuel hpending (Enquiry.not_isPending hanswer)
    rw [hanswer] at hwait
    exact hwait

/-- A service with an operation that is due at the second 125. -/
def dueLater : Service where
  settings := default
  operations := ⟨Table.empty.insert "operations/a"
    { due := .ofSeconds 125 (by decide), planned := .succeeded "late" }⟩

/-- Ten seconds from one poll to the next; others look at the operation, cancel it when it is
done, and start another. -/
def tenSeconds : Nat → Pause
  | 0 => ⟨[], .ofSeconds 100 (by decide)⟩
  | 1 => ⟨[{ now := .ofSeconds 105 (by decide), call := .list 0 "" }],
      .ofSeconds 110 (by decide)⟩
  | 2 => ⟨[{ now := .ofSeconds 115 (by decide), call := .start {}, candidates := ["a", "b"] }],
      .ofSeconds 120 (by decide)⟩
  | _ => ⟨[{ now := .ofSeconds 126 (by decide), call := .cancel "operations/a" }],
      .ofSeconds 130 (by decide)⟩

theorem tenSeconds_add (i : Nat) : tenSeconds (i + 3) = tenSeconds 3 := rfl

theorem undisturbed_tenSeconds :
    Undisturbed tenSeconds "operations/a"
      { due := .ofSeconds 125 (by decide), planned := .succeeded "late" }
      ⟨10000000000, by decide⟩ where
  positive := by decide
  advances i hlt := by
    match i with
    | 0 => exact ⟨.ofSeconds 110 (by decide), by decide, by decide⟩
    | 1 => exact ⟨.ofSeconds 120 (by decide), by decide, by decide⟩
    | 2 => exact ⟨.ofSeconds 130 (by decide), by decide, by decide⟩
    | i + 3 =>
        rw [tenSeconds_add] at hlt
        exact absurd hlt (by decide)
  readings i := by
    match i with
    | 0 | 1 | 2 => decide
    | i + 3 =>
        rw [tenSeconds_add]
        decide
  deletions i := by
    match i with
    | 0 | 1 | 2 => decide
    | i + 3 =>
        rw [tenSeconds_add]
        decide
  cancellations i := by
    match i with
    | 0 | 1 | 2 => decide
    | i + 3 =>
        rw [tenSeconds_add]
        decide
  recorded := by
    intro outcome houtcome
    cases houtcome

/-- The fourth poll finds the operation done. -/
theorem polls_until_done_fourth :
    let operation : OperationMessage := { name := "operations/a" }
    let shared : Shared := { service := dueLater, pauses := tenSeconds }
    waitForOperation Shared.poll 9 operation shared =
        (some (.ok (.ofSnapshot ⟨"operations/a", .done (.succeeded "late")⟩)),
          shared.polled "operations/a" 4) ∧
      (shared.polled "operations/a" 4).enquiries.length = 4 := by
  intro operation shared
  obtain ⟨-, -, -, hpolls, -, -, hends, -⟩ := polls_until_done dueLater tenSeconds operation
  obtain ⟨k, hbefore, hdue, hwait⟩ := hends rfl _ _ (by decide) undisturbed_tenSeconds
  have hk : k = 3 := by
    match k with
    | 0 | 1 | 2 => exact absurd hdue (by decide)
    | 3 => rfl
    | k + 4 => exact absurd (hbefore 3 (by omega)) (by decide)
  subst hk
  refine ⟨hwait 9 (by decide), ?_⟩
  have hfour := congrArg List.length (hpolls 4)
  rwa [List.length_reverse, List.length_map, List.length_range] at hfour

end Rehearsal.Client
