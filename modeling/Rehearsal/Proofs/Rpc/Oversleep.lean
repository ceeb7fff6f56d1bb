import Rehearsal.Proofs.Operation.Plan
import Rehearsal.Proofs.Rpc.Lookout
import Rehearsal.Proofs.Time.Instant
import Rehearsal.Rpc.Timeline
import Rehearsal.Rpc.Vigil

/-!
# Sleeping past the end of an operation

A waiter fixes when to wake by what it has seen last, and while it sleeps it notices nothing
(`Vigil.Accompanied.watch_eq`).  So whoever cancels or deletes its operation leaves it asleep
(`Vigil.over_of_stop`).  Nothing else does: without that the operation is pending as long as the
waiter sleeps, since the clock has gone on with the timer (`Vigil.Knows`), or it is due in a leap
second and the waiter wakes less than a second late.
-/

namespace Rehearsal

open Time (Instant Span nanosPerSecond)

/-- The call is to end an operation before its time or to remove it. -/
def Call.Stops (call : Call) (name : String) : Prop := call = .cancel name ∨ call = .delete name

/-- A cancelled operation has an outcome. -/
theorem Operation.exists_recorded_cancel (op : Operation) (now : Instant) :
    ∃ outcome, (op.cancel now).2.recorded = some outcome := by
  cases hr : op.recorded with
  | some outcome => exact ⟨outcome, by rw [cancel_of_recorded hr, hr]⟩
  | none =>
      by_cases hdue : op.due ≤ now
      · exact ⟨op.planned, by rw [cancel_of_due hr hdue]⟩
      · exact ⟨.cancelled, by rw [cancel_of_not_due hr hdue]⟩

theorem OperationBook.get_cancel_ne_pending (book : OperationBook) (now later : Instant)
    (name : String) (remaining : Span) :
    ((book.cancel now name).2.get later name).1 ≠ .ok ⟨name, .pending remaining⟩ := by
  cases hop : book.operations.get? name with
  | none =>
      rw [cancel, update_of_none _ hop, get, update_of_none _ hop]
      rintro ⟨⟩
  | some op =>
      obtain ⟨outcome, hr⟩ := op.exists_recorded_cancel now
      have hended : (book.cancel now name).2.operations.get? name = some (op.cancel now).2 := by
        rw [cancel, update_of_some _ hop]
        exact Table.get?_insert_self _ _ _
      rw [get_of_recorded hended hr]
      rintro ⟨⟩

theorem OperationBook.get_delete_ne_pending (book : OperationBook) (later : Instant)
    (name : String) (remaining : Span) :
    ((book.delete name).2.get later name).1 ≠ .ok ⟨name, .pending remaining⟩ := by
  have hgone : (book.delete name).2.operations.get? name = none := by
    cases hop : book.operations.get? name with
    | none => rw [delete_of_none hop, hop]
    | some op => rw [delete_of_some hop, Table.get?_erase, if_pos rfl]
  rw [get, update_of_none _ hgone]
  rintro ⟨⟩

namespace Rpc

/-- No waiter sleeps for longer than it has to wait for the operation. -/
theorem Waiter.le_of_settle {waiter : Waiter} {timer wake alarm : Nat} {snapshot : Snapshot}
    (h : (waiter.settle timer wake snapshot).watch = .asleep alarm) : alarm ≤ wake := by
  unfold settle at h
  split at h
  · cases h
    exact Nat.le_refl _
  · split at h
    · cases h
    · cases h
      exact Nat.min_le_left _ _

theorem WaitStep.watch_ne_awake (step : WaitStep) : step.watch ≠ .awake := by
  cases step <;> rintro ⟨⟩

namespace Vigil

/-- The states that a wait comes to while others call the service and time passes on both clocks
alike, with the calls of the others since the last look, the latest first. -/
inductive Accompanied (first : Vigil) : (calls : List Call) → Vigil → Prop where
  | start : Accompanied first [] first
  | look {calls : List Call} {vigil : Vigil} (h : Accompanied first calls vigil)
      (awake : vigil.watch = .awake) : Accompanied first [] vigil.look
  /-- The waiter wakes, when its time has come or later. -/
  | wake {calls : List Call} {vigil : Vigil} (h : Accompanied first calls vigil) (wake : Nat)
      (asleep : vigil.watch = .asleep wake) (due : wake ≤ vigil.moment.timer) :
      Accompanied first calls { vigil with watch := .awake }
  | pass {calls : List Call} {vigil : Vigil} (h : Accompanied first calls vigil) (span : Span)
      (clock : Instant) (forwards : 0 ≤ span.nanos)
      (hclock : vigil.moment.clock.add? span = some clock) :
      Accompanied first calls
        { vigil with moment := ⟨clock, vigil.moment.timer + span.nanos.toNat⟩ }
  | visit {calls : List Call} {vigil : Vigil} (h : Accompanied first calls vigil) (call : Call)
      (candidates : List String) :
      Accompanied first (call :: calls)
        { vigil with service := (vigil.service.perform vigil.moment.clock candidates call).2 }

/-- The operation is done or gone. -/
def Over (vigil : Vigil) : Prop :=
  ∀ remaining, (vigil.service.operations.get vigil.moment.clock vigil.waiter.name).1 ≠
    .ok ⟨vigil.waiter.name, .pending remaining⟩

/-- The waiter is to sleep on, although the operation is done or gone. -/
def Overslept (vigil : Vigil) : Prop :=
  vigil.Over ∧ ∃ wake, vigil.watch = .asleep wake ∧
    Timeline.ceilMillis vigil.moment.timer * Time.nanosPerMilli < wake

variable {first vigil later : Vigil} {calls : List Call} {wake : Nat}

/-! ## While the waiter sleeps -/

/-- Nothing but the timer ends a sleep. -/
theorem Accompanied.watch_eq (h : Accompanied vigil calls later)
    (asleep : vigil.watch = .asleep wake) (early : later.moment.timer < wake) :
    later.watch = .asleep wake := by
  induction h with
  | start => exact asleep
  | look h awake ih =>
      have hsleeps := ih early
      rw [awake] at hsleeps
      cases hsleeps
  | wake h alarm hasleep due ih =>
      have hsleeps := ih early
      rw [hasleep] at hsleeps
      cases hsleeps
      exact absurd due (Nat.not_le.2 early)
  | pass h span clock forwards hclock ih =>
      exact ih (Nat.lt_of_le_of_lt (Nat.le_add_right _ _) early)
  | visit h call candidates ih => exact ih early

/-- A call that is to end the operation or to remove it does so. -/
theorem over_of_stop {call : Call} (h : call.Stops vigil.waiter.name) (candidates : List String) :
    Over { vigil with
      service := (vigil.service.perform vigil.moment.clock candidates call).2 } := by
  rcases h with rfl | rfl
  · exact fun remaining => vigil.service.operations.get_cancel_ne_pending _ _ _ remaining
  · exact fun remaining => vigil.service.operations.get_delete_ne_pending _ _ remaining

/-! ## What a sleeping waiter knows -/

/-- While nobody has told to stop the operation since the last look, it is as it was then, but that
its outcome may have been recorded when it was due, and the waiter wakes by the time it is due. -/
def Knows (vigil : Vigil) (calls : List Call) : Prop :=
  ∀ wake, vigil.watch = .asleep wake → (∀ call ∈ calls, ¬ call.Stops vigil.waiter.name) →
    ∃ due, vigil.service.operations.Has vigil.waiter.name
        (fun op => op.due = due ∧ (op.recorded = none ∨ due ≤ vigil.moment.clock)) ∧
      (wake : Int) ≤ vigil.moment.timer + (due.total - vigil.moment.clock.total)

theorem Accompanied.waiter_eq (h : Accompanied first calls vigil) : vigil.waiter = first.waiter := by
  induction h with
  | start => rfl
  | look _ _ ih | wake _ _ _ _ ih | pass _ _ _ _ _ ih | visit _ _ _ ih => exact ih

theorem Accompanied.plain (h : Accompanied first calls vigil) (plain : first.moment.clock.Plain) :
    vigil.moment.clock.Plain := by
  induction h with
  | start => exact plain
  | look _ _ ih | wake _ _ _ _ ih | visit _ _ _ ih => exact ih
  | pass _ span clock forwards hclock ih => exact (Instant.add?_plain ih hclock).1

/-- A waiter who goes to sleep has seen that the operation is pending, and does not mean to sleep
for longer than that. -/
theorem look_asleep (h : vigil.look.watch = .asleep wake) :
    ∃ op, vigil.service.operations.operations.get? vigil.waiter.name = some op ∧
      op.recorded = none ∧ ¬ op.due ≤ vigil.moment.clock ∧
      vigil.look.service = vigil.service ∧
      wake ≤ vigil.moment.timer + (op.due.since vigil.moment.clock).toDelay := by
  cases hop : vigil.service.operations.operations.get? vigil.waiter.name with
  | none =>
      have hget : vigil.service.operations.get vigil.moment.clock vigil.waiter.name =
          (.error (.operationNotFound vigil.waiter.name), vigil.service.operations) :=
        OperationBook.update_of_none _ hop
      simp only [look, Waiter.look, hget, WaitStep.watch] at h
      cases h
  | some op =>
      cases hr : op.recorded with
      | some outcome =>
          simp only [look, Waiter.look, OperationBook.get_of_recorded hop hr] at h
          cases h
      | none =>
          by_cases hdue : op.due ≤ vigil.moment.clock
          · simp only [look, Waiter.look, OperationBook.get_of_due hop hr hdue] at h
            cases h
          · have hget := OperationBook.get_of_not_due hop hr hdue
            simp only [look, Waiter.look, hget] at h ⊢
            exact ⟨op, rfl, hr, hdue, trivial, Waiter.le_of_settle h⟩

theorem knows_look (plain : vigil.moment.clock.Plain) : vigil.look.Knows [] := by
  intro wake hasleep hcalls
  obtain ⟨op, hop, hr, hdue, hservice, hwake⟩ := look_asleep hasleep
  refine ⟨op.due, ?_, ?_⟩
  · rw [hservice]
    exact ⟨op, hop, rfl, .inl hr⟩
  · show (wake : Int) ≤ vigil.moment.timer + (op.due.total - vigil.moment.clock.total)
    have hpos := Instant.since_pos plain (Instant.not_le.1 hdue)
    unfold Span.toDelay at hwake
    -- a difference never counts more than the nanoseconds between the two instants
    rcases Instant.since_cases (a := op.due) plain with hsince | ⟨-, -, hsince⟩
    · omega
    · unfold nanosPerSecond at hsince
      omega

theorem Knows.pass (h : vigil.Knows calls) (plain : vigil.moment.clock.Plain) {span : Span}
    {clock : Instant} (forwards : 0 ≤ span.nanos)
    (hclock : vigil.moment.clock.add? span = some clock) :
    Knows { vigil with moment := ⟨clock, vigil.moment.timer + span.nanos.toNat⟩ } calls := by
  intro wake hasleep hcalls
  obtain ⟨due, ⟨op, hop, hdue, hrecorded⟩, hwake⟩ := h wake hasleep hcalls
  obtain ⟨hplain, htotal⟩ := Instant.add?_plain plain hclock
  refine ⟨due, ⟨op, hop, hdue, ?_⟩, ?_⟩
  · rcases hrecorded with hr | hpast
    · exact .inl hr
    · have hlater : vigil.moment.clock ≤ clock := Instant.le_of_total_le hplain (by omega)
      exact .inr (Instant.le_trans hpast hlater)
  · -- the clock has gone on by as much as the timer
    show (wake : Int) ≤ (vigil.moment.timer + span.nanos.toNat : Nat) + (due.total - clock.total)
    omega

theorem Knows.visit (h : vigil.Knows calls) (call : Call) (candidates : List String) :
    Knows { vigil with
      service := (vigil.service.perform vigil.moment.clock candidates call).2 }
      (call :: calls) := by
  intro wake hasleep hcalls
  obtain ⟨hcall, hcalls⟩ := List.forall_mem_cons.1 hcalls
  obtain ⟨due, hhas, hwake⟩ := h wake hasleep hcalls
  refine ⟨due, hhas.perform ?_ (fun hcancel => absurd (.inl hcancel) hcall)
    (fun hdelete => hcall (.inr hdelete)) candidates, hwake⟩
  rintro reading hreading op ⟨hdue, hrecorded⟩
  rw [List.mem_singleton.1 hreading]
  cases hr : op.recorded with
  | some outcome =>
      rw [Operation.evaluate_of_recorded hr]
      exact ⟨hdue, hrecorded⟩
  | none =>
      by_cases hpast : op.due ≤ vigil.moment.clock
      · rw [Operation.evaluate_of_due hr hpast]
        exact ⟨hdue, .inr (hdue ▸ hpast)⟩
      · rw [Operation.evaluate_of_not_due hr hpast]
        exact ⟨hdue, hrecorded⟩

theorem Accompanied.knows (h : Accompanied first calls vigil) (plain : first.moment.clock.Plain)
    (awake : first.watch = .awake) : vigil.Knows calls := by
  induction h with
  | start =>
      intro wake hasleep
      rw [awake] at hasleep
      cases hasleep
  | look h awake ih => exact knows_look (h.plain plain)
  | wake h wake asleep due ih => rintro _ ⟨⟩
  | pass h span clock forwards hclock ih => exact ih.pass (h.plain plain) forwards hclock
  | visit h call candidates ih => exact ih.visit call candidates

/-! ## Who oversleeps -/

/-- A waiter who sleeps although its operation is done or gone has been left asleep by a call that
was to stop the operation, or else the operation is due in a leap second, and the waiter wakes in
less than a second. -/
theorem Accompanied.stopped_of_over (h : Accompanied first calls vigil)
    (plain : first.moment.clock.Plain) (awake : first.watch = .awake)
    (asleep : vigil.watch = .asleep wake) (early : vigil.moment.timer < wake) (ended : vigil.Over) :
    (∃ call ∈ calls, call.Stops vigil.waiter.name) ∨
      ∃ op, vigil.service.operations.operations.get? vigil.waiter.name = some op ∧
        op.due.inLeapSecond = true ∧ op.due ≤ vigil.moment.clock ∧
        wake < vigil.moment.timer + nanosPerSecond := by
  by_cases hcalls : ∃ call ∈ calls, call.Stops vigil.waiter.name
  · exact .inl hcalls
  · right
    obtain ⟨due, ⟨op, hop, rfl, hrecorded⟩, hwake⟩ :=
      h.knows plain awake wake asleep (by simpa using hcalls)
    have hpast : op.due ≤ vigil.moment.clock := by
      rcases hrecorded with hr | hpast
      · refine Decidable.byContradiction fun hdue =>
          ended (op.due.since vigil.moment.clock) ?_
        rw [OperationBook.get_of_not_due hop hr hdue]
      · exact hpast
    obtain ⟨hleap, hsecond⟩ :=
      Instant.inLeapSecond_of_le_of_total_lt (h.plain plain) hpast (by omega)
    exact ⟨op, hop, hleap, hpast, by omega⟩

/-- A look at an operation that is done or gone is the last. -/
theorem look_of_over (ended : vigil.Over) : ∃ result, vigil.look.watch = .finished result := by
  cases hwatch : vigil.look.watch with
  | finished result => exact ⟨result, rfl⟩
  | asleep wake =>
      obtain ⟨op, hop, hr, hdue, -, -⟩ := look_asleep hwatch
      refine absurd ?_ (ended (op.due.since vigil.moment.clock))
      rw [OperationBook.get_of_not_due hop hr hdue]
  | awake => exact absurd hwatch (WaitStep.watch_ne_awake _)

/-- As long as a waiter sleeps, its operation is pending, unless somebody has cancelled or deleted
it since the last look, or it is due in a leap second and the waiter wakes less than a second
later.  A cancellation or a deletion leaves the waiter asleep until it has meant to wake, whatever
happens meanwhile.  It then looks, and a look at an operation that is done or gone is the last. -/
theorem oversleeps_only_if_stopped {service : Service} {moment : Moment} {name : String}
    {timeout : Option Nat} (plain : moment.clock.Plain)
    (h : Accompanied (.start service moment name timeout) calls vigil)
    (asleep : vigil.watch = .asleep wake) (early : vigil.moment.timer < wake) :
    (vigil.Over →
      (∃ call ∈ calls, call.Stops name) ∨
        ∃ op, vigil.service.operations.operations.get? name = some op ∧
          op.due.inLeapSecond = true ∧ op.due ≤ vigil.moment.clock ∧
          wake < vigil.moment.timer + nanosPerSecond) ∧
    (∀ call candidates, call.Stops name →
      let stopped : Vigil := { vigil with
        service := (vigil.service.perform vigil.moment.clock candidates call).2 }
      stopped.Over ∧
        ∀ more later, Accompanied stopped more later → later.moment.timer < wake →
          later.watch = .asleep wake) ∧
    ∀ later : Vigil, later.Over → ∃ result, later.look.watch = .finished result := by
  have hname : vigil.waiter.name = name := congrArg Waiter.name h.waiter_eq
  refine ⟨fun ended => ?_,
    fun call candidates hstops => ⟨?_, fun more later hlater hearly => ?_⟩,
    fun later ended => look_of_over ended⟩
  · have hstopped := h.stopped_of_over plain rfl asleep early ended
    rwa [hname] at hstopped
  · rw [← hname] at hstops
    exact over_of_stop hstops candidates
  · exact hlater.watch_eq asleep hearly

/-- A waiter at the start of the nine seconds for which its operation is pending. -/
def nineSeconds : Vigil := .start dueSoon ⟨.ofSeconds 16 (by decide), 0⟩ "operations/a" none

/-- The same waiter two seconds later. -/
def asleepTwoSeconds : Vigil :=
  { nineSeconds.look with moment := ⟨.ofSeconds 18 (by decide), 2000000000⟩ }

theorem accompanied_asleepTwoSeconds : Accompanied nineSeconds [] asleepTwoSeconds :=
  (Accompanied.start.look rfl).pass ⟨2000000000, by decide⟩ _ (by decide) rfl

/-- Somebody cancels the operation, or deletes it, and the waiter sleeps on. -/
theorem overslept_nineSeconds :
    (∃ vigil, Accompanied nineSeconds [.cancel "operations/a"] vigil ∧ vigil.Overslept) ∧
      ∃ vigil, Accompanied nineSeconds [.delete "operations/a"] vigil ∧ vigil.Overslept := by
  have h := accompanied_asleepTwoSeconds
  refine ⟨⟨_, h.visit (.cancel "operations/a") [], ?_⟩,
    ⟨_, h.visit (.delete "operations/a") [], ?_⟩⟩
  · exact ⟨over_of_stop (.inl rfl) [], 9000000000, rfl, by decide⟩
  · exact ⟨over_of_stop (.inr rfl) [], 9000000000, rfl, by decide⟩

/-- Somebody else's poll leaves the operation pending, and a cancellation leaves the waiter asleep.
-/
theorem oversleeps_only_if_stopped_nineSeconds :
    ∃ vigil, Accompanied nineSeconds [.get "operations/a"] vigil ∧ ¬ vigil.Over ∧
      ∃ later, Accompanied nineSeconds [.cancel "operations/a", .get "operations/a"] later ∧
        later.watch = .asleep 9000000000 ∧ later.Over := by
  have h := accompanied_asleepTwoSeconds.visit (.get "operations/a") []
  obtain ⟨hover, hstop, -⟩ :=
    @oversleeps_only_if_stopped _ _ 9000000000 _ _ _ _ (by decide) h rfl (by decide)
  obtain ⟨hstopped, hsleeps⟩ := hstop (.cancel "operations/a") [] (.inl rfl)
  refine ⟨_, h, fun ended => ?_, _, h.visit (.cancel "operations/a") [],
    hsleeps [] _ .start (by decide), hstopped⟩
  rcases hover ended with ⟨call, hcall, hstops⟩ | ⟨op, hop, hleap, -⟩
  · rw [List.mem_singleton.1 hcall] at hstops
    rcases hstops with ⟨⟨⟩⟩ | ⟨⟨⟩⟩
  · cases hop
    cases hleap

end Vigil

end Rpc

end Rehearsal
