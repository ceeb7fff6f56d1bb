import Mathlib.Logic.Relation
import Rehearsal.Proofs.Rpc.Session
import Rehearsal.Rpc.Lookout

/-!
# Waits are safe among others

Whatever others do between the steps of a wait, and however the clock is set, a wait reports what it
has been told by its last poll, since which it has not slept (`Lookout.Told`).  It reports a pending
operation only when its deadline has come, and an error only if the operation was not there.  It
changes nothing but to record how its operation has ended (`Lookout.Move.service`).
-/

namespace Rehearsal

open Time (Instant Span)

/-! ## One poll -/

namespace OperationBook

variable {book : OperationBook} {now : Instant} {name : String}

/-- A look at an operation changes nothing, or it records that the operation has ended as planned,
when it was due. -/
theorem get_spares_or_records (book : OperationBook) (now : Instant) (name : String) :
    (book.get now name).2 = book ∨
    ∃ op, book.operations.get? name = some op ∧ op.recorded = none ∧ op.due ≤ now ∧
      (book.get now name).2 =
        ⟨book.operations.insert name { op with recorded := some op.planned }⟩ := by
  cases hop : book.operations.get? name with
  | none =>
      left
      rw [get, update_of_none _ hop]
  | some op =>
      cases hr : op.recorded with
      | some outcome =>
          left
          rw [get_of_recorded hop hr]
      | none =>
          by_cases hdue : op.due ≤ now
          · right
            exact ⟨op, rfl, hr, hdue, by rw [get_of_due hop hr hdue]⟩
          · left
            rw [get_of_not_due hop hr hdue]

theorem get_of_error {error : ServiceError} (h : (book.get now name).1 = .error error) :
    error = .operationNotFound name ∧ book.operations.get? name = none := by
  unfold get at h
  cases hop : book.operations.get? name with
  | none =>
      rw [update_of_none _ hop] at h
      cases h
      exact ⟨rfl, rfl⟩
  | some op =>
      rw [update_of_some _ hop] at h
      cases h

/-- An operation that is due is done, for whoever looks at it. -/
theorem isDone_of_due {snapshot : Snapshot} (h : (book.get now name).1 = .ok snapshot)
    {op : Operation} (hop : book.operations.get? name = some op) (hdue : op.due ≤ now) :
    snapshot.isDone = true := by
  cases hr : op.recorded with
  | some outcome =>
      rw [get_of_recorded hop hr] at h
      cases h
      rfl
  | none =>
      rw [get_of_due hop hr hdue] at h
      cases h
      rfl

end OperationBook

theorem Snapshot.isDone_of_remaining? {snapshot : Snapshot} (h : snapshot.remaining? = none) :
    snapshot.isDone = true := by
  obtain ⟨name, pending | done⟩ := snapshot
  · cases h
  · rfl

namespace Rpc

open Message
open Time (nanosPerSecond)

/-! ## One wait -/

namespace Lookout

/-- The last poll has told the waiter this, and it has not slept since. -/
structure Told (lookout : Lookout) (reading : Except ServiceError Snapshot) : Prop where
  awake : lookout.rested = false
  polled : ∃ poll earlier, lookout.polls = poll :: earlier ∧
    poll.reading lookout.waiter.name = reading

/-- The deadline of the waiter has come. -/
def Late (lookout : Lookout) : Prop :=
  ∃ deadline ∈ lookout.waiter.deadline, deadline ≤ lookout.moment.timer

/-- The waiter knows what it has been told, and gives up only when it is late. -/
def Sound (lookout : Lookout) : Prop :=
  match lookout.stage with
  | .awake | .asleep _ => True
  | .informed snapshot _ | .planned snapshot _ => lookout.Told (.ok snapshot)
  | .finished result => lookout.Told result ∧
      ∀ snapshot, result = .ok snapshot → snapshot.isDone = false → lookout.Late

variable {first lookout later : Lookout}

theorem sound_poll (lookout : Lookout) : lookout.poll.Sound := by
  have told : lookout.poll.Told (lookout.service.operations.get lookout.moment.clock
      lookout.waiter.name).1 := ⟨rfl, _, _, rfl, rfl⟩
  unfold Sound
  cases hreading : (lookout.service.operations.get lookout.moment.clock
      lookout.waiter.name).1 with
  | error error =>
      rw [hreading] at told
      have hstage : lookout.poll.stage = .finished (.error error) := by
        simp only [poll, hreading, Stage.ofReading]
      rw [hstage]
      refine ⟨told, ?_⟩
      rintro _ ⟨⟩
  | ok snapshot =>
      rw [hreading] at told
      cases hremaining : snapshot.remaining? with
      | none =>
          have hstage : lookout.poll.stage = .finished (.ok snapshot) := by
            simp only [poll, hreading, Stage.ofReading, hremaining]
          rw [hstage]
          refine ⟨told, ?_⟩
          rintro _ ⟨⟩ hpending
          rw [Snapshot.isDone_of_remaining? hremaining] at hpending
          cases hpending
      | some remaining =>
          have hstage : lookout.poll.stage = .informed snapshot remaining := by
            simp only [poll, hreading, Stage.ofReading, hremaining]
          rw [hstage]
          exact told

theorem Told.congr {reading : Except ServiceError Snapshot} (h : lookout.Told reading)
    (hwaiter : later.waiter = lookout.waiter) (hpolls : later.polls = lookout.polls)
    (hrested : later.rested = lookout.rested) : later.Told reading := by
  refine ⟨hrested.trans h.awake, ?_⟩
  rw [hwaiter, hpolls]
  exact h.polled

theorem Late.mono (h : lookout.Late) (hwaiter : later.waiter = lookout.waiter)
    (htimer : lookout.moment.timer ≤ later.moment.timer) : later.Late := by
  obtain ⟨deadline, hdeadline, hle⟩ := h
  exact ⟨deadline, hwaiter ▸ hdeadline, Nat.le_trans hle htimer⟩

theorem not_late_of_none (h : lookout.waiter.deadline = none) : ¬ lookout.Late := by
  rintro ⟨deadline, hdeadline, -⟩
  rw [h] at hdeadline
  cases hdeadline

theorem late_iff_of_some {deadline : Nat} (h : lookout.waiter.deadline = some deadline) :
    lookout.Late ↔ deadline ≤ lookout.moment.timer := by
  simp only [Late, h, Option.mem_def, Option.some.injEq, exists_eq_left']

/-- What the world around a waiter does keeps it sound, as long as the timer does not go back. -/
theorem Sound.congr (h : lookout.Sound) (hwaiter : later.waiter = lookout.waiter)
    (hstage : later.stage = lookout.stage) (hpolls : later.polls = lookout.polls)
    (hrested : later.rested = lookout.rested)
    (htimer : lookout.moment.timer ≤ later.moment.timer) : later.Sound := by
  unfold Sound at h ⊢
  rw [hstage]
  cases hat : lookout.stage with
  | awake | asleep => trivial
  | informed snapshot | planned snapshot =>
      rw [hat] at h
      exact h.congr hwaiter hpolls hrested
  | finished result =>
      rw [hat] at h
      refine ⟨h.1.congr hwaiter hpolls hrested, ?_⟩
      intro snapshot hresult hpending
      exact (h.2 snapshot hresult hpending).mono hwaiter htimer

/-- A waiter who is late gives up; any other goes to sleep until it means to wake or, before that,
until its deadline. -/
theorem settle_cases (lookout : Lookout) (snapshot : Snapshot) (wake : Nat) :
    (lookout.Late ∧
      lookout.settle snapshot wake = { lookout with stage := .finished (.ok snapshot) }) ∨
    (¬ lookout.Late ∧ ∃ alarm, (alarm = wake ∨ lookout.waiter.deadline = some alarm) ∧
      lookout.settle snapshot wake = { lookout with stage := .asleep alarm, rested := true }) := by
  cases hdeadline : lookout.waiter.deadline with
  | none =>
      right
      refine ⟨not_late_of_none hdeadline, wake, .inl rfl, ?_⟩
      simp only [settle, Waiter.settle, hdeadline, WaitStep.stage]
  | some deadline =>
      by_cases hlate : deadline ≤ lookout.moment.timer
      · left
        refine ⟨(late_iff_of_some hdeadline).2 hlate, ?_⟩
        simp only [settle, Waiter.settle, hdeadline, if_pos hlate, WaitStep.stage]
      · right
        refine ⟨mt (late_iff_of_some hdeadline).1 hlate, min wake deadline, ?_, ?_⟩
        · rcases Nat.le_total wake deadline with hle | hle
          · exact .inl (Nat.min_eq_left hle)
          · exact .inr (congrArg some (Nat.min_eq_right hle).symm)
        · simp only [settle, Waiter.settle, hdeadline, if_neg hlate, WaitStep.stage]

theorem sound_settle {snapshot : Snapshot} (told : lookout.Told (.ok snapshot)) (wake : Nat) :
    (lookout.settle snapshot wake).Sound := by
  rcases lookout.settle_cases snapshot wake with ⟨late, hsettle⟩ | ⟨-, alarm, -, hsettle⟩
  · rw [hsettle]
    exact ⟨told.congr rfl rfl rfl, fun _ _ _ => late⟩
  · rw [hsettle]
    trivial

theorem Move.sound (h : lookout.Sound) (move : Move lookout later) : later.Sound := by
  unfold Sound at h
  cases move with
  | poll => exact sound_poll lookout
  | plan snapshot remaining hstage =>
      rw [hstage] at h
      exact h.congr rfl rfl rfl
  | settle snapshot wake hstage =>
      rw [hstage] at h
      exact sound_settle h wake
  | wake => trivial

theorem Step.sound (h : lookout.Sound) (step : Step lookout later) : later.Sound := by
  cases step with
  | move move => exact move.sound h
  | others service => exact h.congr rfl rfl rfl rfl (Nat.le_refl _)
  | set clock => exact h.congr rfl rfl rfl rfl (Nat.le_refl _)
  | tick nanos => exact h.congr rfl rfl rfl rfl (Nat.le_add_right _ _)

theorem Reachable.sound (h : Reachable first lookout) (hfirst : first.Sound) : lookout.Sound := by
  induction h with
  | start => exact hfirst
  | step h step ih => exact step.sound ih

theorem Move.waiter (move : Move lookout later) : later.waiter = lookout.waiter := by
  cases move <;> rfl

theorem Reachable.waiter (h : Reachable first lookout) : lookout.waiter = first.waiter := by
  induction h with
  | start => rfl
  | step h step ih =>
      cases step with
      | move move => exact move.waiter.trans ih
      | others | set | tick => exact ih

/-- A waiter who has finished makes no further move. -/
theorem Move.not_finished (move : Move lookout later) (result : Except ServiceError Snapshot) :
    lookout.stage ≠ .finished result := by
  intro hfinished
  cases move with
  | poll h | plan _ _ h | settle _ _ h | wake _ h =>
      rw [h] at hfinished
      cases hfinished

theorem Reachable.of_finished {result : Except ServiceError Snapshot}
    (h : Reachable lookout later) (hfinished : lookout.stage = .finished result) :
    later.stage = .finished result ∧ later.polls = lookout.polls ∧
      later.rested = lookout.rested := by
  induction h with
  | start => exact ⟨hfinished, rfl, rfl⟩
  | step h step ih =>
      cases step with
      | move move => exact absurd ih.1 (move.not_finished result)
      | others | set | tick => exact ih

/-- The service before and after a move: a poll may record how the operation has ended. -/
theorem Move.service (move : Move lookout later) :
    later.service = lookout.service ∨
    ∃ op, lookout.stage = .awake ∧
      lookout.service.operations.operations.get? lookout.waiter.name = some op ∧
      op.recorded = none ∧ op.due ≤ lookout.moment.clock ∧
      later.service = { lookout.service with
        operations := ⟨lookout.service.operations.operations.insert lookout.waiter.name
          { op with recorded := some op.planned }⟩ } := by
  cases move with
  | plan | settle | wake => exact .inl rfl
  | poll hstage =>
      rcases OperationBook.get_spares_or_records lookout.service.operations
        lookout.moment.clock lookout.waiter.name with hsame | ⟨op, hop, hr, hdue, hrecords⟩
      · left
        simp only [Lookout.poll, hsame]
      · right
        exact ⟨op, hstage, hop, hr, hdue, by simp only [Lookout.poll, hrecords]⟩

/-! ## The moves of an RPC -/

/-- An RPC makes the moves of a look one right after another. -/
theorem lookOnce_of_awake (h : lookout.stage = .awake) :
    ∃ step later, Relation.ReflTransGen Move lookout later ∧ later.stage = step.stage ∧
      lookOnce lookout.service lookout.moment lookout.waiter =
        (waitProgress lookout.waiter step, later.service) := by
  have hpoll : Relation.ReflTransGen Move lookout lookout.poll := .single (.poll lookout h)
  cases hget : lookout.service.operations.get lookout.moment.clock lookout.waiter.name with
  | mk reading operations =>
  cases reading with
  | error error =>
      refine ⟨.finished (.error error), lookout.poll, hpoll, ?_, ?_⟩
      · simp only [poll, hget, Stage.ofReading, WaitStep.stage]
      · simp only [lookOnce, Waiter.look, hget, poll]
  | ok snapshot =>
      cases hremaining : snapshot.remaining? with
      | none =>
          refine ⟨.finished (.ok snapshot), lookout.poll, hpoll, ?_, ?_⟩
          · simp only [poll, hget, Stage.ofReading, hremaining, WaitStep.stage]
          · simp only [lookOnce, Waiter.look, hget, poll, Waiter.decide, hremaining]
      | some remaining =>
          have hinformed : lookout.poll.stage = .informed snapshot remaining := by
            simp only [poll, hget, Stage.ofReading, hremaining]
          let wake := lookout.moment.timer + remaining.toDelay
          refine ⟨lookout.waiter.settle lookout.moment.timer wake snapshot,
            (lookout.poll.plan snapshot remaining).settle snapshot wake,
            (hpoll.tail (.plan _ _ _ hinformed)).tail (.settle _ _ _ rfl), rfl, ?_⟩
          simp only [lookOnce, Waiter.look, hget, Waiter.decide, hremaining, settle, plan, poll]
          rfl

end Lookout

/-! ## The timeout of a request -/

theorem totalNanos_neg_iff (duration : Duration) :
    duration.totalNanos < 0 ↔
      duration.seconds.toInt * nanosPerSecond + duration.nanos.toInt < 0 := by
  have hmin : Duration.minNanos < 0 := by decide
  have hmax : 0 ≤ Duration.maxNanos := by decide
  unfold Duration.totalNanos
  omega

theorem toDelay_of_neg (field : String) {duration : Duration} (h : duration.totalNanos < 0) :
    ∃ error, error.code = .invalidArgument ∧ duration.toDelay field = .error error := by
  simp only [Duration.toDelay, if_pos h, Except.error.injEq, exists_eq_right']

theorem toDelay_of_not_neg (field : String) {duration : Duration}
    (h : ¬ duration.totalNanos < 0) :
    duration.toDelay field = .ok duration.totalNanos.toNat := by
  simp only [Duration.toDelay, if_neg h]

/-- A negative timeout is refused before the operation is read; any other starts a wait. -/
theorem waitOperation_cases (service : Service) (moment : Moment)
    (request : WaitOperationRequest) :
    (∃ duration error, request.timeout = some duration ∧
      duration.seconds.toInt * nanosPerSecond + duration.nanos.toInt < 0 ∧
      error.code = .invalidArgument ∧
      waitOperation service moment request = (.answered ⟨[], .failed error⟩, service)) ∨
    ((∀ duration ∈ request.timeout,
        0 ≤ duration.seconds.toInt * nanosPerSecond + duration.nanos.toInt) ∧
      waitOperation service moment request = lookOnce service moment
        (.begin request.name (request.timeout.map (·.totalNanos.toNat)) moment)) := by
  obtain ⟨name, timeout⟩ := request
  cases timeout with
  | none => exact .inr ⟨by rintro _ ⟨⟩, rfl⟩
  | some duration =>
      by_cases hneg : duration.totalNanos < 0
      · left
        obtain ⟨error, hcode, herror⟩ := toDelay_of_neg "timeout" hneg
        refine ⟨duration, error, rfl, (totalNanos_neg_iff duration).1 hneg, hcode, ?_⟩
        simp only [waitOperation, Option.mapM_some, herror]
        rfl
      · right
        refine ⟨?_, ?_⟩
        · rintro _ ⟨⟩
          exact Int.not_lt.1 (mt (totalNanos_neg_iff duration).2 hneg)
        · simp only [waitOperation, Option.mapM_some, toDelay_of_not_neg "timeout" hneg]
          rfl

/-! ## Waits among others -/

/-- What a look at an operation answers, as an RPC shows it. -/
theorem getOperation_eq (service : Service) (now : Instant) (name : String) :
    (getOperation service now ⟨name⟩).1 =
      ((service.operations.get now name).1.map OperationMessage.ofSnapshot).mapError (·.toRpc) := by
  simp only [getOperation, perform_eq, Service.perform]
  cases (service.operations.get now name).1 <;> rfl

/-- A wait whose timeout is negative is refused at once.  Any other makes its moves, each look those
of an RPC, while others do as they like: no move changes anything but to record how the operation
has ended, when it was due.  What the wait reports in the end is what its last poll has told, since
which it has not slept: a pending operation only once its deadline has come, and never one that was
due, and an error only if the operation was not there. -/
theorem wait_safe :
    (∀ (service : Service) (moment : Moment) (request : WaitOperationRequest),
      (∃ duration error, request.timeout = some duration ∧
        duration.seconds.toInt * nanosPerSecond + duration.nanos.toInt < 0 ∧
        error.code = .invalidArgument ∧
        waitOperation service moment request = (.answered ⟨[], .failed error⟩, service)) ∨
      ((∀ duration ∈ request.timeout,
          0 ≤ duration.seconds.toInt * nanosPerSecond + duration.nanos.toInt) ∧
        waitOperation service moment request = lookOnce service moment
          (.begin request.name (request.timeout.map (·.totalNanos.toNat)) moment))) ∧
    (∀ lookout : Lookout, lookout.stage = .awake →
      ∃ step later, Relation.ReflTransGen Lookout.Move lookout later ∧
        later.stage = step.stage ∧
        lookOnce lookout.service lookout.moment lookout.waiter =
          (waitProgress lookout.waiter step, later.service)) ∧
    (∀ lookout later : Lookout, Lookout.Move lookout later →
      later.service = lookout.service ∨
      ∃ op, lookout.stage = .awake ∧
        lookout.service.operations.operations.get? lookout.waiter.name = some op ∧
        op.recorded = none ∧ op.due ≤ lookout.moment.clock ∧
        later.service = { lookout.service with
          operations := ⟨lookout.service.operations.operations.insert lookout.waiter.name
            { op with recorded := some op.planned }⟩ }) ∧
    ∀ (service : Service) (moment : Moment) (name : String) (timeout : Option Nat)
      (lookout : Lookout) (result : Except ServiceError Snapshot),
      Lookout.Reachable (.start service moment name timeout) lookout →
      lookout.stage = .finished result →
        lookout.rested = false ∧
        (∃ poll earlier, lookout.polls = poll :: earlier ∧ poll.reading name = result ∧
          waitProgress lookout.waiter (.finished result) =
            .answered (.ofResult (getOperation poll.service poll.moment.clock ⟨name⟩).1) ∧
          (∀ snapshot, result = .ok snapshot →
            (snapshot.isDone = false →
              ∃ delay, timeout = some delay ∧ moment.timer + delay ≤ lookout.moment.timer) ∧
            ∀ op, poll.service.operations.operations.get? name = some op →
              op.due ≤ poll.moment.clock → snapshot.isDone = true) ∧
          ∀ error, result = .error error →
            error = .operationNotFound name ∧
              poll.service.operations.operations.get? name = none) ∧
        ∀ later, Lookout.Reachable lookout later →
          later.stage = .finished result ∧ later.polls = lookout.polls ∧
            later.rested = lookout.rested := by
  refine ⟨waitOperation_cases, fun lookout => Lookout.lookOnce_of_awake,
    fun lookout later => Lookout.Move.service, ?_⟩
  intro service moment name timeout lookout result h hfinished
  have hwaiter := h.waiter
  have hsound := h.sound trivial
  unfold Lookout.Sound at hsound
  rw [hfinished] at hsound
  obtain ⟨⟨hrested, poll, earlier, hpolls, hreading⟩, hlate⟩ := hsound
  rw [hwaiter] at hreading
  refine ⟨hrested, ⟨poll, earlier, hpolls, hreading, ?_, ?_, ?_⟩, ?_⟩
  · have hresult : (poll.service.operations.get poll.moment.clock name).1 = result := hreading
    rw [getOperation_eq, hresult]
    rfl
  · intro snapshot hsnapshot
    refine ⟨?_, ?_⟩
    · intro hpending
      obtain ⟨deadline, hdeadline, hle⟩ := hlate snapshot hsnapshot hpending
      rw [hwaiter] at hdeadline
      obtain ⟨delay, htimeout, rfl⟩ := Option.map_eq_some_iff.1 hdeadline
      exact ⟨delay, htimeout, hle⟩
    · intro op hop hdue
      exact OperationBook.isDone_of_due (hreading.trans hsnapshot) hop hdue
  · intro error herror
    exact OperationBook.get_of_error (hreading.trans herror)
  · intro later hlater
    exact hlater.of_finished hfinished

/-- A service with an operation that is due at an instant. -/
def dueAt (due : Instant) : Service :=
  Service.after default
    [{ now := .ofSeconds 15 (by decide)
       call := .start { completion := some due }
       candidates := ["a"] }]

/-- A service with an operation that is due ten seconds after it was started. -/
def dueSoon : Service := dueAt (.ofSeconds 25 (by decide))

/-- The operation while it is pending. -/
def pendingFor (span : Span) : Snapshot := ⟨"operations/a", .pending span⟩

/-- An instant some nanoseconds before the operation is due. -/
def before (nanos : Nat) (h : 0 < nanos ∧ nanos ≤ 1000000000) : Instant :=
  ⟨24, 1000000000 - nanos, by decide, by decide, .inl (by unfold Time.nanosPerSecond; omega)⟩

/-- The clock is set back while a waiter sleeps, and its deadline comes between its second poll and
its look at the timer. -/
theorem exists_run_set_back :
    ∃ lookout, Lookout.Reachable
        (.start dueSoon ⟨before 5 (by decide), 0⟩ "operations/a" (some 10)) lookout ∧
      lookout.stage = .finished (.ok (pendingFor ⟨8, by decide⟩)) ∧
      lookout.polls.length = 2 := by
  let five : Span := ⟨5, by decide⟩
  let eight : Span := ⟨8, by decide⟩
  have h : Lookout.Reachable
    (.start dueSoon ⟨before 5 (by decide), 0⟩ "operations/a" (some 10)) _ := .start
  have h := h.step (.move (.poll _ rfl))
  have h := h.step (.move (.plan _ (pendingFor five) five rfl))
  have h := h.step (.move (.settle _ (pendingFor five) 5 rfl))
  have h := h.step (.tick _ 5)
  have h := h.step (.set _ (before 8 (by decide)))
  have h := h.step (.move (.wake _ 5 rfl (by decide)))
  have h := h.step (.move (.poll _ rfl))
  have h := h.step (.tick _ 5)
  have h := h.step (.move (.plan _ (pendingFor eight) eight rfl))
  have h := h.step (.move (.settle _ (pendingFor eight) 18 rfl))
  exact ⟨_, h, rfl, rfl⟩

/-- The operation is gone when a waiter reads it. -/
theorem exists_run_gone (moment : Moment) :
    ∃ lookout, Lookout.Reachable (.start dueSoon moment "operations/a" none) lookout ∧
      lookout.stage = .finished (.error (.operationNotFound "operations/a")) := by
  have h : Lookout.Reachable (.start dueSoon moment "operations/a" none) _ := .start
  have h := h.step (.others _ {})
  have h := h.step (.move (.poll _ rfl))
  exact ⟨_, h, rfl⟩

/-- A wait that is refused, one whose clock is set back, one that finds the operation gone, and the
poll that records how it has ended. -/
theorem wait_safe_set_back :
    let moment : Moment := ⟨before 5 (by decide), 0⟩
    (∃ error, waitOperation dueSoon moment ⟨"operations/a", some ⟨-1, 999999999⟩⟩ =
        (.answered ⟨[], .failed error⟩, dueSoon) ∧ error.code = .invalidArgument) ∧
    (∃ step later, Lookout.stage later = WaitStep.stage step ∧
      lookOnce dueSoon moment (.begin "operations/a" none moment) =
        (waitProgress (.begin "operations/a" none moment) step, later.service)) ∧
    (let late := Lookout.start dueSoon ⟨.ofSeconds 50 (by decide), 0⟩ "operations/a" none
      ∃ op : Operation, op.recorded = none ∧ late.poll.service = { dueSoon with
        operations := ⟨dueSoon.operations.operations.insert "operations/a"
          { op with recorded := some op.planned }⟩ }) ∧
    (∃ lookout : Lookout,
      lookout.stage = .finished (.ok (pendingFor ⟨8, by decide⟩)) ∧
      lookout.polls.length = 2 ∧ lookout.rested = false ∧
      ∃ delay, some 10 = some delay ∧ 0 + delay ≤ lookout.moment.timer) ∧
    ∃ lookout poll earlier, Lookout.polls lookout = poll :: earlier ∧
      poll.service.operations.operations.get? "operations/a" = none := by
  intro moment
  obtain ⟨refused, looks, records, reports⟩ := wait_safe
  refine ⟨?_, ?_, ?_, ?_, ?_⟩
  · rcases refused dueSoon moment ⟨"operations/a", some ⟨-1, 999999999⟩⟩ with
      ⟨duration, error, -, -, hcode, hrefused⟩ | ⟨hpositive, -⟩
    · exact ⟨error, hrefused, hcode⟩
    · exact absurd (hpositive _ rfl) (by decide)
  · obtain ⟨step, later, -, hstage, hlook⟩ :=
      looks (.start dueSoon moment "operations/a" none) rfl
    exact ⟨step, later, hstage, hlook⟩
  · rcases records _ _ (.poll (.start dueSoon ⟨.ofSeconds 50 (by decide), 0⟩ "operations/a" none)
      rfl) with hsame | ⟨op, -, -, hr, -, hrecords⟩
    · have hnone := congrArg (fun service : Service =>
        (service.operations.operations.get? "operations/a").bind Operation.recorded) hsame
      cases hnone
    · exact ⟨op, hr, hrecords⟩
  · obtain ⟨lookout, h, hfinished, hlength⟩ := exists_run_set_back
    obtain ⟨hrested, ⟨poll, earlier, -, -, -, hpending, -⟩, -⟩ := reports _ _ _ _ _ _ h hfinished
    exact ⟨lookout, hfinished, hlength, hrested, (hpending _ rfl).1 rfl⟩
  · obtain ⟨lookout, h, hfinished⟩ := exists_run_gone moment
    obtain ⟨-, ⟨poll, earlier, hpolls, -, -, -, hmissing⟩, -⟩ := reports _ _ _ _ _ _ h hfinished
    exact ⟨lookout, poll, earlier, hpolls, (hmissing _ rfl).2⟩

end Rpc

end Rehearsal
