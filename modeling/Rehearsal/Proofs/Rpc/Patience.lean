import Rehearsal.Proofs.Rpc.Lookout
import Rehearsal.Proofs.Time.Instant

/-!
# Waits that nobody disturbs come to an end

If nobody touches the operation and the clock goes on with the timer, a waiter who sleeps for as
long as the operation is pending finds it due when it wakes.  Only if the operation is due in a leap
second may the first sleep be a second short; then it ends in the second that the leap second
belongs to, and the next sleep is exact (`Lookout.comes_of_poll`).  So there are two polls at most,
or three (`pollLimit`), and what is left for the waiter to do gets less with every move
(`Lookout.left`).
-/

namespace Rehearsal

open Time (Instant Span nanosPerSecond)

namespace Rpc

/-- How often a waiter polls at most that nobody disturbs. -/
def pollLimit (due : Instant) : Nat := if due.inLeapSecond then 3 else 2

/-- The moves until the next poll. -/
def Stage.rest : Stage → Nat
  | .awake | .finished _ => 0
  | .asleep _ => 1
  | .planned .. => 2
  | .informed .. => 3

theorem two_le_pollLimit (due : Instant) : 2 ≤ pollLimit due := by
  unfold pollLimit
  split <;> decide

namespace Lookout

variable {first lookout later : Lookout} {due : Instant} {op : Operation} {moves : Nat}

/-! ## What the clock will show -/

/-- The nanoseconds since the epoch at a reading of the timer, if the clock goes on with it. -/
def clockAt (lookout : Lookout) (timer : Nat) : Int :=
  lookout.moment.clock.total + (timer - lookout.moment.timer)

/-- A waiter who wakes at a reading of the timer finds the operation due, or else it has polled once
and the clock has come to the second in which the operation is due, a leap second. -/
def Comes (lookout : Lookout) (due : Instant) (polls wake : Nat) : Prop :=
  due.total ≤ lookout.clockAt wake ∨
    (polls = 1 ∧ due.inLeapSecond = true ∧
      due.seconds * nanosPerSecond ≤ lookout.clockAt wake)

theorem clockAt_timer (lookout : Lookout) :
    lookout.clockAt lookout.moment.timer = lookout.moment.clock.total := by
  unfold clockAt
  omega

theorem clockAt_mono (lookout : Lookout) {wake timer : Nat} (h : wake ≤ timer) :
    lookout.clockAt wake ≤ lookout.clockAt timer := by
  unfold clockAt
  omega

theorem Comes.mono {polls wake timer : Nat} (h : lookout.Comes due polls wake)
    (hle : wake ≤ timer) : lookout.Comes due polls timer := by
  have hclock := lookout.clockAt_mono hle
  rcases h with h | ⟨hpolls, hleap, h⟩
  · exact .inl (Int.le_trans h hclock)
  · exact .inr ⟨hpolls, hleap, Int.le_trans h hclock⟩

theorem Comes.congr {polls wake : Nat} (h : lookout.Comes due polls wake)
    (hclock : later.clockAt wake = lookout.clockAt wake) : later.Comes due polls wake := by
  unfold Comes
  rw [hclock]
  exact h

/-- The time between two polls is as long as the operation was pending at the first. -/
theorem clockAt_since (plain : lookout.moment.clock.Plain) (hdue : ¬ due ≤ lookout.moment.clock) :
    lookout.clockAt (lookout.moment.timer + (due.since lookout.moment.clock).toDelay) =
      lookout.moment.clock.total + (due.since lookout.moment.clock).nanos := by
  have hpos := Instant.since_pos plain (Instant.not_le.1 hdue)
  unfold clockAt Span.toDelay
  omega

/-- A waiter who finds the operation pending has not polled too often; unless it is late, it has a
poll left and wakes in time for it. -/
theorem comes_of_poll (plain : lookout.moment.clock.Plain) (hdue : ¬ due ≤ lookout.moment.clock)
    {polls : Nat}
    (h : polls = 0 ∨ (polls + 1 ≤ pollLimit due ∧
      (lookout.Late ∨ lookout.Comes due polls lookout.moment.timer))) :
    polls + 1 ≤ pollLimit due ∧
      (lookout.Late ∨ (polls + 2 ≤ pollLimit due ∧ lookout.Comes due (polls + 1)
        (lookout.moment.timer + (due.since lookout.moment.clock).toDelay))) := by
  have hlimit := two_le_pollLimit due
  have hwake := clockAt_since plain hdue
  rcases h with rfl | ⟨hroom, late | hripe | ⟨rfl, hleap, hsecond⟩⟩
  · refine ⟨by omega, .inr ⟨by omega, ?_⟩⟩
    rcases Instant.since_cases (a := due) plain with hsince | ⟨hleap, -, hshort⟩
    · left
      rw [hwake, hsince]
      omega
    · right
      have hnanos := Instant.nanosPerSecond_le_of_inLeapSecond hleap
      refine ⟨rfl, hleap, ?_⟩
      rw [hwake, hshort]
      unfold Instant.total
      omega
  · exact ⟨hroom, .inl late⟩
  · rw [clockAt_timer] at hripe
    exact absurd (Instant.le_of_total_le plain hripe) hdue
  · -- The clock has come to the second in which the operation is due.
    rw [clockAt_timer] at hsecond
    have hle := Instant.seconds_le_of_total plain hsecond
    have hlt := Instant.lt_iff.1 (Instant.not_le.1 hdue)
    have hthree : pollLimit due = 3 := if_pos hleap
    refine ⟨hroom, .inr ⟨by omega, .inl ?_⟩⟩
    rcases Instant.since_cases (a := due) plain with hsince | ⟨-, hne, -⟩
    · rw [hwake, hsince]
      omega
    · omega

/-! ## Where a waiter stands -/

/-- The deadline of the waiter comes by a reading of the timer. -/
def DeadlineBy (lookout : Lookout) (timer : Nat) : Prop :=
  ∃ deadline ∈ lookout.waiter.deadline, deadline ≤ timer

/-- A waiter has polls left for as long as it may still find the operation pending. -/
def Stands (due : Instant) (lookout : Lookout) : Prop :=
  let polls := lookout.polls.length
  match lookout.stage with
  | .awake => polls = 0 ∨ (polls + 1 ≤ pollLimit due ∧
      (lookout.Late ∨ lookout.Comes due polls lookout.moment.timer))
  | .informed _ remaining => polls ≤ pollLimit due ∧
      (lookout.Late ∨ (polls + 1 ≤ pollLimit due ∧
        lookout.Comes due polls (lookout.moment.timer + remaining.toDelay)))
  | .planned _ wake => polls ≤ pollLimit due ∧
      (lookout.Late ∨ (polls + 1 ≤ pollLimit due ∧ lookout.Comes due polls wake))
  | .asleep wake => polls + 1 ≤ pollLimit due ∧
      (lookout.DeadlineBy wake ∨ lookout.Comes due polls wake)
  | .finished result => polls ≤ pollLimit due ∧ ∃ snapshot, result = .ok snapshot

/-- A bound on the moves that are left. -/
def left (due : Instant) (lookout : Lookout) : Nat :=
  4 * (pollLimit due - lookout.polls.length) + lookout.stage.rest

/-- A run that nobody disturbs: the operation is as it was until the waiter finds it due, and the
waiter has made no more moves than it may. -/
structure Quiet (op : Operation) (moves : Nat) (lookout : Lookout) : Prop where
  plain : lookout.moment.clock.Plain
  polled : ∀ poll ∈ lookout.polls, poll.moment.clock.Plain ∧
    poll.service.operations.operations.get? lookout.waiter.name = some op
  kept : (∀ result, lookout.stage ≠ .finished result) →
    lookout.service.operations.operations.get? lookout.waiter.name = some op
  stands : lookout.Stands op.due
  moves : moves + lookout.left op.due ≤ 4 * pollLimit op.due

/-- A waiter stands as it stood while time passes on both clocks alike. -/
theorem Stands.congr (h : lookout.Stands due) (hwaiter : later.waiter = lookout.waiter)
    (hstage : later.stage = lookout.stage) (hpolls : later.polls = lookout.polls)
    (htimer : lookout.moment.timer ≤ later.moment.timer)
    (hclock : ∀ timer, later.clockAt timer = lookout.clockAt timer) : later.Stands due := by
  unfold Stands at h ⊢
  rw [hstage, hpolls]
  cases hat : lookout.stage with
  | awake =>
      rw [hat] at h
      rcases h with h | ⟨hroom, late | comes⟩
      · exact .inl h
      · exact .inr ⟨hroom, .inl (late.mono hwaiter htimer)⟩
      · exact .inr ⟨hroom, .inr ((comes.mono htimer).congr (hclock _))⟩
  | informed snapshot remaining =>
      rw [hat] at h
      obtain ⟨hroom, late | ⟨hroom', comes⟩⟩ := h
      · exact ⟨hroom, .inl (late.mono hwaiter htimer)⟩
      · refine ⟨hroom, .inr ⟨hroom', ?_⟩⟩
        exact (comes.mono (Nat.add_le_add_right htimer _)).congr (hclock _)
  | planned snapshot wake =>
      rw [hat] at h
      obtain ⟨hroom, late | ⟨hroom', comes⟩⟩ := h
      · exact ⟨hroom, .inl (late.mono hwaiter htimer)⟩
      · exact ⟨hroom, .inr ⟨hroom', comes.congr (hclock _)⟩⟩
  | asleep wake =>
      rw [hat] at h
      obtain ⟨hroom, deadline | comes⟩ := h
      · refine ⟨hroom, .inl ?_⟩
        unfold DeadlineBy
        rw [hwaiter]
        exact deadline
      · exact ⟨hroom, .inr (comes.congr (hclock _))⟩
  | finished result =>
      rw [hat] at h
      exact h

/-- A waiter who goes to sleep has a poll left for when it wakes. -/
theorem stands_settle {snapshot : Snapshot} {wake : Nat}
    (hroom : lookout.polls.length ≤ pollLimit due)
    (h : lookout.Late ∨ (lookout.polls.length + 1 ≤ pollLimit due ∧
      lookout.Comes due lookout.polls.length wake)) :
    (lookout.settle snapshot wake).Stands due := by
  rcases lookout.settle_cases snapshot wake with ⟨-, hsettle⟩ | ⟨hlate, alarm, halarm, hsettle⟩
  · rw [hsettle]
    exact ⟨hroom, snapshot, rfl⟩
  · obtain ⟨hroom', comes⟩ := h.resolve_left hlate
    rw [hsettle]
    rcases halarm with rfl | hdeadline
    · exact ⟨hroom', .inr comes⟩
    · exact ⟨hroom', .inl ⟨alarm, hdeadline, Nat.le_refl _⟩⟩

/-! ## One move -/

theorem poll_of_due (hop : lookout.service.operations.operations.get? lookout.waiter.name = some op)
    (hr : op.recorded = none) (hdue : op.due ≤ lookout.moment.clock) :
    lookout.poll.stage = .finished (.ok ⟨lookout.waiter.name, .done op.planned⟩) := by
  simp only [poll, OperationBook.get_of_due hop hr hdue]
  rfl

theorem poll_of_not_due
    (hop : lookout.service.operations.operations.get? lookout.waiter.name = some op)
    (hr : op.recorded = none) (hdue : ¬ op.due ≤ lookout.moment.clock) :
    lookout.poll = { lookout with
      stage := .informed ⟨lookout.waiter.name, .pending (op.due.since lookout.moment.clock)⟩
        (op.due.since lookout.moment.clock)
      polls := ⟨lookout.service, lookout.moment⟩ :: lookout.polls
      rested := false } := by
  simp only [poll, OperationBook.get_of_not_due hop hr hdue]
  rfl

/-- A poll keeps the run quiet: the operation is reported, or it is as it was. -/
theorem Quiet.poll (h : Quiet op moves lookout) (hr : op.recorded = none)
    (hstage : lookout.stage = .awake) : Quiet op (moves + 1) lookout.poll := by
  have hop := h.kept (by intro result; rw [hstage]; exact Stage.noConfusion)
  have hstands := h.stands
  have hmoves := h.moves
  unfold Stands at hstands
  rw [hstage] at hstands
  rw [left, hstage, Stage.rest] at hmoves
  have hlimit := two_le_pollLimit op.due
  have hlength : lookout.poll.polls.length = lookout.polls.length + 1 := rfl
  have hpolled : ∀ poll ∈ lookout.poll.polls, poll.moment.clock.Plain ∧
      poll.service.operations.operations.get? lookout.waiter.name = some op := by
    intro poll hpoll
    rcases List.mem_cons.1 hpoll with rfl | hearlier
    · exact ⟨h.plain, hop⟩
    · exact h.polled poll hearlier
  by_cases hdue : op.due ≤ lookout.moment.clock
  · have hfinished := poll_of_due hop hr hdue
    refine ⟨h.plain, hpolled, ?_, ?_, ?_⟩
    · intro hnot
      exact absurd hfinished (hnot _)
    · unfold Stands
      rw [hfinished]
      exact ⟨by omega, _, rfl⟩
    · rw [left, hfinished, Stage.rest, hlength]
      omega
  · have hinformed := congrArg Lookout.stage (poll_of_not_due hop hr hdue)
    refine ⟨h.plain, hpolled, ?_, ?_, ?_⟩
    · intro _
      rw [poll_of_not_due hop hr hdue]
      exact hop
    · unfold Stands
      rw [hinformed]
      exact comes_of_poll h.plain hdue hstands
    · rw [left, hinformed, Stage.rest, hlength]
      omega

theorem rest_settle (snapshot : Snapshot) (wake : Nat) :
    (lookout.settle snapshot wake).stage.rest ≤ 1 := by
  rcases lookout.settle_cases snapshot wake with ⟨-, hsettle⟩ | ⟨-, alarm, -, hsettle⟩
  · rw [hsettle]
    exact Nat.zero_le _
  · rw [hsettle]
    exact Nat.le_refl _

theorem Quiet.move (h : Quiet op moves lookout) (hr : op.recorded = none)
    (move : Move lookout later) : Quiet op (moves + 1) later := by
  have hstands := h.stands
  have hmoves := h.moves
  have hkept : lookout.service.operations.operations.get? lookout.waiter.name = some op :=
    h.kept move.not_finished
  unfold Stands at hstands
  unfold left at hmoves
  cases move with
  | poll hstage => exact h.poll hr hstage
  | plan snapshot remaining hstage =>
      rw [hstage] at hstands hmoves
      refine ⟨h.plain, h.polled, fun _ => hkept, hstands, ?_⟩
      simp only [left, plan, Stage.rest] at hmoves ⊢
      omega
  | settle snapshot wake hstage =>
      rw [hstage] at hstands hmoves
      refine ⟨h.plain, h.polled, fun _ => hkept, stands_settle hstands.1 hstands.2, ?_⟩
      have hrest := lookout.rest_settle snapshot wake
      have hpolls : (lookout.settle snapshot wake).polls = lookout.polls := rfl
      rw [left, hpolls]
      simp only [Stage.rest] at hmoves
      omega
  | wake wake hstage hdue =>
      rw [hstage] at hstands hmoves
      refine ⟨h.plain, h.polled, fun _ => hkept, .inr ⟨hstands.1, ?_⟩, ?_⟩
      · rcases hstands.2 with ⟨deadline, hdeadline, hle⟩ | comes
        · exact .inl ⟨deadline, hdeadline, Nat.le_trans hle hdue⟩
        · exact .inr (comes.mono hdue)
      · simp only [left, Stage.rest] at hmoves ⊢
        omega

/-! ## A whole run -/

theorem Undisturbed.reachable (h : Undisturbed first moves lookout) : Reachable first lookout := by
  induction h with
  | start => exact .start
  | move _ move ih => exact ih.step (.move move)
  | pass _ span clock _ _ ih => exact (ih.step (.tick _ span.nanos.toNat)).step (.set _ clock)
  | others _ service hsame ih => exact ih.step (.others _ service)

/-- What a poll has told in a quiet run: how the operation has ended if it was due, and else for how
long it is pending. -/
theorem Quiet.reading (h : Quiet op moves lookout) (hr : op.recorded = none) {poll : Poll}
    (hpoll : poll ∈ lookout.polls) :
    (op.due ≤ poll.moment.clock ∧
      poll.reading lookout.waiter.name = .ok ⟨lookout.waiter.name, .done op.planned⟩) ∨
    (poll.moment.clock < op.due ∧ poll.reading lookout.waiter.name =
      .ok ⟨lookout.waiter.name, .pending (op.due.since poll.moment.clock)⟩) := by
  obtain ⟨-, hop⟩ := h.polled poll hpoll
  unfold Poll.reading
  by_cases hdue : op.due ≤ poll.moment.clock
  · exact .inl ⟨hdue, by rw [OperationBook.get_of_due hop hr hdue]⟩
  · exact .inr ⟨Instant.not_le.1 hdue, by rw [OperationBook.get_of_not_due hop hr hdue]⟩

/-- The poll that finds the operation due. -/
theorem Undisturbed.last (h : Undisturbed first moves lookout) (hstage : lookout.stage = .awake)
    (hop : lookout.service.operations.operations.get? lookout.waiter.name = some op)
    (hr : op.recorded = none) (hdue : op.due ≤ lookout.moment.clock) :
    ∃ later, Undisturbed first (moves + 1) later ∧
      later.stage = .finished (.ok ⟨lookout.waiter.name, .done op.planned⟩) ∧
      later.polls = ⟨lookout.service, lookout.moment⟩ :: lookout.polls :=
  ⟨lookout.poll, h.move (.poll lookout hstage), poll_of_due hop hr hdue, rfl⟩

end Lookout

end Rpc

end Rehearsal
