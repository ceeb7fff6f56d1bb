import Rehearsal.Operation.Race

/-!
# One outcome for each operation

However calls interleave and wherever the clock is set, the steps on one operation go through three
phases: it is pending, then one step ends it, and from then on every step finds it as it ended
(`Course`).  One step under the lock goes on with the course of its operation and leaves all
others alone, so every operation of a reachable arena has such a course (`Arena.Sound`), and all
that is said of outcomes is read off from it.
-/

namespace Rehearsal

open Time (Instant)

/-! ## The course of one operation -/

namespace Touch

/-- The step finds the operation pending and leaves it so. -/
structure Waits (touch : Touch) : Prop where
  before : touch.before.recorded = none
  after : touch.after = touch.before
  answer : ∃ remaining, touch.answer = .pending remaining

/-- The step ends the operation: as planned at or after its due time, or as cancelled before it. -/
structure Ends (touch : Touch) (entry : Entry) (outcome : Outcome) : Prop where
  before : touch.before.recorded = none
  after : touch.after = { touch.before with recorded := some outcome }
  answer : touch.answer = .done outcome
  cause :
    (outcome = entry.spec.outcome ∧ entry.spec.completion.getD entry.started ≤ touch.reading) ∨
      (outcome = .cancelled ∧ touch.act = .cancel ∧
        touch.reading < entry.spec.completion.getD entry.started)

/-- The step finds the operation ended and leaves it so. -/
structure Repeats (touch : Touch) (outcome : Outcome) : Prop where
  before : touch.before.recorded = some outcome
  after : touch.after = touch.before
  answer : touch.answer = .done outcome

theorem Waits.writes_eq_false {touch : Touch} (h : touch.Waits) : touch.writes = false := by
  simp [writes, h.after]

theorem Ends.writes_eq_true {touch : Touch} {entry : Entry} {outcome : Outcome}
    (h : touch.Ends entry outcome) : touch.writes = true := by
  simp [writes, h.after, h.before]

theorem Repeats.writes_eq_false {touch : Touch} {outcome : Outcome} (h : touch.Repeats outcome) :
    touch.writes = false := by
  simp [writes, h.after]

end Touch

/-- The steps on one operation, the latest first, and the outcome that is recorded by then. -/
inductive Course (entry : Entry) : List Touch → Option Outcome → Prop where
  | starts : Course entry [] none
  | waits {touches : List Touch} {touch : Touch} (h : Course entry touches none)
      (step : touch.Waits) : Course entry (touch :: touches) none
  | ends {touches : List Touch} {touch : Touch} {outcome : Outcome}
      (h : Course entry touches none) (step : touch.Ends entry outcome) :
      Course entry (touch :: touches) (some outcome)
  | repeats {touches : List Touch} {touch : Touch} {outcome : Outcome}
      (h : Course entry touches (some outcome)) (step : touch.Repeats outcome) :
      Course entry (touch :: touches) (some outcome)

namespace Course

variable {entry : Entry} {touches : List Touch} {recorded : Option Outcome}

theorem filter_writes_of_none (h : Course entry touches none) :
    touches.filter Touch.writes = [] := by
  generalize hr : (none : Option Outcome) = recorded at h
  induction h with
  | starts => rfl
  | waits h step ih => rw [List.filter_cons_of_neg (by simp [step.writes_eq_false]), ih hr]
  | ends | repeats => cases hr

/-- Exactly one step has written if an outcome is recorded, and none if not. -/
theorem filter_writes_of_some {outcome : Outcome} (h : Course entry touches (some outcome)) :
    ∃ touch, touches.filter Touch.writes = [touch] ∧ touch.Ends entry outcome := by
  generalize hr : some outcome = recorded at h
  induction h with
  | starts | waits => cases hr
  | ends h step =>
      cases hr
      refine ⟨_, ?_, step⟩
      rw [List.filter_cons_of_pos step.writes_eq_true, h.filter_writes_of_none]
  | repeats h step ih =>
      obtain ⟨touch, hfilter, hends⟩ := ih hr
      have hskip : ¬ _ := ne_true_of_eq_false step.writes_eq_false
      exact ⟨touch, by rw [List.filter_cons_of_neg hskip, hfilter], hends⟩

theorem ends_of_writes (h : Course entry touches recorded) {touch : Touch} (hmem : touch ∈ touches)
    (hwrites : touch.writes = true) : ∃ outcome, recorded = some outcome ∧
      touch.Ends entry outcome := by
  have hfilter : touch ∈ touches.filter Touch.writes := List.mem_filter.2 ⟨hmem, hwrites⟩
  cases recorded with
  | none =>
      rw [h.filter_writes_of_none] at hfilter
      cases hfilter
  | some outcome =>
      obtain ⟨write, hwrite, hends⟩ := h.filter_writes_of_some
      rw [hwrite, List.mem_singleton] at hfilter
      exact ⟨outcome, rfl, hfilter ▸ hends⟩

/-- Whoever is told of an outcome is told of the one that is recorded. -/
theorem recorded_of_done (h : Course entry touches recorded) {touch : Touch} {outcome : Outcome}
    (hmem : touch ∈ touches) (hdone : touch.answer = .done outcome) :
    recorded = some outcome := by
  induction h with
  | starts => cases hmem
  | waits h step ih =>
      rcases List.mem_cons.1 hmem with rfl | hmem
      · obtain ⟨remaining, hanswer⟩ := step.answer
        rw [hanswer] at hdone
        cases hdone
      · exact absurd (ih hmem) (by simp)
  | ends h step ih =>
      rcases List.mem_cons.1 hmem with rfl | hmem
      · rw [step.answer] at hdone
        cases hdone
        rfl
      · exact absurd (ih hmem) (by simp)
  | repeats h step ih =>
      rcases List.mem_cons.1 hmem with rfl | hmem
      · rw [step.answer] at hdone
        cases hdone
        rfl
      · exact ih hmem

/-- After a step that writes, every step answers with what it wrote. -/
theorem done_after_writes (h : Course entry touches recorded) {later earlier : List Touch}
    {write : Touch} (hsplit : touches = later ++ write :: earlier) (hwrites : write.writes = true) :
    ∀ touch ∈ later, ∃ outcome, touch.answer = .done outcome ∧
      write.after.recorded = some outcome := by
  induction h generalizing later with
  | starts => exact absurd hsplit (by simp)
  | waits h step ih | ends h step ih =>
      cases later with
      | nil => exact fun _ hmem => absurd hmem List.not_mem_nil
      | cons head later =>
          obtain ⟨-, rfl⟩ := List.cons.inj hsplit
          -- Nothing has been written while the operation is pending.
          obtain ⟨outcome, hnone, -⟩ := h.ends_of_writes (by simp) hwrites
          cases hnone
  | repeats h step ih =>
      cases later with
      | nil => exact fun _ hmem => absurd hmem List.not_mem_nil
      | cons head later =>
          obtain ⟨rfl, rfl⟩ := List.cons.inj hsplit
          obtain ⟨outcome, hsome, hends⟩ := h.ends_of_writes (by simp) hwrites
          cases hsome
          intro touch hmem
          rcases List.mem_cons.1 hmem with rfl | hmem
          · exact ⟨_, step.answer, by rw [hends.after]⟩
          · exact ih rfl touch hmem

theorem exists_writes {outcome : Outcome} (h : Course entry touches (some outcome)) :
    ∃ touch ∈ touches, touch.writes = true := by
  obtain ⟨touch, hfilter, -⟩ := h.filter_writes_of_some
  have hmem : touch ∈ touches.filter Touch.writes := by
    rw [hfilter]
    exact List.mem_singleton_self touch
  exact ⟨touch, List.mem_filter.1 hmem⟩

theorem length_filter_writes_le (h : Course entry touches recorded) :
    (touches.filter Touch.writes).length ≤ 1 := by
  cases recorded with
  | none => rw [h.filter_writes_of_none]; exact Nat.zero_le 1
  | some outcome =>
      obtain ⟨touch, hfilter, -⟩ := h.filter_writes_of_some
      rw [hfilter]
      exact Nat.le_refl 1

end Course

/-! ## One step under the lock -/

/-- The plan of an operation is the one it was started with. -/
def Entry.OnPlan (entry : Entry) : Prop :=
  entry.operation.due = entry.spec.completion.getD entry.started ∧
    entry.operation.planned = entry.spec.outcome

/-- All that a step under the lock can do. -/
theorem Act.on_cases (act : Act) (op : Operation) (now : Instant) :
    (∃ outcome, op.recorded = some outcome ∧ act.on op now = (.done outcome, op)) ∨
    (op.recorded = none ∧ ∃ remaining, act.on op now = (.pending remaining, op)) ∨
    (op.recorded = none ∧ ∃ outcome,
      act.on op now = (.done outcome, { op with recorded := some outcome }) ∧
        ((outcome = op.planned ∧ op.due ≤ now) ∨
          (outcome = .cancelled ∧ act = .cancel ∧ now < op.due))) := by
  cases hr : op.recorded with
  | some outcome =>
      refine .inl ⟨outcome, rfl, ?_⟩
      cases act with
      | look => exact Operation.evaluate_of_recorded hr
      | cancel => exact Operation.cancel_of_recorded hr
  | none =>
      right
      by_cases hdue : op.due ≤ now
      · refine .inr ⟨rfl, op.planned, ?_, .inl ⟨rfl, hdue⟩⟩
        cases act with
        | look => exact Operation.evaluate_of_due hr hdue
        | cancel => exact Operation.cancel_of_due hr hdue
      · cases act with
        | look => exact .inl ⟨rfl, _, Operation.evaluate_of_not_due hr hdue⟩
        | cancel =>
            exact .inr ⟨rfl, _, Operation.cancel_of_not_due hr hdue,
              .inr ⟨rfl, rfl, Instant.not_le.1 hdue⟩⟩

variable {entry : Entry} {touches : List Touch}

/-- A step under the lock goes on with the course of the operation. -/
theorem Course.act (h : Course entry touches entry.operation.recorded) (plan : entry.OnPlan)
    (position : Nat) (act : Act) (now : Instant) :
    Course entry
      (⟨position, now, act, entry.operation, (act.on entry.operation now).1,
        (act.on entry.operation now).2⟩ :: touches) (act.on entry.operation now).2.recorded := by
  rcases act.on_cases entry.operation now with ⟨outcome, hr, hon⟩ | ⟨hr, remaining, hon⟩ |
    ⟨hr, outcome, hon, hcause⟩
  · rw [hr] at h
    rw [hon, hr]
    exact .repeats h ⟨hr, rfl, rfl⟩
  · rw [hr] at h
    rw [hon, hr]
    exact .waits h ⟨hr, rfl, remaining, rfl⟩
  · rw [hr] at h
    rw [plan.1, plan.2] at hcause
    rw [hon]
    exact .ends h ⟨hr, rfl, rfl, hcause⟩

theorem Entry.OnPlan.act (plan : entry.OnPlan) (act : Act) (now : Instant) :
    OnPlan { entry with operation := (act.on entry.operation now).2 } := by
  rcases act.on_cases entry.operation now with ⟨outcome, -, hon⟩ | ⟨-, remaining, hon⟩ |
    ⟨-, outcome, hon, -⟩
  all_goals
    rw [hon]
    exact plan

/-- The course of an operation depends only on what it was started with. -/
theorem Course.congr {other : Entry} {recorded : Option Outcome} (h : Course entry touches recorded)
    (hspec : other.spec = entry.spec) (hstarted : other.started = entry.started) :
    Course other touches recorded := by
  induction h with
  | starts => exact .starts
  | waits h step ih => exact .waits ih step
  | repeats h step ih => exact .repeats ih step
  | ends h step ih =>
      have hcause := step.cause
      rw [← hspec, ← hstarted] at hcause
      exact .ends ih ⟨step.before, step.after, step.answer, hcause⟩

/-! ## Many calls -/

namespace Arena

variable {arena later : Arena}

/-- Every step is on an operation that was started, and every operation has its course. -/
structure Sound (arena : Arena) : Prop where
  inRange : ∀ touch ∈ arena.touches, touch.entry < arena.entries.length
  onPlan : ∀ entry ∈ arena.entries, entry.OnPlan
  course : ∀ position entry, arena.entries[position]? = some entry →
    Course entry (arena.touchesOn position) entry.operation.recorded

theorem Sound.start (clock : Instant) : Sound { clock } where
  inRange _ h := by cases h
  onPlan _ h := by cases h
  course _ _ h := by cases h

theorem Sound.congr (h : arena.Sound) (hentries : later.entries = arena.entries)
    (htouches : later.touches = arena.touches) : later.Sound where
  inRange := by rw [hentries, htouches]; exact h.inRange
  onPlan := by rw [hentries]; exact h.onPlan
  course := by
    unfold touchesOn
    rw [hentries, htouches]
    exact h.course

/-- A new operation has not been touched yet. -/
theorem Sound.enter (h : arena.Sound) (spec : OperationSpec) (started : Instant)
    (hentries : later.entries = arena.entries ++ [({ spec, started } : Entry)])
    (htouches : later.touches = arena.touches) : later.Sound where
  inRange touch htouch := by
    rw [htouches] at htouch
    rw [hentries, List.length_append]
    exact Nat.lt_add_right _ (h.inRange touch htouch)
  onPlan entry hentry := by
    rw [hentries] at hentry
    rcases List.mem_append.1 hentry with hentry | hentry
    · exact h.onPlan entry hentry
    · rw [List.mem_singleton.1 hentry]
      exact ⟨rfl, rfl⟩
  course position entry hentry := by
    unfold touchesOn
    rw [hentries] at hentry
    rw [htouches]
    by_cases hlt : position < arena.entries.length
    · rw [List.getElem?_append_left hlt] at hentry
      exact h.course position entry hentry
    · have hnone : arena.touches.filter (fun touch => touch.entry = position) = [] := by
        rw [List.filter_eq_nil_iff]
        intro touch htouch heq
        have := h.inRange touch htouch
        simp only [decide_eq_true_eq] at heq
        omega
      rw [List.getElem?_append_right (by omega)] at hentry
      have hnew := List.mem_singleton.1 (List.mem_of_getElem? hentry)
      rw [hnone, hnew]
      exact .starts

theorem touchesOn_touch (arena : Arena) (position other : Nat) (entry : Entry) (act : Act)
    (now : Instant) :
    (arena.touch position entry act now).touchesOn other =
      if position = other then
        ⟨position, now, act, entry.operation, (act.on entry.operation now).1,
          (act.on entry.operation now).2⟩ :: arena.touchesOn other
      else arena.touchesOn other := by
  simp [touchesOn, touch, List.filter_cons]

/-- A step under the lock of one operation leaves the courses of all others as they are. -/
theorem Sound.touch (h : arena.Sound) {position : Nat} {entry : Entry}
    (there : arena.entries[position]? = some entry) (act : Act) (now : Instant) :
    (arena.touch position entry act now).Sound where
  inRange touch htouch := by
    rw [Arena.touch, List.length_set]
    rcases List.mem_cons.1 htouch with rfl | htouch
    · exact (List.getElem?_eq_some_iff.1 there).1
    · exact h.inRange touch htouch
  onPlan other hother := by
    rcases List.mem_or_eq_of_mem_set hother with hother | rfl
    · exact h.onPlan other hother
    · exact (h.onPlan entry (List.mem_of_getElem? there)).act act now
  course other found hfound := by
    rw [touchesOn_touch]
    simp only [Arena.touch] at hfound
    by_cases heq : position = other
    · subst heq
      rw [List.getElem?_set_self (List.getElem?_eq_some_iff.1 there).1] at hfound
      cases hfound
      have plan := h.onPlan entry (List.mem_of_getElem? there)
      rw [if_pos rfl]
      exact ((h.course position entry there).act plan position act now).congr rfl rfl
    · rw [List.getElem?_set_ne heq] at hfound
      rw [if_neg heq]
      exact h.course other found hfound

theorem Step.sound (h : arena.Sound) (step : Step arena later) : later.Sound := by
  cases step with
  | set | start | find | collect | listed | gone | delete => exact h.congr rfl rfl
  | enter call reading spec name hcall fresh => exact h.enter spec reading rfl rfl
  | act call position act reading unread entry hcall there =>
      exact (h.touch there act _).congr rfl rfl

theorem Reachable.sound (h : Reachable arena) : arena.Sound := by
  induction h with
  | start clock => exact .start clock
  | step h step ih => exact Step.sound ih step

/-- Every operation that was ever started comes to one outcome at most, whatever the interleaving
and wherever the clock is set. -/
theorem one_outcome (h : Reachable arena) :
    (∀ touch ∈ arena.touches, touch.entry < arena.entries.length) ∧
    ∀ position entry, arena.entries[position]? = some entry →
      ((arena.touchesOn position).filter Touch.writes).length ≤ 1 ∧
      (∀ touch ∈ arena.touchesOn position, touch.writes = true →
        touch.before.recorded = none ∧ touch.after.recorded = entry.operation.recorded ∧
        ((touch.after.recorded = some entry.spec.outcome ∧
            entry.spec.completion.getD entry.started ≤ touch.reading) ∨
          (touch.after.recorded = some .cancelled ∧ touch.act = .cancel ∧
            touch.reading < entry.spec.completion.getD entry.started))) ∧
      (∀ outcome, entry.operation.recorded = some outcome →
        ∃ touch ∈ arena.touchesOn position, touch.writes = true) ∧
      (∀ touch ∈ arena.touchesOn position, ∀ outcome, touch.answer = .done outcome →
        entry.operation.recorded = some outcome) ∧
      ∀ later write earlier, arena.touchesOn position = later ++ write :: earlier →
        write.writes = true → ∀ touch ∈ later, ∃ outcome,
          touch.answer = .done outcome ∧ write.after.recorded = some outcome := by
  refine ⟨h.sound.inRange, fun position entry hentry => ?_⟩
  have course := h.sound.course position entry hentry
  refine ⟨course.length_filter_writes_le, fun touch hmem hwrites => ?_, fun outcome hr => ?_,
    fun touch hmem outcome hdone => course.recorded_of_done hmem hdone,
    fun later write earlier hsplit hwrites => course.done_after_writes hsplit hwrites⟩
  · obtain ⟨outcome, hr, hends⟩ := course.ends_of_writes hmem hwrites
    refine ⟨hends.before, by rw [hends.after, hr], ?_⟩
    rcases hends.cause with ⟨rfl, hdue⟩ | ⟨rfl, hact, hearly⟩
    · exact .inl ⟨by rw [hends.after], hdue⟩
    · exact .inr ⟨by rw [hends.after], hact, hearly⟩
  · rw [hr] at course
    exact course.exists_writes

/-- A look and a cancellation have found the same operation.  The look comes first, when the
operation is due; then the clock is set back, and the cancellation comes too late. -/
theorem one_outcome_contested : ∃ arena, Reachable arena ∧
    (arena.touchesOn 0).map Touch.answer =
      [.done (.succeeded ""), .done (.succeeded ""), .pending ⟨5000000000, by decide⟩] ∧
    ((arena.touchesOn 0).filter Touch.writes).length ≤ 1 := by
  let early : Instant := .ofSeconds 5 (by decide)
  let due : Instant := .ofSeconds 10 (by decide)
  have h := Reachable.start early
  have h := h.step (.start _ 0 { completion := some due } rfl)
  have h := h.step (.enter _ 0 _ _ "operations/a" rfl rfl)
  have h := h.step (.act _ 0 0 .look _ [] _ rfl rfl)
  have h := h.step (.find _ 1 0 .look "operations/a" rfl rfl)
  have h := h.step (.find _ 2 0 .cancel "operations/a" rfl rfl)
  have h := h.step (.set _ due)
  have h := h.step (.act _ 1 0 .look _ [] _ rfl rfl)
  have h := h.step (.set _ early)
  have h := h.step (.act _ 2 0 .cancel _ [] _ rfl rfl)
  exact ⟨_, h, rfl, ((one_outcome h).2 0 _ rfl).1⟩

end Arena

end Rehearsal
