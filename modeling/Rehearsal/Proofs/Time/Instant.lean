import Rehearsal.Time.Instant

/-!
# Differences of instants against their order

Outside leap seconds the order of instants is that of their nanoseconds since the epoch
(`Instant.total`), and differences and sums count these.  A difference falls one second short of
them if the later instant is inside a leap second and stands earlier in its day
(`Instant.since_cases`). Even so it is positive for any instant that is yet to come
(`Instant.since_pos`).
-/

namespace Rehearsal.Time.Instant

variable {a b t later : Instant} {span : Span}

/-- Nanoseconds since the epoch, as if each second had its own place. -/
def total (t : Instant) : Int := t.seconds * nanosPerSecond + t.nanos

/-- The instant is outside leap seconds. -/
def Plain (t : Instant) : Prop := t.nanos < nanosPerSecond

instance (t : Instant) : Decidable t.Plain := inferInstanceAs (Decidable (_ < _))

theorem le_of_total_le (hb : b.Plain) (h : a.total ≤ b.total) : a ≤ b := by
  unfold Plain nanosPerSecond at hb
  unfold total nanosPerSecond at h
  rw [le_iff]
  omega

theorem seconds_le_of_total (hb : b.Plain) (h : a.seconds * nanosPerSecond ≤ b.total) :
    a.seconds ≤ b.seconds := by
  unfold Plain nanosPerSecond at hb
  unfold total nanosPerSecond at h
  omega

theorem eq_of_of? {seconds : Int} {nanos : Nat} (h : of? seconds nanos = some t) :
    t.seconds = seconds ∧ t.nanos = nanos := by
  unfold of? at h
  split at h
  · cases h
    exact ⟨rfl, rfl⟩
  · cases h

theorem of?_self (t : Instant) : of? t.seconds t.nanos = some t :=
  dif_pos ⟨⟨t.first_le, t.le_last⟩, t.valid⟩

theorem exists_of?_iff {seconds : Int} {nanos : Nat} :
    (∃ t, of? seconds nanos = some t) ↔
      (firstSecond ≤ seconds ∧ seconds ≤ lastSecond) ∧ ValidNanos seconds nanos := by
  unfold of?
  split <;> simp_all

/-- Outside leap seconds a sum counts every nanosecond and stays outside. -/
theorem add?_plain (ht : t.Plain) (h : t.add? span = some later) :
    later.Plain ∧ later.total = t.total + span.nanos := by
  have hleap : t.inLeapSecond = false := decide_eq_false (Nat.not_le.2 ht)
  unfold add? at h
  simp only [hleap, Bool.false_eq_true, false_and, if_false] at h
  obtain ⟨hseconds, hnanos⟩ := eq_of_of? h
  unfold Plain total nanosPerSecond at *
  constructor
  · omega
  · omega

/-- A sum that does not leave the calendar is an instant, in leap seconds and outside. -/
theorem exists_add? (hfirst : firstSecond * nanosPerSecond ≤ t.total + span.nanos)
    (hlast : t.total + span.nanos < (lastSecond + 1) * nanosPerSecond) :
    ∃ later, t.add? span = some later := by
  have hvalid := t.valid
  have htFirst := t.first_le
  have htLast := t.le_last
  unfold ValidNanos at hvalid
  unfold total nanosPerSecond at *
  unfold add?
  dsimp only
  split
  · -- a sum inside the leap second has the nanoseconds of one
    rename_i hstays
    obtain ⟨hleap, hspan, hnanos⟩ := hstays
    have hlow := of_decide_eq_true hleap
    unfold nanosPerSecond at *
    refine exists_of?_iff.2 ⟨⟨htFirst, htLast⟩, ?_⟩
    unfold ValidNanos nanosPerSecond
    omega
  · refine exists_of?_iff.2 ⟨?_, .inl ?_⟩
    · split
      · rename_i hleap
        have hlow := of_decide_eq_true hleap.1
        unfold nanosPerSecond at *
        omega
      · unfold nanosPerSecond
        omega
    · unfold nanosPerSecond
      omega

/-- A difference is that of the nanoseconds since the epoch, or one second less: then the later
instant is inside a leap second, on another day than the earlier one. -/
theorem since_cases (hb : b.Plain) :
    (a.since b).nanos = a.total - b.total ∨
      (a.inLeapSecond = true ∧ a.seconds ≠ b.seconds ∧
        (a.since b).nanos = a.total - b.total - nanosPerSecond) := by
  have hleap : b.inLeapSecond = false := decide_eq_false (Nat.not_le.2 hb)
  by_cases hearlier : a.secondOfDay < b.secondOfDay ∧ a.inLeapSecond
  · right
    refine ⟨hearlier.2, ?_, ?_⟩
    · intro hsame
      rw [secondOfDay, hsame] at hearlier
      exact Int.lt_irrefl _ hearlier.1
    · simp only [since, nanosSince, leapCorrection, hleap, Bool.false_eq_true, and_false, if_false,
        if_pos hearlier, total, nanosPerSecond]
      omega
  · left
    simp only [since, nanosSince, leapCorrection, hleap, Bool.false_eq_true, and_false, if_false,
      if_neg hearlier, total, nanosPerSecond]
    omega

/-- From outside leap seconds a sum leads as far as its nanoseconds count. -/
theorem add?_of_plain (ht : t.Plain) {seconds : Int} {nanos : Nat} (hnanos : nanos < nanosPerSecond)
    (h : t.total + span.nanos = seconds * nanosPerSecond + nanos) :
    t.add? span = of? seconds nanos := by
  have hleap : t.inLeapSecond = false := decide_eq_false (Nat.not_le.2 ht)
  have hseconds : t.seconds + ((t.nanos : Int) + span.nanos) / nanosPerSecond = seconds := by
    unfold total nanosPerSecond at *
    omega
  have hrest : (((t.nanos : Int) + span.nanos) % nanosPerSecond).toNat = nanos := by
    unfold total nanosPerSecond at *
    omega
  simp only [add?, hleap, Bool.false_eq_true, false_and, if_false, hseconds, hrest]

/-- Outside leap seconds the time until an instant leads to it. -/
theorem add?_since (ha : a.Plain) (hb : b.Plain) : b.add? (a.since b) = some a := by
  have htotal : b.total + (a.since b).nanos = a.total := by
    rcases since_cases (a := a) hb with hsince | ⟨hleap, -⟩
    · omega
    · exact absurd (of_decide_eq_true hleap) (Nat.not_le.2 ha)
  rw [add?_of_plain hb ha htotal, of?_self]

/-- The time until an instant inside a leap second leads as far into the next second, or into its
own if the instant stands earlier in its day. -/
theorem add?_since_leap (ha : ¬ a.Plain) (hb : b.Plain) :
    b.add? (a.since b) =
      of? (if a.secondOfDay < b.secondOfDay then a.seconds else a.seconds + 1)
        (a.nanos - nanosPerSecond) := by
  have hlow : nanosPerSecond ≤ a.nanos := Nat.not_lt.1 ha
  have hleap : a.inLeapSecond = true := decide_eq_true hlow
  have hplain : b.inLeapSecond = false := decide_eq_false (Nat.not_le.2 hb)
  have hnanos := a.nanos_lt
  apply add?_of_plain hb (by omega)
  simp only [since, nanosSince, leapCorrection, hleap, hplain, Bool.false_eq_true, and_false,
    and_true, if_false]
  unfold total nanosPerSecond at *
  split <;> omega

theorem nanosPerSecond_le_of_inLeapSecond (h : a.inLeapSecond = true) : nanosPerSecond ≤ a.nanos :=
  of_decide_eq_true h

/-- The time until an instant that is yet to come is positive. -/
theorem since_pos (hb : b.Plain) (h : b < a) : 0 < (a.since b).nanos := by
  rw [lt_iff] at h
  rcases since_cases (a := a) hb with hsince | ⟨hleap, hne, hsince⟩
  · rw [hsince]
    unfold Plain total nanosPerSecond at *
    omega
  · have hnanos := nanosPerSecond_le_of_inLeapSecond hleap
    rw [hsince]
    unfold Plain total nanosPerSecond at *
    omega

/-- An instant inside a leap second comes after all others of its second. -/
theorem lt_iff_of_leap (ha : ¬ a.Plain) (hb : b.Plain) : b < a ↔ b.seconds ≤ a.seconds := by
  unfold Plain at *
  rw [lt_iff]
  omega

/-- The time until an instant inside a leap second is less than a second too short for what comes
before it, and less than a second too long for what comes after. -/
theorem since_leap_bounds (ha : ¬ a.Plain) (hb : b.Plain) (ht : t.Plain) :
    (t < a → t.total < b.total + (a.since b).nanos + nanosPerSecond) ∧
      (¬ t < a → b.total + (a.since b).nanos < t.total + nanosPerSecond) := by
  have hnanos := a.nanos_lt
  rw [lt_iff_of_leap ha ht]
  rcases since_cases (a := a) hb with hsince | ⟨-, -, hsince⟩
  all_goals
    rw [hsince]
    unfold Plain total nanosPerSecond at *
    constructor <;> intro h <;> omega

/-- An instant that comes before another and yet counts more nanoseconds is inside a leap second,
and counts less than a second more. -/
theorem inLeapSecond_of_le_of_total_lt (hb : b.Plain) (hle : a ≤ b)
    (htotal : b.total < a.total) :
    a.inLeapSecond = true ∧ a.total < b.total + nanosPerSecond := by
  have hnanos := a.nanos_lt
  rw [le_iff] at hle
  unfold Plain at hb
  unfold total nanosPerSecond at *
  refine ⟨decide_eq_true ?_, by omega⟩
  unfold nanosPerSecond
  omega

/-- Time that is added comes later, in a leap second as well. -/
theorem lt_of_add? (h : t.add? span = some later) (hspan : 0 < span.nanos) : t < later := by
  have hnanos := t.nanos_lt
  unfold add? at h
  dsimp only at h
  split at h
  · obtain ⟨hseconds, hlater⟩ := eq_of_of? h
    rw [lt_iff]
    omega
  · rename_i hstays
    obtain ⟨hseconds, hlater⟩ := eq_of_of? h
    unfold inLeapSecond at *
    unfold nanosPerSecond at *
    rw [lt_iff]
    split at hseconds
    · rename_i hleap
      rw [if_pos hleap] at hlater
      rw [decide_eq_true_iff] at hleap hstays
      omega
    · rename_i hplain
      rw [if_neg hplain] at hlater
      rw [decide_eq_true_iff] at hplain
      omega

/-! ## Readings that ascend -/

/-- The nanoseconds since the first instant, as if every second had room for a leap second. -/
def rank (t : Instant) : Nat := (t.seconds - firstSecond).toNat * (2 * nanosPerSecond) + t.nanos

theorem rank_lt_rank (h : a < b) : a.rank < b.rank := by
  have ha := a.nanos_lt
  have hfirst := a.first_le
  rw [lt_iff] at h
  unfold rank nanosPerSecond at *
  omega

/-- Readings that go up as long as they are below a bound come to it. -/
theorem exists_le_of_ascending (readings : Nat → Instant) (bound : Instant)
    (h : ∀ i, readings i < bound → readings i < readings (i + 1)) : ∃ i, bound ≤ readings i := by
  refine Classical.byContradiction fun hnone => ?_
  have hlt (i : Nat) : readings i < bound := not_le.1 fun hle => hnone ⟨i, hle⟩
  have hrank (i : Nat) : i ≤ (readings i).rank := by
    induction i with
    | zero => exact Nat.zero_le _
    | succ i ih =>
        have hstep := rank_lt_rank (h i (hlt i))
        omega
  have hbound := rank_lt_rank (hlt bound.rank)
  have hlow := hrank bound.rank
  omega

end Rehearsal.Time.Instant
