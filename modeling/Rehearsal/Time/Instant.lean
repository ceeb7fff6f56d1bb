import Rehearsal.Time.Span

/-!
# Instants

An instant is a number of seconds since the epoch and a number of nanoseconds within that second.
The last second of a minute may be a leap second, whose nanoseconds go on to `1999999999`: the
calendar has no other room for it.  Instants are ordered by seconds, then nanoseconds.

Differences (`Instant.since`) and sums (`Instant.add?`) count a leap second only where they meet
one: a difference when the instant that stands earlier in its day is inside a leap second, a sum
when it starts inside one.  Seconds since the epoch never count them.
-/

namespace Rehearsal.Time

def firstSecond : Int := -8334601228800

def lastSecond : Int := 8210266876799

def secondsPerDay : Int := 86400

/-- The nanoseconds that a second may have: twice as many in the last second of a minute. -/
def ValidNanos (seconds : Int) (nanos : Nat) : Prop :=
  nanos < nanosPerSecond ∨ (nanos < 2 * nanosPerSecond ∧ seconds % 60 = 59)

instance (seconds : Int) (nanos : Nat) : Decidable (ValidNanos seconds nanos) :=
  inferInstanceAs (Decidable (_ ∨ _))

structure Instant where
  /-- Seconds since the epoch, leap seconds not counted. -/
  seconds : Int
  /-- Nanoseconds within the second. -/
  nanos : Nat
  first_le : firstSecond ≤ seconds
  le_last : seconds ≤ lastSecond
  valid : ValidNanos seconds nanos
  deriving DecidableEq, Repr

namespace Instant

/-- The instant with given seconds and nanoseconds, if the calendar has it. -/
def of? (seconds : Int) (nanos : Nat) : Option Instant :=
  if h : (firstSecond ≤ seconds ∧ seconds ≤ lastSecond) ∧ ValidNanos seconds nanos then
    some ⟨seconds, nanos, h.1.1, h.1.2, h.2⟩
  else none

/-- The instant of a whole number of seconds between two bounds inside the calendar. -/
def ofSeconds (seconds : Int) (h : firstSecond ≤ seconds ∧ seconds ≤ lastSecond) : Instant :=
  ⟨seconds, 0, h.1, h.2, .inl (by decide)⟩

instance : LE Instant where
  le a b := a.seconds < b.seconds ∨ (a.seconds = b.seconds ∧ a.nanos ≤ b.nanos)

instance (a b : Instant) : Decidable (a ≤ b) := inferInstanceAs (Decidable (_ ∨ _))

instance : LT Instant where
  lt a b := a.seconds < b.seconds ∨ (a.seconds = b.seconds ∧ a.nanos < b.nanos)

instance (a b : Instant) : Decidable (a < b) := inferInstanceAs (Decidable (_ ∨ _))

theorem le_iff {a b : Instant} :
    a ≤ b ↔ a.seconds < b.seconds ∨ (a.seconds = b.seconds ∧ a.nanos ≤ b.nanos) := Iff.rfl

theorem lt_iff {a b : Instant} :
    a < b ↔ a.seconds < b.seconds ∨ (a.seconds = b.seconds ∧ a.nanos < b.nanos) := Iff.rfl

theorem not_le {a b : Instant} : ¬ a ≤ b ↔ b < a := by
  rw [le_iff, lt_iff]; omega

theorem le_refl (t : Instant) : t ≤ t := by
  rw [le_iff]; omega

theorem le_trans {a b c : Instant} (hab : a ≤ b) (hbc : b ≤ c) : a ≤ c := by
  rw [le_iff] at *; omega

theorem le_of_lt {a b : Instant} (h : a < b) : a ≤ b := by
  rw [lt_iff] at h
  rw [le_iff]
  omega

theorem lt_of_lt_of_le {a b c : Instant} (hab : a < b) (hbc : b ≤ c) : a < c := by
  rw [lt_iff] at *
  rw [le_iff] at hbc
  omega

theorem lt_of_le_of_lt {a b c : Instant} (hab : a ≤ b) (hbc : b < c) : a < c := by
  rw [lt_iff] at *
  rw [le_iff] at hab
  omega

def secondOfDay (t : Instant) : Int := t.seconds % secondsPerDay

def inLeapSecond (t : Instant) : Bool := nanosPerSecond ≤ t.nanos

/-- The seconds by which a leap second changes the difference `a - b`: the one of the two that
stands earlier in its day may be inside one. -/
def leapCorrection (a b : Instant) : Int :=
  if b.secondOfDay < a.secondOfDay ∧ b.inLeapSecond then 1
  else if a.secondOfDay < b.secondOfDay ∧ a.inLeapSecond then -1
  else 0

def nanosSince (a b : Instant) : Int :=
  (a.seconds - b.seconds + leapCorrection a b) * nanosPerSecond + (a.nanos - b.nanos)

theorem leapCorrection_bounds (a b : Instant) :
    -1 ≤ leapCorrection a b ∧ leapCorrection a b ≤ 1 := by
  unfold leapCorrection
  split
  · omega
  · split <;> omega

theorem nanos_lt (t : Instant) : t.nanos < 2 * nanosPerSecond := by
  have := t.valid
  unfold ValidNanos at this
  omega

def since (a b : Instant) : Span where
  nanos := nanosSince a b
  bounded := by
    have h := leapCorrection_bounds a b
    have ha := nanos_lt a
    have hb := nanos_lt b
    have a1 := a.first_le
    have a2 := a.le_last
    have b1 := b.first_le
    have b2 := b.le_last
    simp only [nanosSince, maxSpanNanos, nanosPerSecond, nanosPerMilli, firstSecond, lastSecond]
      at *
    omega

/-- The instant a span after `t`, if the calendar reaches that far.  A sum that starts inside a leap
second and goes on to less than its end, or back by less than a second, stays in that second; one
that goes further forwards does not count the leap second, one that goes further back does. -/
def add? (t : Instant) (span : Span) : Option Instant :=
  let nanos : Int := t.nanos + span.nanos
  if t.inLeapSecond ∧ -nanosPerSecond < span.nanos ∧ nanos < 2 * nanosPerSecond then
    of? t.seconds nanos.toNat
  else
    let counted := if t.inLeapSecond ∧ 0 < span.nanos then nanos - nanosPerSecond else nanos
    of? (t.seconds + counted / nanosPerSecond) (counted % nanosPerSecond).toNat

end Instant

end Rehearsal.Time
