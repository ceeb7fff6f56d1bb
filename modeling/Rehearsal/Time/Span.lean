/-!
# Spans of time

A `Span` is a signed length of time in whole nanoseconds, at most `2 ^ 63 - 1` milliseconds long.
A delay, which cannot be negative, is a plain number of nanoseconds; `Delay.text` writes one in
the largest unit that leaves a whole part.
-/

namespace Rehearsal.Time

def nanosPerSecond : Nat := 1000000000

def nanosPerMilli : Nat := 1000000

def maxSpanNanos : Nat := 0x7fffffffffffffff * nanosPerMilli

/-- A length of time, negative if it goes back. -/
structure Span where
  nanos : Int
  bounded : nanos.natAbs ≤ maxSpanNanos
  deriving DecidableEq, Repr

namespace Span

/-- The span of a number of nanoseconds, unless it is too long. -/
def ofNanos? (nanos : Int) : Option Span :=
  if h : nanos.natAbs ≤ maxSpanNanos then some ⟨nanos, h⟩ else none

/-- Whole seconds, rounded toward zero. -/
def seconds (span : Span) : Int := span.nanos.tdiv nanosPerSecond

/-- What is left beyond the whole seconds, with the sign of the span. -/
def subsecNanos (span : Span) : Int := span.nanos.tmod nanosPerSecond

def ofMillis? (millis : Int) : Option Span := ofNanos? (millis * nanosPerMilli)

def ofSeconds? (seconds : Int) : Option Span := ofNanos? (seconds * nanosPerSecond)

/-- The difference of two spans, unless it is too long. -/
def sub? (a b : Span) : Option Span := ofNanos? (a.nanos - b.nanos)

/-- How long to wait for the span to pass: not at all if it goes back. -/
def toDelay (span : Span) : Nat := span.nanos.toNat

theorem ofNanos?_eq (nanos : Int) (h : nanos.natAbs ≤ maxSpanNanos) :
    ofNanos? nanos = some ⟨nanos, h⟩ := dif_pos h

theorem seconds_mul_add (span : Span) :
    span.seconds * nanosPerSecond + span.subsecNanos = span.nanos := by
  simp only [seconds, subsecNanos]
  exact Int.tdiv_mul_add_tmod _ _

theorem subsecNanos_bounds (span : Span) :
    -nanosPerSecond < span.subsecNanos ∧ span.subsecNanos < nanosPerSecond :=
  ⟨Int.lt_tmod_of_pos _ (by decide), Int.tmod_lt_of_pos _ (by decide)⟩

/-- The whole seconds and the rest have the sign of the span. -/
theorem sign_of_nonneg {span : Span} (h : 0 ≤ span.nanos) :
    0 ≤ span.seconds ∧ 0 ≤ span.subsecNanos :=
  ⟨Int.tdiv_nonneg h (by decide), Int.tmod_nonneg _ h⟩

theorem sign_of_nonpos {span : Span} (h : span.nanos ≤ 0) :
    span.seconds ≤ 0 ∧ span.subsecNanos ≤ 0 := by
  have hneg : 0 ≤ -span.nanos := by omega
  have hwhole := Int.tdiv_nonneg hneg (show (0 : Int) ≤ nanosPerSecond by decide)
  have hrest := Int.tmod_nonneg nanosPerSecond hneg
  rw [Int.neg_tdiv] at hwhole
  rw [Int.neg_tmod] at hrest
  unfold seconds subsecNanos
  omega

end Span

namespace Delay

/-- A whole part and a fraction of `width` digits, the fraction's trailing zeros left out. -/
def decimal (whole fraction width : Nat) : String :=
  let digits := fraction.repr.toList
  let padded := List.replicate (width - digits.length) '0' ++ digits
  let kept := (padded.reverse.dropWhile (· == '0')).reverse
  if kept.isEmpty then whole.repr else whole.repr ++ "." ++ String.ofList kept

/-- A number of nanoseconds in seconds, milliseconds, microseconds or nanoseconds, whichever is
the first with a whole part. -/
def text (nanos : Nat) : String :=
  if nanosPerSecond ≤ nanos then
    decimal (nanos / nanosPerSecond) (nanos % nanosPerSecond) 9 ++ "s"
  else if nanosPerMilli ≤ nanos then
    decimal (nanos / nanosPerMilli) (nanos % nanosPerMilli) 6 ++ "ms"
  else if 1000 ≤ nanos then decimal (nanos / 1000) (nanos % 1000) 3 ++ "µs"
  else nanos.repr ++ "ns"

end Delay

end Rehearsal.Time
