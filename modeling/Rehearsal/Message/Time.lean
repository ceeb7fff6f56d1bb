import Rehearsal.Error
import Rehearsal.Message.Basic
import Rehearsal.Time.Instant

/-!
# Times in messages

Durations and timestamps against spans, delays and instants.  A duration need not be written in
its normal form: its value is the sum of its two parts, cut off where no normal form reaches
(`Duration.totalNanos`).  A timestamp is taken as it stands or refused.
-/

namespace Rehearsal.Message

open Time

namespace Duration

/-- The least value of a duration in normal form, in nanoseconds. -/
def minNanos : Int := Int64.minValue.toInt * nanosPerSecond - (nanosPerSecond - 1)

/-- The greatest value of a duration in normal form, in nanoseconds. -/
def maxNanos : Int := Int64.maxValue.toInt * nanosPerSecond + (nanosPerSecond - 1)

/-- The value of a duration in nanoseconds. -/
def totalNanos (duration : Duration) : Int :=
  max minNanos (min maxNanos (duration.seconds.toInt * nanosPerSecond + duration.nanos.toInt))

/-- The delay that the field of a request asks for.  A negative one is refused. -/
def toDelay (field : String) (duration : Duration) : Except RpcError Nat :=
  let nanos := duration.totalNanos
  if nanos < 0 then
    .error
      ⟨.invalidArgument,
        s!"{field} is not a valid duration: failed to convert negative duration: " ++
          Delay.text nanos.natAbs⟩
  else .ok nanos.toNat

/-- The duration of a span: whole seconds toward zero, and the rest with the same sign. -/
def ofSpan (span : Span) : Duration := ⟨.ofInt span.seconds, .ofInt span.subsecNanos⟩

/-- The duration of a number of milliseconds. -/
def ofMillis (millis : UInt64) : Duration :=
  ⟨.ofNat (millis.toNat / 1000), .ofNat (millis.toNat % 1000 * nanosPerMilli)⟩

/-! ## Machine words

`ofSpan` and `ofMillis` count with numbers of any size.  A machine finds what is left beyond the
whole seconds of a span by taking these off again, which fails if either span is too long, and then
narrows it to a signed word.  Milliseconds are divided as words and cast. -/

/-- The nanoseconds of a span as a long word, if they fit. -/
def wideNanos? (span : Span) : Option Int64 :=
  if Int64.minValue.toInt ≤ span.nanos ∧ span.nanos ≤ Int64.maxValue.toInt then
    some (.ofInt span.nanos)
  else none

/-- A long word as a short one, if it fits. -/
def narrow? (word : Int64) : Option Int32 :=
  if Int32.minValue.toInt64 ≤ word ∧ word ≤ Int32.maxValue.toInt64 then some word.toInt32
  else none

/-- The same duration as `ofSpan` gives, counted in words.  Nothing comes of a span that is too
long, and nanoseconds that do not fit give way to `spare` ones. -/
def ofSpanOr (spare : Int32) (span : Span) : Option Duration := do
  let seconds : Int64 := .ofInt span.seconds
  let whole ← Span.ofSeconds? seconds.toInt
  let rest ← span.sub? whole
  return ⟨seconds, ((wideNanos? rest).bind narrow?).getD spare⟩

/-- The same duration as `ofMillis` gives, counted in words. -/
def ofMillisCast (millis : UInt64) : Duration :=
  ⟨(millis / 1000).toInt64, (millis % 1000 * 1000000).toUInt32.toInt32⟩

end Duration

namespace Timestamp

/-- The instant of a timestamp. -/
def toInstant (timestamp : Timestamp) : Except RpcError Instant :=
  if timestamp.nanos < 0 then
    .error ⟨.invalidArgument, "completion_time.nanos must be non-negative"⟩
  else
    match Instant.of? timestamp.seconds.toInt timestamp.nanos.toInt.toNat with
    | none => .error ⟨.invalidArgument, "completion_time is out of range"⟩
    | some instant => .ok instant

/-- The timestamp of an instant. -/
def ofInstant (instant : Instant) : Timestamp := ⟨.ofInt instant.seconds, .ofNat instant.nanos⟩

/-- The timestamp of an instant, where nanoseconds that do not fit a signed word give way to
`spare` ones. -/
def ofInstantOr (spare : Int32) (instant : Instant) : Timestamp where
  seconds := .ofInt instant.seconds
  nanos := if instant.nanos ≤ Int32.maxValue.toInt.toNat then .ofNat instant.nanos else spare

end Timestamp

end Rehearsal.Message
