import Rehearsal.Proofs.Message.Operation

/-!
# Durations are spans

The duration of a span is the one duration in normal form that is as long as the span
(`Duration.ofSpan_eq_iff`): so no two spans have the same, and it is read as the delay that the span
is, or refused if the span goes back.  A normal form is never cut off
(`Duration.totalNanos_of_short`), which makes the same true of a duration of milliseconds.
-/

namespace Rehearsal

open Time (Span nanosPerSecond nanosPerMilli maxSpanNanos)

/-! ## Whole seconds taken off a span -/

namespace Time.Span

variable (span : Span)

theorem whole_bounded : (span.seconds * nanosPerSecond).natAbs ≤ maxSpanNanos := by
  have hbounded := span.bounded
  have hwhole := span.seconds_mul_add
  unfold nanosPerSecond at hwhole ⊢
  rcases Int.le_total 0 span.nanos with hpos | hneg
  · have hsign := sign_of_nonneg hpos
    omega
  · have hsign := sign_of_nonpos hneg
    omega

theorem rest_bounded : span.subsecNanos.natAbs ≤ maxSpanNanos := by
  have hrest := span.subsecNanos_bounds
  unfold maxSpanNanos nanosPerMilli
  unfold nanosPerSecond at hrest
  omega

/-- A span can be divided at its whole seconds. -/
theorem exists_whole :
    ∃ whole rest : Span, ofSeconds? span.seconds = some whole ∧ span.sub? whole = some rest ∧
      rest.nanos = span.subsecNanos := by
  have hdifference : span.nanos - span.seconds * nanosPerSecond = span.subsecNanos := by
    have hwhole := span.seconds_mul_add
    omega
  refine ⟨⟨_, span.whole_bounded⟩, ⟨_, span.rest_bounded⟩, ofNanos?_eq _ _, ?_, rfl⟩
  unfold sub?
  rw [hdifference]
  exact ofNanos?_eq _ _

end Time.Span

namespace Message.Duration

/-- A duration in normal form that is as long as a span: less than a second stands outside the
seconds, and the two parts do not differ in sign. -/
structure Exact (duration : Duration) (span : Span) : Prop where
  total : duration.seconds.toInt * 1000000000 + duration.nanos.toInt = span.nanos
  short : duration.nanos.toInt.natAbs < 1000000000
  sameSign : (0 ≤ duration.seconds ∧ 0 ≤ duration.nanos) ∨
    (duration.seconds ≤ 0 ∧ duration.nanos ≤ 0)

/-! ## The duration of a span -/

section

variable {duration other : Duration} {span : Span}

theorem sameSign_iff :
    ((0 ≤ duration.seconds ∧ 0 ≤ duration.nanos) ∨
      (duration.seconds ≤ 0 ∧ duration.nanos ≤ 0)) ↔
    ((0 ≤ duration.seconds.toInt ∧ 0 ≤ duration.nanos.toInt) ∨
      (duration.seconds.toInt ≤ 0 ∧ duration.nanos.toInt ≤ 0)) := by
  simp only [Int64.le_iff_toInt_le, Int32.le_iff_toInt_le, Int64.toInt_zero, Int32.toInt_zero]

theorem exact_ofSpan (span : Span) : (ofSpan span).Exact span where
  total := nanos_ofSpan span
  short := by
    have hrest := span.subsecNanos_bounds
    unfold nanosPerSecond at hrest
    rw [subsecNanos_ofSpan]
    omega
  sameSign := by
    rw [sameSign_iff, seconds_ofSpan, subsecNanos_ofSpan]
    rcases Int.le_total 0 span.nanos with hpos | hneg
    · exact .inl (Span.sign_of_nonneg hpos)
    · exact .inr (Span.sign_of_nonpos hneg)

/-- There is one normal form only. -/
theorem Exact.unique (h : duration.Exact span) (h' : other.Exact span) : duration = other := by
  have htotal := h.total.trans h'.total.symm
  have hshort := h.short
  have hshort' := h'.short
  have hsign := sameSign_iff.1 h.sameSign
  have hsign' := sameSign_iff.1 h'.sameSign
  obtain ⟨seconds, nanos⟩ := duration
  obtain ⟨seconds', nanos'⟩ := other
  dsimp only at htotal hshort hshort' hsign hsign'
  rw [mk.injEq, ← Int64.toInt_inj, ← Int32.toInt_inj]
  omega

theorem ofSpan_eq_iff : ofSpan span = duration ↔ duration.Exact span := by
  constructor
  · rintro rfl
    exact exact_ofSpan span
  · exact (exact_ofSpan span).unique

theorem ofSpan_inj {other : Span} : ofSpan span = ofSpan other ↔ span = other := by
  constructor
  · intro h
    have htotal := nanos_ofSpan span
    rw [h, nanos_ofSpan other] at htotal
    obtain ⟨nanos, _⟩ := span
    obtain ⟨nanos', _⟩ := other
    cases htotal
    rfl
  · exact congrArg ofSpan

end

/-! ## Durations as delays -/

/-- The value of a duration with less than a second outside the seconds is not cut off. -/
theorem totalNanos_of_short {duration : Duration}
    (h : duration.nanos.toInt.natAbs < 1000000000) :
    duration.totalNanos = duration.seconds.toInt * 1000000000 + duration.nanos.toInt := by
  have hmin := Int64.minValue_le_toInt duration.seconds
  have hmax := Int64.toInt_le duration.seconds
  unfold totalNanos minNanos maxNanos nanosPerSecond
  omega

theorem toDelay_ofSpan (field : String) (span : Span) :
    (ofSpan span).toDelay field =
      if span.nanos < 0 then
        .error
          ⟨.invalidArgument,
            s!"{field} is not a valid duration: failed to convert negative duration: " ++
              Time.Delay.text span.nanos.natAbs⟩
      else .ok span.nanos.toNat := by
  have htotal : (ofSpan span).totalNanos = span.nanos := by
    rw [totalNanos_of_short (exact_ofSpan span).short, (exact_ofSpan span).total]
  unfold toDelay
  rw [htotal]

section

variable (millis : UInt64)

theorem seconds_ofMillis : (ofMillis millis).seconds.toInt = millis.toNat / 1000 := by
  have hsize := millis.toNat_lt
  apply Int64.toInt_ofNat_of_lt
  omega

theorem nanos_ofMillis : (ofMillis millis).nanos.toInt = millis.toNat % 1000 * 1000000 := by
  have hsmall : millis.toNat % 1000 * nanosPerMilli < 2 ^ 31 := by
    unfold nanosPerMilli
    omega
  exact Int32.toInt_ofNat_of_lt hsmall

theorem toDelay_ofMillis (field : String) :
    (ofMillis millis).toDelay field = .ok (millis.toNat * nanosPerMilli) := by
  have htotal : (ofMillis millis).totalNanos = millis.toNat * 1000000 := by
    rw [totalNanos_of_short, seconds_ofMillis, nanos_ofMillis]
    · omega
    · rw [nanos_ofMillis]
      omega
  unfold toDelay nanosPerMilli
  rw [htotal]
  dsimp only
  rw [if_neg (by omega)]
  congr 1

end

/-! ## Counting in words -/

theorem wideNanos?_eq {span : Span} (h : span.nanos.natAbs < 1000000000) :
    wideNanos? span = some (.ofInt span.nanos) := by
  have hmin : Int64.minValue.toInt = -0x8000000000000000 := by decide
  have hmax : Int64.maxValue.toInt = 0x7fffffffffffffff := by decide
  unfold wideNanos?
  rw [if_pos (by omega)]

theorem narrow?_ofInt {n : Int} (h : n.natAbs < 1000000000) :
    narrow? (.ofInt n) = some (.ofInt n) := by
  have hword : (Int64.ofInt n).toInt = n := by
    apply Int64.toInt_ofInt_of_le <;> omega
  have hmin : Int32.minValue.toInt64.toInt = -0x80000000 := by decide
  have hmax : Int32.maxValue.toInt64.toInt = 0x7fffffff := by decide
  have hfits : Int32.minValue.toInt64 ≤ Int64.ofInt n ∧ Int64.ofInt n ≤ Int32.maxValue.toInt64 := by
    rw [Int64.le_iff_toInt_le, Int64.le_iff_toInt_le, hword]
    omega
  unfold narrow?
  rw [if_pos hfits, Int64.toInt32_ofInt]

theorem ofSpanOr_eq (spare : Int32) (span : Span) : ofSpanOr spare span = some (ofSpan span) := by
  obtain ⟨whole, rest, hwhole, hrest, hnanos⟩ := span.exists_whole
  have hshort : rest.nanos.natAbs < 1000000000 := by
    rw [hnanos, ← subsecNanos_ofSpan]
    exact (exact_ofSpan span).short
  have hseconds : (Int64.ofInt span.seconds).toInt = span.seconds := seconds_ofSpan span
  have hlast : (wideNanos? rest).bind narrow? = some (.ofInt rest.nanos) := by
    rw [wideNanos?_eq hshort, Option.bind_some, narrow?_ofInt hshort]
  simp only [ofSpanOr, hseconds, hwhole, hrest, hlast, Option.bind_eq_bind, Option.bind_some,
    Option.getD_some, hnanos]
  rfl

theorem ofMillisCast_eq (millis : UInt64) : ofMillisCast millis = ofMillis millis := by
  have hseconds : (millis / 1000).toNat = millis.toNat / 1000 := UInt64.toNat_div millis 1000
  have hnanos : (millis % 1000 * 1000000).toNat = millis.toNat % 1000 * 1000000 := by
    rw [UInt64.toNat_mul, UInt64.toNat_mod]
    exact Nat.mod_eq_of_lt (by simp; omega)
  unfold ofMillisCast ofMillis nanosPerMilli
  rw [← hseconds, ← hnanos, ← UInt64.toInt64_ofNat', ← UInt32.toInt32_ofNat',
    ← UInt64.toUInt32_ofNat', UInt64.ofNat_toNat, UInt64.ofNat_toNat]

end Message.Duration

open Message (Duration)

/-- The duration of a span is the one normal form that is as long as the span.  Counted in words it
is the same, whatever would stand in for nanoseconds that do not fit, and the whole seconds are always
a span that can be taken off.  So no two spans have the same duration.  It is read as the delay that
the span is, and refused if the span goes back.  The duration of a number of milliseconds loses
nothing in words either, and is read as that many. -/
theorem durations_are_spans :
    (∀ span : Span,
      (∀ spare, Duration.ofSpanOr spare span = some (.ofSpan span)) ∧
      (∀ duration, Duration.ofSpan span = duration ↔ duration.Exact span) ∧
      (∀ other, Duration.ofSpan span = .ofSpan other ↔ span = other) ∧
      ∀ field, (Duration.ofSpan span).toDelay field =
        if span.nanos < 0 then
          .error
            ⟨.invalidArgument,
              s!"{field} is not a valid duration: failed to convert negative duration: " ++
                Time.Delay.text span.nanos.natAbs⟩
        else .ok span.nanos.toNat) ∧
    ∀ millis : UInt64,
      Duration.ofMillisCast millis = .ofMillis millis ∧
      (Duration.ofMillis millis).seconds.toInt = millis.toNat / 1000 ∧
      (Duration.ofMillis millis).nanos.toInt = millis.toNat % 1000 * 1000000 ∧
      ∀ field, (Duration.ofMillis millis).toDelay field = .ok (millis.toNat * 1000000) := by
  refine ⟨fun span => ⟨fun spare => Duration.ofSpanOr_eq spare span,
    fun duration => Duration.ofSpan_eq_iff, fun other => Duration.ofSpan_inj,
    fun field => Duration.toDelay_ofSpan field span⟩, fun millis => ⟨?_, ?_, ?_, fun field => ?_⟩⟩
  · exact Duration.ofMillisCast_eq millis
  · exact Duration.seconds_ofMillis millis
  · exact Duration.nanos_ofMillis millis
  · exact Duration.toDelay_ofMillis millis field

/-- A nanosecond back, and the longest way back. -/
example :
    Duration.ofSpan ⟨-1, by decide⟩ = ⟨0, -1⟩ ∧
      Duration.ofSpan ⟨-9223372036854775807000000, by decide⟩ = ⟨-9223372036854775, -807000000⟩ := by
  decide

end Rehearsal
