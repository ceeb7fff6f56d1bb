import Rehearsal.Proofs.Message.Requests
import Rehearsal.Proofs.Time.Instant
import Rehearsal.Rpc.Handler

/-!
# Timestamps are instants

A timestamp is accepted if the calendar has an instant of its seconds and nanoseconds, and then it is
that instant (`Timestamp.toInstant_eq_ok_iff`).  So nothing is lost on the way there or back, and the
order is the same on both sides.
-/

namespace Rehearsal

open Time (Instant Span ValidNanos firstSecond lastSecond nanosPerSecond)

namespace Message.Timestamp

/-- Timestamps in the order of their seconds, then their nanoseconds. -/
instance : LT Timestamp where
  lt a b := a.seconds < b.seconds ∨ (a.seconds = b.seconds ∧ a.nanos < b.nanos)

instance : LE Timestamp where
  le a b := a.seconds < b.seconds ∨ (a.seconds = b.seconds ∧ a.nanos ≤ b.nanos)

variable {timestamp other : Timestamp} {t u : Instant}

theorem lt_iff_toInt : timestamp < other ↔ timestamp.seconds.toInt < other.seconds.toInt ∨
    (timestamp.seconds.toInt = other.seconds.toInt ∧
      timestamp.nanos.toInt < other.nanos.toInt) := by
  rw [← Int64.lt_iff_toInt_lt, Int64.toInt_inj, ← Int32.lt_iff_toInt_lt]
  rfl

theorem le_iff_toInt : timestamp ≤ other ↔ timestamp.seconds.toInt < other.seconds.toInt ∨
    (timestamp.seconds.toInt = other.seconds.toInt ∧
      timestamp.nanos.toInt ≤ other.nanos.toInt) := by
  rw [← Int64.lt_iff_toInt_lt, Int64.toInt_inj, ← Int32.le_iff_toInt_le]
  rfl

/-! ## There and back -/

/-- An accepted timestamp is the instant of its seconds and nanoseconds. -/
theorem toInstant_eq_ok_iff :
    timestamp.toInstant = .ok t ↔
      timestamp.seconds.toInt = t.seconds ∧ timestamp.nanos.toInt = t.nanos := by
  unfold toInstant
  constructor
  · intro h
    split at h
    · cases h
    · rename_i hnanos
      split at h
      · cases h
      · rename_i instant hinstant
        cases h
        obtain ⟨hseconds, hsame⟩ := Instant.eq_of_of? hinstant
        have hpos : 0 ≤ timestamp.nanos.toInt := Int32.le_iff_toInt_le.1 (Int32.not_lt.1 hnanos)
        exact ⟨hseconds.symm, by omega⟩
  · rintro ⟨hseconds, hnanos⟩
    have hpos : ¬ timestamp.nanos < 0 := by
      rw [Int32.lt_iff_toInt_lt, hnanos]
      exact Int.not_lt.2 (Int.natCast_nonneg _)
    rw [if_neg hpos, hseconds, hnanos, Int.toNat_natCast, Instant.of?_self]

theorem exists_toInstant_iff :
    (∃ t, timestamp.toInstant = .ok t) ↔ 0 ≤ timestamp.nanos.toInt ∧
      (firstSecond ≤ timestamp.seconds.toInt ∧ timestamp.seconds.toInt ≤ lastSecond) ∧
      ValidNanos timestamp.seconds.toInt timestamp.nanos.toInt.toNat := by
  simp only [toInstant_eq_ok_iff]
  constructor
  · rintro ⟨t, hseconds, hnanos⟩
    rw [hseconds, hnanos, Int.toNat_natCast]
    exact ⟨Int.natCast_nonneg _, ⟨t.first_le, t.le_last⟩, t.valid⟩
  · rintro ⟨hpos, hvalid⟩
    obtain ⟨t, ht⟩ := Instant.exists_of?_iff.2 hvalid
    obtain ⟨hseconds, hnanos⟩ := Instant.eq_of_of? ht
    exact ⟨t, hseconds.symm, by omega⟩

theorem toInstant_ofInstant (t : Instant) : (ofInstant t).toInstant = .ok t := by
  have hfirst := t.first_le
  have hlast := t.le_last
  have hnanos := t.nanos_lt
  unfold firstSecond at hfirst
  unfold lastSecond at hlast
  unfold nanosPerSecond at hnanos
  rw [toInstant_eq_ok_iff]
  constructor
  · apply Int64.toInt_ofInt_of_le <;> omega
  · exact Int32.toInt_ofNat_of_lt (by omega)

theorem ofInstant_of_toInstant (h : timestamp.toInstant = .ok t) : ofInstant t = timestamp := by
  obtain ⟨hseconds, hnanos⟩ := toInstant_eq_ok_iff.1 h
  obtain ⟨hback, hnanosBack⟩ := toInstant_eq_ok_iff.1 (toInstant_ofInstant t)
  obtain ⟨seconds, nanos⟩ := timestamp
  unfold ofInstant at *
  rw [mk.injEq]
  exact ⟨Int64.toInt_inj.1 (hback.trans hseconds.symm),
    Int32.toInt_inj.1 (hnanosBack.trans hnanos.symm)⟩

theorem ofInstantOr_eq (spare : Int32) (t : Instant) : ofInstantOr spare t = ofInstant t := by
  have hnanos := t.nanos_lt
  have hfits : t.nanos ≤ Int32.maxValue.toInt.toNat :=
    Nat.le_trans (Nat.le_of_lt hnanos) (by decide)
  rw [ofInstantOr, if_pos hfits]
  rfl

/-! ## Order -/

section

variable (ht : timestamp.toInstant = .ok t) (hu : other.toInstant = .ok u)
include ht hu

theorem lt_iff_of_toInstant : t < u ↔ timestamp < other := by
  obtain ⟨hseconds, hnanos⟩ := toInstant_eq_ok_iff.1 ht
  obtain ⟨hseconds', hnanos'⟩ := toInstant_eq_ok_iff.1 hu
  rw [Instant.lt_iff, lt_iff_toInt, hseconds, hnanos, hseconds', hnanos', Int.ofNat_lt]

theorem le_iff_of_toInstant : t ≤ u ↔ timestamp ≤ other := by
  obtain ⟨hseconds, hnanos⟩ := toInstant_eq_ok_iff.1 ht
  obtain ⟨hseconds', hnanos'⟩ := toInstant_eq_ok_iff.1 hu
  rw [Instant.le_iff, le_iff_toInt, hseconds, hnanos, hseconds', hnanos', Int.ofNat_le]

end

end Message.Timestamp

/-! ## Operations that start over the wire -/

namespace Rpc

open Message (LongrunningRequest Timestamp)

/-- An accepted request starts an operation that completes at the instant of its timestamp. -/
theorem completion_of_operationSpec {request : LongrunningRequest} {timestamp : Timestamp}
    {spec : OperationSpec} (htime : request.completionTime = some timestamp)
    (h : operationSpec request = .ok spec) :
    ∃ due, timestamp.toInstant = .ok due ∧ spec.completion = some due := by
  unfold operationSpec at h
  rw [htime, Option.mapM_some] at h
  cases hinstant : timestamp.toInstant with
  | error error =>
      rw [hinstant] at h
      cases h
  | ok due =>
      rw [hinstant] at h
      cases h
      exact ⟨due, rfl, rfl⟩

theorem operationSpec_ofInstant (request : LongrunningRequest) (due : Instant) :
    operationSpec { request with completionTime := some (.ofInstant due) } =
      .ok
        { completion := some due
          error := configured request.error
          success := request.success.map (·.content) } := by
  unfold operationSpec
  rw [Option.mapM_some, Timestamp.toInstant_ofInstant]
  rfl

end Rpc

/-- A new operation is found done from its due instant on. -/
theorem Operation.done_ofSpec_iff {spec : OperationSpec} {due : Instant}
    (hdue : spec.completion = some due) (started now : Instant) :
    (∃ outcome, ((ofSpec spec started).evaluate now).1 = .done outcome) ↔ due ≤ now := by
  have hsame : (ofSpec spec started).due = due := by rw [ofSpec, hdue, Option.getD_some]
  constructor
  · rintro ⟨outcome, houtcome⟩
    refine Decidable.byContradiction fun hnot => ?_
    rw [evaluate_of_not_due rfl (hsame ▸ hnot)] at houtcome
    cases houtcome
  · intro hle
    rw [evaluate_of_due rfl (hsame ▸ hle)]
    exact ⟨_, rfl⟩

open Message (LongrunningRequest Timestamp)

/-- The timestamps that are accepted are those of the instants of the calendar, one for each, and
come in the same order.  Nanoseconds always fit, in sums as well, and the bytes of a timestamp give
it back.  So an operation that is started over the wire is the one that was meant, and is done at a
reading of the clock if its timestamp does not come after that of the reading. -/
theorem timestamps_are_instants :
    (∀ timestamp : Timestamp, (∃ t, timestamp.toInstant = .ok t) ↔
      0 ≤ timestamp.nanos.toInt ∧
        (firstSecond ≤ timestamp.seconds.toInt ∧ timestamp.seconds.toInt ≤ lastSecond) ∧
        (timestamp.nanos.toInt < 1000000000 ∨
          (timestamp.nanos.toInt < 2000000000 ∧ timestamp.seconds.toInt % 60 = 59))) ∧
    (∀ (timestamp : Timestamp) (t : Instant),
      timestamp.toInstant = .ok t → Timestamp.ofInstant t = timestamp) ∧
    (∀ (t : Instant) (spare : Int32),
      Timestamp.ofInstantOr spare t = Timestamp.ofInstant t ∧
        (Timestamp.ofInstant t).toInstant = .ok t ∧
        Wire.decode Timestamp (Wire.encode (Timestamp.ofInstant t)) =
          .ok (Timestamp.ofInstant t)) ∧
    (∀ (t : Instant) (span : Span), firstSecond * nanosPerSecond ≤ t.total + span.nanos →
      t.total + span.nanos < (lastSecond + 1) * nanosPerSecond →
        ∃ later, t.add? span = some later) ∧
    (∀ (a b : Timestamp) (t u : Instant), a.toInstant = .ok t → b.toInstant = .ok u →
      (t < u ↔ a < b) ∧ (t ≤ u ↔ a ≤ b)) ∧
    (∀ (request : LongrunningRequest) (timestamp : Timestamp) (spec : OperationSpec),
      request.completionTime = some timestamp → Rpc.operationSpec request = .ok spec →
        ∀ started now : Instant,
          (∃ outcome, ((Operation.ofSpec spec started).evaluate now).1 = .done outcome) ↔
            timestamp ≤ Timestamp.ofInstant now) ∧
    ∀ (request : LongrunningRequest) (due : Instant),
      Rpc.operationSpec { request with completionTime := some (.ofInstant due) } =
        .ok
          { completion := some due
            error := Rpc.configured request.error
            success := request.success.map (·.content) } := by
  refine ⟨fun timestamp => ?_, fun timestamp t => Timestamp.ofInstant_of_toInstant,
    fun t spare => ⟨Timestamp.ofInstantOr_eq spare t, Timestamp.toInstant_ofInstant t, ?_⟩,
    fun t span => Instant.exists_add?, fun a b t u ht hu => ?_, ?_, Rpc.operationSpec_ofInstant⟩
  · rw [Timestamp.exists_toInstant_iff]
    unfold ValidNanos nanosPerSecond
    omega
  · exact (Timestamp.readable _).decode_encode (by decide)
  · exact ⟨Timestamp.lt_iff_of_toInstant ht hu, Timestamp.le_iff_of_toInstant ht hu⟩
  · intro request timestamp spec htime hspec started now
    obtain ⟨due, hdue, hcompletion⟩ := Rpc.completion_of_operationSpec htime hspec
    rw [Operation.done_ofSpec_iff hcompletion,
      Timestamp.le_iff_of_toInstant hdue (Timestamp.toInstant_ofInstant now)]

/-- The last nanosecond of a leap second at the end of the minute before the epoch. -/
def beforeEpoch : Timestamp := ⟨-1, 1999999999⟩

/-- An operation that completes then is done at the epoch. -/
theorem timestamps_are_instants_beforeEpoch :
    ∃ due epoch : Instant, beforeEpoch.toInstant = .ok due ∧
      Timestamp.toInstant ⟨0, 0⟩ = .ok epoch ∧ Timestamp.ofInstant due = beforeEpoch ∧
      due < epoch ∧ (∃ later, due.add? ⟨1, by decide⟩ = some later) ∧
      ∀ started, ∃ outcome,
        ((Operation.ofSpec { completion := some due } started).evaluate epoch).1 =
          .done outcome := by
  obtain ⟨haccepted, hback, -, hsum, horder, hdone, -⟩ := timestamps_are_instants
  obtain ⟨due, hdue⟩ := (haccepted beforeEpoch).2 (by decide)
  obtain ⟨epoch, hepoch⟩ := (haccepted ⟨0, 0⟩).2 (by decide)
  obtain ⟨hseconds, hnanos⟩ := Timestamp.toInstant_eq_ok_iff.1 hdue
  have hspec : Rpc.operationSpec { completionTime := some beforeEpoch } =
      .ok { completion := some due } := by
    rw [← hback _ _ hdue]
    exact Rpc.operationSpec_ofInstant {} due
  have htotal : due.total = 999999999 := by
    unfold Instant.total
    rw [← hseconds, ← hnanos]
    decide
  refine ⟨due, epoch, hdue, hepoch, hback _ _ hdue, ?_, ?_, fun started => ?_⟩
  · exact (horder _ _ _ _ hdue hepoch).1.2 (.inl (by decide))
  · apply hsum <;> rw [htotal] <;> decide
  · rw [hdone _ _ _ rfl hspec started epoch, hback _ _ hepoch]
    exact .inl (by decide)

end Rehearsal
