import Rehearsal.Message.Operation
import Rehearsal.Proofs.Wire.RoundTrip

/-!
# Operations on the wire

An operation is shown to its caller as a message with another message packed into it, and comes back
from its bytes as it was shown (`OperationMessage.readable_ofSnapshot`).  What was packed is
unpacked again, also if there is next to nothing in it: no time remaining and no content are not the
same as no metadata and no response.  So a caller can tell any two snapshots apart.
-/

namespace Rehearsal

open Message
open Time (Span nanosPerSecond)
open Wire (Readable Record decode encode mergeAll mergeAll_append mergeAll_ofBool mergeAll_ofBytes
  mergeAll_ofInt32 mergeAll_ofInt64 mergeAll_ofText)

/-- The texts of a snapshot. -/
def Snapshot.texts (snapshot : Snapshot) : List String :=
  snapshot.name ::
    match snapshot.state with
    | .pending _ => []
    | .done (.succeeded content) => [content]
    | .done (.failed status) => [status.message]

/-- Every text is short enough for a memory with 64-bit addresses. -/
def Snapshot.Fits (snapshot : Snapshot) : Prop :=
  ∀ text ∈ snapshot.texts, (Text.Utf8.encode text).length < 0x8000000000000000

theorem lt_size_of_fits {length : Nat} (h : length < 0x8000000000000000) : length < UInt64.size :=
  Nat.lt_trans h (by decide)

namespace Message

/-! ## What is packed or nested -/

namespace Duration

theorem length_encode_le (duration : Duration) : (encode duration).length ≤ 40 := by
  have first := Record.length_writeAll_ofWord_le (show 1 < Record.maxField by decide)
    duration.seconds.toUInt64
  have second := Record.length_writeAll_ofWord_le (show 2 < Record.maxField by decide)
    duration.nanos.toInt64.toUInt64
  simp only [encode, Wire.Message.records, Record.writeAll_append, List.length_append,
    Record.ofInt64, Record.ofInt32]
  omega

theorem readable (duration : Duration) : Readable 0 duration :=
  .of_parts mk (fun _ _ => rfl) rfl (fun _ _ => rfl) (fun _ _ _ => rfl) duration.seconds
    duration.nanos

section

variable (span : Span)

theorem seconds_ofSpan : (ofSpan span).seconds.toInt = span.seconds := by
  have hbounded := span.bounded
  have hwhole := span.seconds_mul_add
  have hrest := span.subsecNanos_bounds
  simp only [Time.maxSpanNanos, nanosPerSecond, Time.nanosPerMilli] at hbounded hwhole hrest
  apply Int64.toInt_ofInt_of_le <;> omega

theorem subsecNanos_ofSpan : (ofSpan span).nanos.toInt = span.subsecNanos := by
  have hrest := span.subsecNanos_bounds
  simp only [nanosPerSecond] at hrest
  apply Int32.toInt_ofInt_of_le <;> omega

/-- The duration of a span is as long as the span. -/
theorem nanos_ofSpan :
    (ofSpan span).seconds.toInt * nanosPerSecond + (ofSpan span).nanos.toInt = span.nanos := by
  rw [seconds_ofSpan, subsecNanos_ofSpan, span.seconds_mul_add]

end

end Duration

namespace LongrunningMetadata

theorem length_encode_le (duration : Duration) :
    (encode ({ timeRemaining := some duration } : LongrunningMetadata)).length ≤ 60 := by
  have hinner := duration.length_encode_le
  have hrecord := Record.length_write_delimited_le (show 1 < Record.maxField by decide)
    duration.readable.short
  have hwhole : (encode ({ timeRemaining := some duration } : LongrunningMetadata)).length =
      (Record.write ⟨1, .delimited (encode duration)⟩).length := Record.length_writeAll_singleton _
  omega

theorem readable (duration : Duration) :
    Readable 1 ({ timeRemaining := some duration } : LongrunningMetadata) where
  writable record h := by
    rw [List.mem_singleton.1 h]
    exact duration.readable.writable_ofMessage (by decide)
  short := Nat.lt_of_le_of_lt (length_encode_le duration) (by decide)
  merged room hroom := by
    apply Readable.mergeAll_ofOptional (fun inner _ => inner.readable) hroom mk
    · exact fun _ => rfl
    · rfl

end LongrunningMetadata

namespace LongrunningResponse

variable {content : String} (h : (Text.Utf8.encode content).length < 0x8000000000000000)
include h

theorem length_encode_le :
    (encode ({ content } : LongrunningResponse)).length ≤
      20 + (Text.Utf8.encode content).length :=
  Record.length_writeAll_ofBytes_le (by decide) (lt_size_of_fits h)

theorem readable : Readable 0 ({ content } : LongrunningResponse) :=
  .of_text mk (fun _ => rfl) rfl (fun _ _ => rfl) h

end LongrunningResponse

namespace Packed

variable {packed : Packed} (hurl : (Text.Utf8.encode packed.typeUrl).length ≤ 100)
  (hvalue : packed.value.length < 0x8000000000000100)
include hurl hvalue

theorem length_encode_le : (encode packed).length ≤ 140 + packed.value.length := by
  have hfirst : (Text.Utf8.encode packed.typeUrl).length < UInt64.size := by
    unfold UInt64.size
    omega
  have hsecond : packed.value.length < UInt64.size := by
    unfold UInt64.size
    omega
  have first := Record.length_writeAll_ofBytes_le (show 1 < Record.maxField by decide) hfirst
  have second := Record.length_writeAll_ofBytes_le (show 2 < Record.maxField by decide) hsecond
  simp only [encode, Wire.Message.records, Record.writeAll_append, List.length_append,
    Record.ofText]
  omega

theorem readable : Readable 0 packed where
  writable record h := by
    rcases List.mem_append.1 h with h | h
    · exact Record.writable_of_mem_ofBytes (by decide) (by unfold UInt64.size; omega) h
    · exact Record.writable_of_mem_ofBytes (by decide) (by unfold UInt64.size; omega) h
  short := by
    have hlength := length_encode_le hurl hvalue
    unfold UInt64.size
    omega
  merged room _ := by
    obtain ⟨typeUrl, value⟩ := packed
    have first : mergeAll (Wire.Message.merge room) (Wire.Message.empty : Packed)
        (Record.ofText 1 typeUrl) = .ok { typeUrl } :=
      mergeAll_ofText (mk · []) (fun _ => rfl) rfl typeUrl
    have second : mergeAll (Wire.Message.merge room) ({ typeUrl } : Packed)
        (Record.ofBytes 2 value) = .ok ⟨typeUrl, value⟩ :=
      mergeAll_ofBytes (fun hempty => by rw [hempty]) rfl
    exact (mergeAll_append first).trans second

end Packed

theorem StatusMessage.readable {code : Int32} {message : String}
    (h : (Text.Utf8.encode message).length < 0x8000000000000000) :
    Readable 0 ({ code, message } : StatusMessage) where
  writable record hrecord := by
    rcases List.mem_append.1 hrecord with hrecord | hrecord
    · rcases List.mem_append.1 hrecord with hrecord | hrecord
      · exact Record.writable_of_mem_ofWord (by decide) hrecord
      · exact Record.writable_of_mem_ofBytes (by decide) (lt_size_of_fits h) hrecord
    · cases hrecord
  short := by
    have first := Record.length_writeAll_ofWord_le (show 1 < Record.maxField by decide)
      code.toInt64.toUInt64
    have second := Record.length_writeAll_ofBytes_le (show 2 < Record.maxField by decide)
      (lt_size_of_fits h)
    simp only [encode, Wire.Message.records, Record.writeAll_append, List.length_append,
      Record.ofInt32, Record.ofInt64, Record.ofText, Record.ofRepeated, List.map_nil]
    show _ + 0 < _
    unfold UInt64.size
    omega
  merged room _ := by
    have first : mergeAll (Wire.Message.merge room) (Wire.Message.empty : StatusMessage)
        (Record.ofInt32 1 code) = .ok { code } :=
      mergeAll_ofInt32 (mk · "" []) (fun _ => rfl) rfl code
    have second : mergeAll (Wire.Message.merge room) ({ code } : StatusMessage)
        (Record.ofText 2 message) = .ok { code, message } :=
      mergeAll_ofText (mk code · []) (fun _ => rfl) rfl message
    show mergeAll _ _ ((_ ++ _) ++ []) = _
    rw [List.append_nil, mergeAll_append first, second]

/-! ## Operations -/

namespace OperationMessage

variable {op : OperationMessage} (hname : (Text.Utf8.encode op.name).length < UInt64.size)
  (hmetadata : ∀ packed ∈ op.metadata, Readable 0 packed)
  (herror : ∀ status, op.result = some (.error status) → Readable 0 status)
  (hresponse : ∀ packed, op.result = some (.response packed) → Readable 0 packed)
include hname hmetadata herror hresponse

theorem writable_of_mem_records {record : Record} (h : record ∈ Wire.Message.records op) :
    record.Writable := by
  rcases List.mem_append.1 h with h | h
  · rcases List.mem_append.1 h with h | h
    · rcases List.mem_append.1 h with h | h
      · exact Record.writable_of_mem_ofBytes (by decide) hname h
      · obtain ⟨written, hwritten, rfl⟩ := Option.map_eq_some_iff.1 (Option.mem_toList.1 h)
        exact (hmetadata written hwritten).writable_ofMessage (by decide)
    · exact Record.writable_of_mem_ofWord (by decide) h
  · split at h
    · cases h
    · rename_i status hstatus
      rw [List.mem_singleton.1 h]
      exact (herror status hstatus).writable_ofMessage (by decide)
    · rename_i packed hpacked
      rw [List.mem_singleton.1 h]
      exact (hresponse packed hpacked).writable_ofMessage (by decide)

theorem mergeAll_records {room : Nat} (hroom : 0 < room) :
    mergeAll (Wire.Message.merge room) Wire.Message.empty (Wire.Message.records op) = .ok op := by
  obtain ⟨name, metadata, done, result⟩ := op
  have first : mergeAll (Wire.Message.merge room) (Wire.Message.empty : OperationMessage)
      (Record.ofText 1 name) = .ok { name } :=
    mergeAll_ofText (mk · none false none) (fun _ => rfl) rfl name
  have second : mergeAll (Wire.Message.merge room) ({ name } : OperationMessage)
      (Record.ofOptional 2 metadata) = .ok { name, metadata } :=
    Readable.mergeAll_ofOptional hmetadata hroom (mk name · false none) (fun _ => rfl) rfl
  have third : mergeAll (Wire.Message.merge room) ({ name, metadata } : OperationMessage)
      (Record.ofBool 3 done) = .ok { name, metadata, done } :=
    mergeAll_ofBool (mk name metadata · none) (fun _ => rfl) rfl done
  simp only [Wire.Message.records, List.append_assoc]
  rw [mergeAll_append first, mergeAll_append second, mergeAll_append third]
  cases result with
  | none => rfl
  | some result =>
      cases result with
      | error status =>
          exact (herror status rfl).mergeAll_ofMessage hroom
            (fun status => mk name metadata done (some (.error status))) fun _ => rfl
      | response packed =>
          exact (hresponse packed rfl).mergeAll_ofMessage hroom
            (fun packed => mk name metadata done (some (.response packed))) fun _ => rfl

theorem decode_encode : decode OperationMessage (encode op) = .ok op :=
  Wire.decode_encode (fun _ => writable_of_mem_records hname hmetadata herror hresponse)
    (mergeAll_records hname hmetadata herror hresponse (by decide))

end OperationMessage

/-! ## Snapshots -/

theorem Packed.unpack?_of {α : Type} [Wire.Message α] {depth : Nat} {message : α}
    (h : Readable depth message) (hdepth : depth ≤ Wire.maxDepth) (typeUrl : String) :
    (Packed.of typeUrl message).unpack? α typeUrl = some message := by
  rw [Packed.of, Packed.unpack?, if_pos rfl, h.decode_encode hdepth]
  rfl

namespace OperationMessage

variable {snapshot : Snapshot}

theorem readable_metadata (remaining : Span) :
    Readable 0 (Packed.of metadataUrl
      ({ timeRemaining := some (.ofSpan remaining) } : LongrunningMetadata)) := by
  have hurl : (Text.Utf8.encode metadataUrl).length ≤ 100 := by decide
  have hlength := LongrunningMetadata.length_encode_le (.ofSpan remaining)
  exact Packed.readable hurl (Nat.lt_of_le_of_lt hlength (by decide))

theorem readable_response {content : String}
    (h : (Text.Utf8.encode content).length < 0x8000000000000000) :
    Readable 0 (Packed.of responseUrl ({ content } : LongrunningResponse)) := by
  have hurl : (Text.Utf8.encode responseUrl).length ≤ 100 := by decide
  have hlength := LongrunningResponse.length_encode_le h
  exact Packed.readable hurl (Nat.lt_of_le_of_lt hlength (by omega))

/-- What a snapshot is shown as comes back from its bytes. -/
theorem decode_encode_ofSnapshot (fits : snapshot.Fits) :
    decode OperationMessage (encode (ofSnapshot snapshot)) = .ok (ofSnapshot snapshot) := by
  obtain ⟨name, state⟩ := snapshot
  have hname := lt_size_of_fits (fits name List.mem_cons_self)
  cases state with
  | pending remaining =>
      refine decode_encode hname ?_ (fun _ h => by cases h) (fun _ h => by cases h)
      rintro packed ⟨⟩
      exact readable_metadata remaining
  | done outcome =>
      cases outcome with
      | succeeded content =>
          refine decode_encode hname (fun _ h => by cases h) (fun _ h => by cases h) ?_
          rintro packed ⟨⟩
          exact readable_response (fits content (by simp [Snapshot.texts]))
      | failed status =>
          refine decode_encode hname (fun _ h => by cases h) ?_ (fun _ h => by cases h)
          rintro message ⟨⟩
          exact StatusMessage.readable (fits status.message (by simp [Snapshot.texts]))

theorem name_ofSnapshot (snapshot : Snapshot) : (ofSnapshot snapshot).name = snapshot.name := by
  obtain ⟨name, state⟩ := snapshot
  rcases state with remaining | ⟨content | status⟩ <;> rfl

/-- A pending snapshot carries the time remaining, and so does no other. -/
theorem pending_iff {remaining : Span} :
    snapshot.state = .pending remaining ↔
      ∃ duration, (ofSnapshot snapshot).metadata? = some { timeRemaining := some duration } ∧
        duration.seconds.toInt * nanosPerSecond + duration.nanos.toInt = remaining.nanos := by
  obtain ⟨name, state⟩ := snapshot
  cases state with
  | pending shown =>
      have hmetadata : (ofSnapshot ⟨name, .pending shown⟩).metadata? =
          some { timeRemaining := some (.ofSpan shown) } :=
        Packed.unpack?_of (LongrunningMetadata.readable (.ofSpan shown)) (by decide) metadataUrl
      rw [hmetadata]
      constructor
      · rintro ⟨⟩
        exact ⟨_, rfl, Duration.nanos_ofSpan remaining⟩
      · rintro ⟨duration, ⟨⟩, hnanos⟩
        rw [Duration.nanos_ofSpan] at hnanos
        obtain ⟨shown, _⟩ := shown
        obtain ⟨remaining, _⟩ := remaining
        subst hnanos
        rfl
  | done outcome =>
      constructor
      · rintro ⟨⟩
      · cases outcome <;> rintro ⟨duration, ⟨⟩, -⟩

/-- A snapshot that has succeeded carries its content, and so does no other. -/
theorem succeeded_iff (fits : snapshot.Fits) {content : String} :
    snapshot.state = .done (.succeeded content) ↔
      (ofSnapshot snapshot).response? = some { content } := by
  obtain ⟨name, state⟩ := snapshot
  cases state with
  | pending remaining => constructor <;> rintro ⟨⟩
  | done outcome =>
      cases outcome with
      | failed status => constructor <;> rintro ⟨⟩
      | succeeded shown =>
          have hresponse : (ofSnapshot ⟨name, .done (.succeeded shown)⟩).response? =
              some { content := shown } :=
            Packed.unpack?_of
              (LongrunningResponse.readable (fits shown (by simp [Snapshot.texts])))
              (by decide) responseUrl
          rw [hresponse]
          simp

/-- A snapshot that has failed carries its status as it is, and so does no other. -/
theorem failed_iff {status : Status} :
    snapshot.state = .done (.failed status) ↔
      (ofSnapshot snapshot).result =
        some (.error { code := status.code, message := status.message }) := by
  obtain ⟨name, state⟩ := snapshot
  cases state with
  | pending remaining => constructor <;> rintro ⟨⟩
  | done outcome =>
      cases outcome with
      | succeeded content => constructor <;> rintro ⟨⟩
      | failed shown =>
          obtain ⟨code, message⟩ := shown
          constructor
          · rintro ⟨⟩
            rfl
          · rintro ⟨⟩
            rfl

theorem metadata?_eq_none_iff :
    (ofSnapshot snapshot).metadata? = none ↔ ∃ outcome, snapshot.state = .done outcome := by
  obtain ⟨name, state⟩ := snapshot
  cases state with
  | pending remaining =>
      obtain ⟨duration, hmetadata, -⟩ :=
        pending_iff.1 (show (Snapshot.mk name (.pending remaining)).state = _ from rfl)
      rw [hmetadata]
      simp
  | done outcome => cases outcome <;> exact ⟨fun _ => ⟨_, rfl⟩, fun _ => rfl⟩

theorem ofSnapshot_injective {other : Snapshot} (fits : snapshot.Fits) (fitsOther : other.Fits)
    (h : ofSnapshot other = ofSnapshot snapshot) : other = snapshot := by
  have hname : other.name = snapshot.name := by
    rw [← name_ofSnapshot, h, name_ofSnapshot]
  have hstate : other.state = snapshot.state := by
    cases hsnapshot : snapshot.state with
    | pending remaining => rw [pending_iff, h, ← pending_iff, hsnapshot]
    | done outcome =>
        cases outcome with
        | succeeded content =>
            rw [succeeded_iff fitsOther, h, ← succeeded_iff fits, hsnapshot]
        | failed status => rw [failed_iff, h, ← failed_iff, hsnapshot]
  obtain ⟨name, state⟩ := snapshot
  obtain ⟨otherName, otherState⟩ := other
  cases hname
  cases hstate
  rfl

/-- A caller sees exactly what a snapshot says.  What it is shown as comes back from its bytes; it
is done if and only if there is a result, and then there is no metadata; the time remaining, the
content and the failure are read as they were, each from the snapshots that have one and from no
others; and no two snapshots are shown alike. -/
theorem snapshot_shown_exactly {snapshot : Snapshot} (fits : snapshot.Fits) :
    let op := ofSnapshot snapshot
    decode OperationMessage (encode op) = .ok op ∧
    ((op.done = true ↔ op.result.isSome) ∧ (op.result.isSome ↔ op.metadata = none)) ∧
    ((∀ remaining : Span, snapshot.state = .pending remaining ↔
        ∃ duration, op.metadata? = some { timeRemaining := some duration } ∧
          duration.seconds.toInt * nanosPerSecond + duration.nanos.toInt = remaining.nanos) ∧
      (op.metadata? = none ↔ ∃ outcome, snapshot.state = .done outcome)) ∧
    ((∀ content, snapshot.state = .done (.succeeded content) ↔
        op.response? = some { content }) ∧
      (op.response? = none ↔ ∀ content, snapshot.state ≠ .done (.succeeded content))) ∧
    (∀ status : Status, snapshot.state = .done (.failed status) ↔
      op.result = some (.error { code := status.code, message := status.message })) ∧
    ∀ other : Snapshot, other.Fits → ofSnapshot other = op → other = snapshot := by
  intro op
  refine ⟨decode_encode_ofSnapshot fits, ?_, ⟨fun _ => pending_iff, metadata?_eq_none_iff⟩,
    ⟨fun _ => succeeded_iff fits, ?_⟩, fun _ => failed_iff,
    fun other fitsOther h => ofSnapshot_injective fits fitsOther h⟩
  · show ((ofSnapshot snapshot).done = true ↔ _) ∧ _
    obtain ⟨name, state⟩ := snapshot
    rcases state with remaining | ⟨content | status⟩ <;> simp [op, ofSnapshot]
  · rw [Option.eq_none_iff_forall_ne_some]
    constructor
    · intro h content hstate
      exact h _ ((succeeded_iff fits).1 hstate)
    · intro h response hresponse
      exact h response.content ((succeeded_iff fits).2 hresponse)

/-- An operation that has just become due and one that has succeeded without content are told apart,
and so is one whose failure has a number that no code has. -/
theorem snapshot_shown_exactly_empty :
    let due : Snapshot := ⟨"operations/a", .pending ⟨-1500000000, by decide⟩⟩
    let succeeded : Snapshot := ⟨"operations/a", .done (.succeeded "")⟩
    let failed : Snapshot := ⟨"operations/a", .done (.failed ⟨-1, ""⟩)⟩
    (due.Fits ∧ succeeded.Fits ∧ failed.Fits) ∧
    (∃ duration, (ofSnapshot due).metadata? = some { timeRemaining := some duration } ∧
      duration.seconds.toInt * nanosPerSecond + duration.nanos.toInt = -1500000000) ∧
    ((ofSnapshot succeeded).response? = some { content := "" } ∧
      decode OperationMessage (encode (ofSnapshot succeeded)) = .ok (ofSnapshot succeeded)) ∧
    (ofSnapshot failed).result = some (.error { code := -1, message := "" }) := by
  intro due succeeded failed
  have fitsDue : due.Fits := by
    unfold Snapshot.Fits
    decide
  have fitsSucceeded : succeeded.Fits := by
    unfold Snapshot.Fits
    decide
  have fitsFailed : failed.Fits := by
    unfold Snapshot.Fits
    decide
  obtain ⟨-, -, ⟨hpending, -⟩, -⟩ := snapshot_shown_exactly fitsDue
  obtain ⟨hbytes, -, -, ⟨hcontent, -⟩, -⟩ := snapshot_shown_exactly fitsSucceeded
  obtain ⟨-, -, -, -, hfailed, -⟩ := snapshot_shown_exactly fitsFailed
  exact ⟨⟨fitsDue, fitsSucceeded, fitsFailed⟩, (hpending _).1 rfl, ⟨(hcontent _).1 rfl, hbytes⟩,
    (hfailed _).1 rfl⟩

end OperationMessage

end Message

end Rehearsal
