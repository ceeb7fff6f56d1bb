import Rehearsal.Proofs.Client.Polling
import Rehearsal.Proofs.Message.Timestamp
import Rehearsal.Proofs.Operation.Page
import Rehearsal.Proofs.Service.Names
import Rehearsal.Proofs.Service.Refusal

/-!
# The time remaining is the time until an operation is done

While nobody deletes an operation, or cancels it before it is due, whoever reads it sees it pending
before its due instant, with the time from the reading to that instant, and done from then on
(`Service.Reads.exists_punctual`).  Outside leap seconds that time leads to the due instant
(`Instant.add?_since`).  An instant inside a leap second is due when the clock comes to the next
second, and the time until it leads a part of a second beyond that, or short of it
(`Instant.add?_since_leap`).
-/

namespace Rehearsal

open Client (Punctual)
open Time (Instant Span nanosPerSecond)

/-! ## What is read of an operation -/

/-- A page takes its readings of the clock from those of the visit. -/
theorem Visit.readingAt_mem (now : Instant) (later : List Instant) (i : Nat) :
    readingAt now later i ∈ now :: later := by
  induction i generalizing now later with
  | zero => exact List.mem_cons_self
  | succ i ih =>
      have hmem := ih (later.headD now) later.tail
      cases later with
      | nil =>
          rw [readingAt]
          exact hmem
      | cons first rest => exact List.mem_cons_of_mem now hmem

/-- An act that shows an operation has met the operation of the name it shows. -/
theorem OperationBook.eq_of_update {book : OperationBook} {name other : String} {op : Operation}
    {state : OperationState} {act : Operation → OperationState × Operation}
    (hop : book.operations.get? name = some op)
    (h : (book.update other act).1 = .ok ⟨name, state⟩) : other = name ∧ state = (act op).1 := by
  cases hother : book.operations.get? other with
  | none =>
      rw [update_of_none act hother] at h
      cases h
  | some found =>
      rw [update_of_some act hother] at h
      cases h
      rw [hop] at hother
      cases hother
      exact ⟨rfl, rfl⟩

namespace Service

/-- A visit shows a state of the operation of a name, as it is at a reading of the clock: an answer
about one operation at the first reading, a page at the reading of the place on it. -/
inductive Shows (service : Service) (visit : Visit) (name : String) :
    Instant → OperationState → Prop where
  | operation {state : OperationState}
      (answered : (service.visit visit).1 = .ok (.operation ⟨name, state⟩)) :
      Shows service visit name visit.now state
  | page {page : OperationPage} {i : Nat} {state : OperationState}
      (answered : (service.visit visit).1 = .ok (.operations page))
      (listed : page.operations[i]? = some ⟨name, state⟩) :
      Shows service visit name (Visit.readingAt visit.now visit.later i) state

/-- The visit at a position of a run shows a state of the operation of a name. -/
def Reads (service : Service) (visits : List Visit) (name : String) (i : Nat) (t : Instant)
    (state : OperationState) : Prop :=
  ∃ visit, visits[i]? = some visit ∧ (service.after (visits.take i)).Shows visit name t state

variable {service : Service} {visit : Visit} {name : String} {op : Operation} {t : Instant}
  {state : OperationState}

/-- An answer about an operation that is there comes of asking for it or of cancelling it. -/
theorem call_of_answered (hop : service.operations.operations.get? name = some op)
    (answered : (service.visit visit).1 = .ok (.operation ⟨name, state⟩)) :
    (visit.call = .get name ∧ state = (op.evaluate visit.now).1) ∨
      (visit.call = .cancel name ∧ state = (op.cancel visit.now).1) := by
  have hchange := change_visit service visit
  obtain ⟨now, call, candidates, later⟩ := visit
  cases call with
  | setupRetry responses =>
      unfold Service.visit perform at answered
      dsimp only at answered
      split at answered <;> cases answered
  | retry id =>
      obtain ⟨_, -, ⟨⟩⟩ := ok_of_map answered
  | start spec =>
      rw [answered] at hchange
      cases hchange with
      | @started asked fresh call free answered later =>
          cases answered
          obtain ⟨before, after, -, -, hfree⟩ := free
          exact absurd (Table.mem_names.2 (by rw [hop]; rfl)) hfree
      | deleted call => cases call
      | kept same unstarted => simp [Visit.started?] at unstarted
  | get other =>
      obtain ⟨snapshot, hget, ⟨⟩⟩ := ok_of_map answered
      obtain ⟨rfl, hstate⟩ := OperationBook.eq_of_update hop hget
      exact .inl ⟨rfl, hstate⟩
  | list pageSize pageToken =>
      obtain ⟨_, -, ⟨⟩⟩ := ok_of_map answered
  | cancel other =>
      obtain ⟨snapshot, hcancel, ⟨⟩⟩ := ok_of_map answered
      obtain ⟨rfl, hstate⟩ := OperationBook.eq_of_update hop hcancel
      exact .inr ⟨rfl, hstate⟩
  | delete other =>
      obtain ⟨_, -, ⟨⟩⟩ := ok_of_map answered
  | paginate request =>
      obtain ⟨_, -, ⟨⟩⟩ := ok_of_map answered

theorem call_of_listed {page : OperationPage}
    (answered : (service.visit visit).1 = .ok (.operations page)) :
    ∃ pageSize pageToken, visit.call = .list pageSize pageToken ∧
      (service.operations.list visit.now pageSize pageToken visit.later).1 = .ok page := by
  obtain ⟨now, call, candidates, later⟩ := visit
  cases call with
  | list pageSize pageToken =>
      obtain ⟨_, hlist, ⟨⟩⟩ := ok_of_map answered
      exact ⟨pageSize, pageToken, rfl, hlist⟩
  | setupRetry responses =>
      unfold Service.visit perform at answered
      dsimp only at answered
      split at answered <;> cases answered
  | start spec =>
      unfold Service.visit perform at answered
      dsimp only at answered
      split at answered <;> cases answered
  | _ => obtain ⟨_, -, ⟨⟩⟩ := ok_of_map answered

/-- What is shown of an operation that is there, and not cancelled, is how it is at a reading of the
clock that the visit takes. -/
theorem Shows.eq_evaluate (h : service.Shows visit name t state)
    (hop : service.operations.operations.get? name = some op) (spares : visit.Spares name service) :
    t ∈ visit.readings ∧ state = (op.evaluate t).1 := by
  cases h with
  | operation answered =>
      rcases call_of_answered hop answered with ⟨hcall, hstate⟩ | ⟨hcall, hstate⟩
      · rw [Visit.readings, hcall]
        exact ⟨List.mem_cons_self, hstate⟩
      · rw [Operation.cancel_of_not_pending (spares.not_pending hcall hop)] at hstate
        rw [Visit.readings, hcall]
        exact ⟨List.mem_cons_self, hstate⟩
  | page answered listed =>
      obtain ⟨pageSize, pageToken, hcall, hlist⟩ := call_of_listed answered
      have hget := OperationBook.get_of_listed hlist listed
      rw [OperationBook.get_of_some hop] at hget
      cases hget
      rw [Visit.readings, hcall]
      exact ⟨Visit.readingAt_mem _ _ _, rfl⟩

end Service

/-! ## Operations that end when they are due -/

namespace Client.Punctual

variable {due reading now : Instant} {planned : Outcome} {op : Operation}

theorem ofSpec (spec : OperationSpec) (started reading : Instant) :
    Punctual (spec.completion.getD started) spec.outcome reading (.ofSpec spec started) :=
  ⟨.ofSpec spec started, fun _ => rfl⟩

theorem evaluate_of_lt (h : Punctual due planned reading op) (hlt : reading < due) :
    (op.evaluate reading).1 = .pending (due.since reading) := by
  have hdue : ¬ op.due ≤ reading := by
    rw [h.plan.due]
    exact Instant.not_le.2 hlt
  rw [Operation.evaluate_of_not_due (h.waits hlt) hdue, h.plan.due]

/-- Such an operation is pending before it is due and done from then on. -/
theorem pending_iff (h : Punctual due planned reading op) :
    (∃ left, (op.evaluate reading).1 = .pending left) ↔ reading < due := by
  constructor
  · rintro ⟨left, hpending⟩
    refine Instant.not_le.1 fun hle => ?_
    rw [h.plan.evaluate_of_due hle] at hpending
    cases hpending
  · exact fun hlt => ⟨_, h.evaluate_of_lt hlt⟩

theorem cancel_of_not_pending (h : Punctual due planned reading op) (hnow : now ≤ reading)
    (hdone : ∀ remaining, (op.evaluate now).1 ≠ .pending remaining) :
    Punctual due planned reading (op.cancel now).2 := by
  rw [Operation.cancel_of_not_pending hdone]
  exact h.evaluate hnow

end Client.Punctual

/-- Over a steady clock no reading is before those of the visits before. -/
theorem Steady.le_of_take {visits : List Visit} (steady : Steady visits) {k : Nat} {visit : Visit}
    (hvisit : visits[k]? = some visit) {t : Instant} (ht : t ∈ visit.readings) :
    ∀ earlier ∈ visits.take k, ∀ reading ∈ earlier.readings, reading ≤ t := by
  have hmem : visit ∈ visits.drop k := by
    have hfirst : (visits.drop k)[0]? = some visit := by
      rw [List.getElem?_drop, Nat.add_zero, hvisit]
    exact List.mem_of_getElem? hfirst
  obtain ⟨-, hpairwise⟩ := List.pairwise_flatMap.1 steady
  rw [← List.take_append_drop k visits] at hpairwise
  obtain ⟨-, -, hle⟩ := List.pairwise_append.1 hpairwise
  exact fun earlier hearlier reading hreading => hle earlier hearlier visit hmem reading hreading t ht

namespace Service

variable {service : Service} {name : String} {due reading t : Instant} {planned : Outcome}
  {spec : OperationSpec} {started : Visit} {visits : List Visit} {snapshot : Snapshot} {i : Nat}
  {state : OperationState}

/-- An operation that is spared by all visits ends when it is due, if at all. -/
theorem punctual_after (h : service.operations.Has name (Punctual due planned reading))
    (spared : service.SparedBy name visits)
    (hreadings : ∀ visit ∈ visits, ∀ t ∈ visit.readings, t ≤ reading) :
    (service.after visits).operations.Has name (Punctual due planned reading) := by
  induction visits generalizing service with
  | nil => exact h
  | cons visit rest ih =>
      obtain ⟨hfirst, hrest⟩ := List.forall_mem_cons.1 hreadings
      have spares := spared 0 visit rfl
      have hvisit : (service.visit visit).2.operations.Has name (Punctual due planned reading) := by
        refine h.visit (fun t ht _ hpunctual => hpunctual.evaluate (hfirst t ht)) ?_ spares.delete
        intro hcall op hop hpunctual
        have hmem : visit.now ∈ visit.readings := by simp [Visit.readings, hcall]
        exact hpunctual.cancel_of_not_pending (hfirst _ hmem) (spares.not_pending hcall hop)
      exact ih hvisit (fun k later hlater => spared (k + 1) later hlater) hrest

section

variable (hcall : started.call = .start spec)
  (hanswer : (service.visit started).1 = .ok (.operation snapshot))
include hcall hanswer

theorem punctual_of_started (hle : started.now ≤ reading) :
    (service.visit started).2.operations.Has snapshot.name
      (Punctual (spec.completion.getD started.now) spec.outcome reading) :=
  ⟨_, get?_of_started hcall hanswer, (Punctual.ofSpec spec started.now reading).evaluate hle⟩

/-- Every read of an operation that is spared meets it as if nobody had touched it. -/
theorem Reads.exists_punctual (steady : Steady (started :: visits))
    (spared : (service.visit started).2.SparedBy snapshot.name visits)
    (h : service.Reads (started :: visits) snapshot.name i t state) :
    (∃ visit ∈ started :: visits, t ∈ visit.readings) ∧
      ∃ op, Punctual (spec.completion.getD started.now) spec.outcome t op ∧
        state = (op.evaluate t).1 := by
  have hnow : started.now ∈ started.readings := by simp [Visit.readings, hcall]
  obtain ⟨hfirst, hplans⟩ := plans_of_start hcall hanswer
  obtain ⟨visit, hvisit, hshows⟩ := h
  cases i with
  | zero =>
      cases hvisit
      have hstarted : service.Shows started snapshot.name t state := hshows
      cases hstarted with
      | operation answered =>
          have hsame := Answer.operation.inj (Except.ok.inj (hanswer.symm.trans answered))
          have hstate : state = snapshot.state := (congrArg Snapshot.state hsame).symm
          exact ⟨⟨started, List.mem_cons_self, hnow⟩, _, .ofSpec spec started.now _,
            hstate.trans hfirst⟩
      | page answered =>
          rw [hanswer] at answered
          cases answered
  | succ k =>
      have hlater : visits[k]? = some visit := hvisit
      have spares := spared k visit hlater
      obtain ⟨seen, hseen, -⟩ := hplans.after (spared.take k)
      obtain ⟨ht, -⟩ := hshows.eq_evaluate hseen spares
      have hreadings := steady.le_of_take hvisit ht
      rw [List.take_succ_cons, List.forall_mem_cons] at hreadings
      have hpunctual := punctual_of_started hcall hanswer (hreadings.1 _ hnow)
      obtain ⟨op, hop, hpunctual⟩ := punctual_after hpunctual (spared.take k) hreadings.2
      exact ⟨⟨visit, List.mem_of_getElem? hvisit, ht⟩, op, hpunctual,
        (hshows.eq_evaluate hop spares).2⟩

/-- Whoever asks for an operation that is spared is answered. -/
theorem exists_reads_of_get
    (spared : (service.visit started).2.SparedBy snapshot.name visits) {visit : Visit}
    (hvisit : visits[i]? = some visit) (hget : visit.call = .get snapshot.name) :
    ∃ state, service.Reads (started :: visits) snapshot.name (i + 1) visit.now state := by
  obtain ⟨op, hop, -⟩ := (plans_of_start hcall hanswer).2.after (spared.take i)
  refine ⟨(op.evaluate visit.now).1, visit, hvisit, .operation ?_⟩
  obtain ⟨now, call, candidates, later⟩ := visit
  subst hget
  exact congrArg (Except.map Answer.operation)
    (congrArg Prod.fst (OperationBook.get_of_some hop now))

end

open Message (LongrunningRequest Timestamp)

/-- The operation of an accepted request that is neither deleted nor cancelled before it is done,
read over a clock that goes up outside leap seconds.  Whoever asks is answered, and the operation is
pending at a reading if that comes before the completion time.  Outside leap seconds the time shown
at any reading leads to the completion time: the operation is pending exactly before the reading and
the time shown come together.  Inside a leap second the operation is done from the next second on,
and the time shown leads as far into that one, or into the second of the completion time if that
stands earlier in its day than the reading, so it is off by a second at most. -/
theorem remaining_leads_to_done {request : LongrunningRequest} {timestamp : Timestamp}
    (htime : request.completionTime = some timestamp) (hspec : Rpc.operationSpec request = .ok spec)
    (hcall : started.call = .start spec)
    (hanswer : (service.visit started).1 = .ok (.operation snapshot))
    (steady : Steady (started :: visits))
    (plain : ∀ visit ∈ started :: visits, ∀ t ∈ visit.readings, t.Plain)
    (spared : (service.visit started).2.SparedBy snapshot.name visits) :
    ∃ due, timestamp.toInstant = .ok due ∧
      (∀ i visit, visits[i]? = some visit → visit.call = .get snapshot.name →
        ∃ state, service.Reads (started :: visits) snapshot.name (i + 1) visit.now state) ∧
      (∀ i t state, service.Reads (started :: visits) snapshot.name i t state →
        ((∃ left, state = .pending left) ↔ t < due)) ∧
      ∀ i j t t' remaining state,
        service.Reads (started :: visits) snapshot.name i t (.pending remaining) →
        service.Reads (started :: visits) snapshot.name j t' state →
          (due.Plain → ∃ turn, t.add? remaining = some turn ∧
            ((∃ left, state = .pending left) ↔ t' < turn)) ∧
          (¬ due.Plain →
            t.add? remaining =
              Instant.of? (if due.secondOfDay < t.secondOfDay then due.seconds else due.seconds + 1)
                (due.nanos - nanosPerSecond) ∧
            ((∃ left, state = .pending left) ↔ t'.seconds ≤ due.seconds) ∧
            ((∃ left, state = .pending left) →
              t'.total < t.total + remaining.nanos + nanosPerSecond) ∧
            ((¬ ∃ left, state = .pending left) →
              t.total + remaining.nanos < t'.total + nanosPerSecond)) := by
  obtain ⟨due, hdue, hcompletion⟩ := Rpc.completion_of_operationSpec htime hspec
  have hsame : spec.completion.getD started.now = due := by rw [hcompletion, Option.getD_some]
  refine ⟨due, hdue, fun i visit => exists_reads_of_get hcall hanswer spared, ?_, ?_⟩
  · intro i t state hread
    obtain ⟨-, op, hop, rfl⟩ := hread.exists_punctual hcall hanswer steady spared
    rw [hsame] at hop
    exact hop.pending_iff
  · intro i j t t' remaining state hread hlater
    obtain ⟨⟨visit, hvisit, ht⟩, op, hop, hremaining⟩ :=
      hread.exists_punctual hcall hanswer steady spared
    obtain ⟨⟨visit', hvisit', ht'⟩, op', hop', rfl⟩ :=
      hlater.exists_punctual hcall hanswer steady spared
    rw [hsame] at hop hop'
    have hplain := plain visit hvisit t ht
    have hplain' := plain visit' hvisit' t' ht'
    have hsince : remaining = due.since t := by
      have hlt := hop.pending_iff.1 ⟨remaining, hremaining.symm⟩
      rw [hop.evaluate_of_lt hlt] at hremaining
      exact OperationState.pending.inj hremaining
    subst hsince
    rw [hop'.pending_iff]
    refine ⟨fun hdue => ⟨due, Instant.add?_since hdue hplain, Iff.rfl⟩, fun hleap => ?_⟩
    obtain ⟨hbefore, hafter⟩ := Instant.since_leap_bounds hleap hplain hplain'
    exact ⟨Instant.add?_since_leap hleap hplain, Instant.lt_iff_of_leap hleap hplain', hbefore,
      hafter⟩

/-- A quarter of a second into the second after midnight. -/
def afterMidnight : Instant := ⟨86401, 250000000, by decide, by decide, by decide⟩

/-- An operation is started before midnight. -/
def midnightStart : Visit where
  now := .ofSeconds 86390 (by decide)
  call := .start { completion := some afterMidnight }
  candidates := ["a"]

/-- It is read twice after midnight. -/
def midnightReads : List Visit :=
  [{ now := .ofSeconds 86401 (by decide), call := .get "operations/a" },
    { now := .ofSeconds 86402 (by decide), call := .list 0 "" }]

theorem remaining_leads_to_done_afterMidnight :
    let service : Service := { settings := default }
    let run := midnightStart :: midnightReads
    ∃ t t' turn : Instant, ∃ remaining : Span, remaining.nanos = 250000000 ∧
      service.Reads run "operations/a" 1 t (.pending remaining) ∧
      service.Reads run "operations/a" 2 t' (.done (.succeeded "")) ∧
      t.add? remaining = some turn ∧ t < turn ∧ ¬ t' < turn := by
  intro service run
  have hspec : Rpc.operationSpec { completionTime := some ⟨86401, 250000000⟩ } =
      .ok { completion := some afterMidnight } := rfl
  have hanswer : (service.visit midnightStart).1 =
      .ok (.operation ⟨"operations/a", .pending ⟨11250000000, by decide⟩⟩) := rfl
  have steady : Steady run := by
    unfold Steady
    decide
  have plain : ∀ visit ∈ run, ∀ t ∈ visit.readings, t.Plain := by decide
  have spared : (service.visit midnightStart).2.SparedBy "operations/a" midnightReads :=
    sparedBy_of_calls (by decide) _
  have hget : service.Reads run "operations/a" 1 (.ofSeconds 86401 (by decide))
      (.pending ⟨250000000, by decide⟩) := ⟨_, rfl, .operation rfl⟩
  have hlist : service.Reads run "operations/a" 2 (.ofSeconds 86402 (by decide))
      (.done (.succeeded "")) :=
    ⟨_, rfl, @Shows.page _ _ _ ⟨[⟨"operations/a", .done (.succeeded "")⟩], ""⟩ 0 _ rfl rfl⟩
  obtain ⟨due, hdue, -, -, hreads⟩ :=
    remaining_leads_to_done rfl hspec rfl hanswer steady plain spared
  have hsame : Timestamp.toInstant ⟨86401, 250000000⟩ = .ok afterMidnight := rfl
  cases hsame.symm.trans hdue
  obtain ⟨turn, hturn, hfirst⟩ := (hreads 1 1 _ _ _ _ hget hget).1 (by decide)
  obtain ⟨again, hagain, hsecond⟩ := (hreads 1 2 _ _ _ _ hget hlist).1 (by decide)
  cases hturn.symm.trans hagain
  refine ⟨_, _, turn, _, rfl, hget, hlist, hturn, hfirst.1 ⟨_, rfl⟩, fun hlt => ?_⟩
  obtain ⟨left, hpending⟩ := hsecond.2 hlt
  cases hpending

/-- Half a second after the end of the last second of a minute, in a leap second. -/
def lateInMinute : Instant := ⟨1700000039, 1500000000, by decide, by decide, by decide⟩

/-- An operation that completes in a leap second, started when the clock is at dawn. -/
def lateStart : Visit where
  now := Command.dawn
  call := .start { completion := some lateInMinute }
  candidates := ["a"]

/-- It is read at the start of the next minute. -/
def nextMinuteRead : Visit where
  now := .ofSeconds 1700000040 (by decide)
  call := .get "operations/a"

/-- The operation is done half a second before the time that was shown has passed. -/
theorem done_before_remaining :
    let service : Service := { settings := default }
    let run := [lateStart, nextMinuteRead]
    Rpc.operationSpec { completionTime := some ⟨1700000039, 1500000000⟩ } =
        .ok { completion := some lateInMinute } ∧
      Steady run ∧ (∀ visit ∈ run, ∀ t ∈ visit.readings, t.Plain) ∧
      (∀ visit ∈ run, visit.call ≠ .delete "operations/a" ∧ visit.call ≠ .cancel "operations/a") ∧
      ∃ remaining turn, service.Reads run "operations/a" 0 lateStart.now (.pending remaining) ∧
        lateStart.now.add? remaining = some turn ∧ nextMinuteRead.now < turn ∧
        service.Reads run "operations/a" 1 nextMinuteRead.now (.done (.succeeded "")) := by
  intro service run
  have steady : Steady run := by
    unfold Steady
    decide
  have hturn : lateStart.now.add? ⟨40500000000, by decide⟩ =
      some ⟨1700000040, 500000000, by decide, by decide, by decide⟩ := rfl
  exact ⟨rfl, steady, by decide, by decide, _, _, ⟨_, rfl, .operation rfl⟩, hturn, by decide,
    ⟨_, rfl, .operation rfl⟩⟩

end Service

end Rehearsal
