import Rehearsal.Visit

/-!
# Operations that keep to their plan

What a look leaves true of an operation is true of it until somebody cancels or deletes it
(`OperationBook.Has.visit`).  So an operation keeps to its plan until it is deleted, or cancelled
while it is pending (`OperationBook.Plans.visit`), whatever the clock does, and from its due instant
on every look shows the outcome that was planned at the start (`Plans.get_of_due`,
`Plans.list_of_due`).
-/

namespace Rehearsal

open Time (Instant)

/-! ## What is true of an operation -/

/-- The operation of a name is there and has a property. -/
def OperationBook.Has (book : OperationBook) (name : String) (P : Operation → Prop) : Prop :=
  ∃ op, book.operations.get? name = some op ∧ P op

namespace OperationBook.Has

variable {book later : OperationBook} {name other : String} {P : Operation → Prop}

theorem insert {op : Operation} (h : P op) : Has ⟨book.operations.insert name op⟩ name P :=
  ⟨op, Table.get?_insert_self _ _ _, h⟩

theorem insert_of_ne (h : book.Has name P) (hother : other ≠ name) (op : Operation) :
    Has ⟨book.operations.insert other op⟩ name P := by
  obtain ⟨kept, hkept, hP⟩ := h
  exact ⟨kept, by rw [Table.get?_insert_of_ne _ _ (Ne.symm hother), hkept], hP⟩

/-- An act on some operation keeps the property if it does so when it meets this one. -/
theorem update (h : book.Has name P) (other : String) {act : Operation → OperationState × Operation}
    (hact : other = name → ∀ op, book.operations.get? name = some op → P op → P (act op).2) :
    (book.update other act).2.Has name P := by
  cases hop : book.operations.get? other with
  | none =>
      rw [update_of_none act hop]
      exact h
  | some op =>
      rw [update_of_some act hop]
      by_cases hother : other = name
      · subst hother
        obtain ⟨kept, hkept, hP⟩ := h
        rw [hop] at hkept
        cases hkept
        exact insert (hact rfl op hop hP)
      · exact h.insert_of_ne hother _

theorem delete (h : book.Has name P) (hother : other ≠ name) :
    (book.delete other).2.Has name P := by
  cases hop : book.operations.get? other with
  | none =>
      rw [delete_of_none hop]
      exact h
  | some op =>
      obtain ⟨kept, hkept, hP⟩ := h
      rw [delete_of_some hop]
      exact ⟨kept, by rw [Table.get?_erase, if_neg (Ne.symm hother), hkept], hP⟩

/-- A start takes a name that is free. -/
theorem start (h : book.Has name P) {now : Instant} {spec : OperationSpec}
    {candidates : List String} {snapshot : Snapshot}
    (hstart : book.start now spec candidates = some (snapshot, later)) : later.Has name P := by
  cases hfresh : Ident.firstFresh? book.operations.contains
      (candidates.map (operationNamespace ++ ·)) with
  | none =>
      rw [start_of_not_fresh now spec hfresh] at hstart
      cases hstart
  | some fresh =>
      obtain ⟨other, rest⟩ := fresh
      rw [start_of_fresh now spec hfresh] at hstart
      cases hstart
      apply h.insert_of_ne
      rintro rfl
      obtain ⟨op, hop, -⟩ := h
      have hfree := Ident.not_inUse_of_firstFresh? hfresh
      rw [Table.contains, hop] at hfree
      cases hfree

section

variable {now : Instant} {readings : List Instant}
  (hlook : ∀ reading ∈ now :: readings, ∀ op, P op → P (op.evaluate reading).2)
include hlook

theorem look (h : book.Has name P) (names : List String) :
    (OperationBook.look now readings names book).2.Has name P := by
  induction names generalizing book now readings with
  | nil => exact h
  | cons other rest ih =>
      have hget : (book.get now other).2.Has name P :=
        h.update other fun _ op _ => hlook now List.mem_cons_self op
      have hlater : ∀ reading ∈ readings.headD now :: readings.tail, ∀ op, P op →
          P (op.evaluate reading).2 := by
        intro reading hreading
        apply hlook reading
        cases readings with
        | nil => simpa using hreading
        | cons first others => exact List.mem_cons_of_mem _ hreading
      unfold OperationBook.look
      split
      · rename_i seen heq
        rw [heq] at hget
        exact ih hlater hget
      · rename_i seen heq
        rw [heq] at hget
        exact ih (fun reading hreading => hlook reading hreading) hget

theorem list (h : book.Has name P) (pageSize : Int32) (pageToken : String) :
    (book.list now pageSize pageToken readings).2.Has name P := by
  cases hparse : Paging.Token.parse pageToken book.operations.names.length with
  | error error =>
      rw [list_of_error now pageSize readings hparse]
      exact h
  | ok start =>
      rw [list_of_ok now pageSize readings hparse]
      exact h.look hlook _

end

section

variable {service : Service}

/-- A visit keeps the property if it does so at the readings of the clock that it takes, unless it
deletes or cancels this operation. -/
theorem visit (h : service.operations.Has name P) {visit : Visit}
    (hlook : ∀ reading ∈ visit.readings, ∀ op, P op → P (op.evaluate reading).2)
    (hcancel : visit.call = .cancel name → ∀ op,
      service.operations.operations.get? name = some op → P op → P (op.cancel visit.now).2)
    (hdelete : visit.call ≠ .delete name) : (service.visit visit).2.operations.Has name P := by
  obtain ⟨now, call, candidates, later⟩ := visit
  unfold Service.visit Service.perform
  cases call with
  | setupRetry responses =>
      dsimp only
      split <;> exact h
  | retry id => exact h
  | paginate request => exact h
  | start spec =>
      dsimp only
      split
      · rename_i hstart
        exact h.start hstart
      · exact h
  | get other => exact h.update other fun _ op _ => hlook now List.mem_cons_self op
  | list pageSize pageToken => exact h.list hlook pageSize pageToken
  | cancel other =>
      apply h.update
      rintro rfl
      exact hcancel rfl
  | delete other =>
      apply h.delete
      rintro rfl
      exact hdelete rfl

theorem readings_subset (visit : Visit) : visit.readings ⊆ visit.now :: visit.later := by
  obtain ⟨now, call, candidates, later⟩ := visit
  unfold Visit.readings
  cases call <;> simp

/-- A call keeps the property if all looks do, unless it deletes or cancels this operation. -/
theorem perform (h : service.operations.Has name P) {now : Instant} {readings : List Instant}
    (hlook : ∀ reading ∈ now :: readings, ∀ op, P op → P (op.evaluate reading).2) {call : Call}
    (hcancel : call = .cancel name → ∀ op, service.operations.operations.get? name = some op →
      P op → P (op.cancel now).2)
    (hdelete : call ≠ .delete name) (candidates : List String) :
    (service.perform now candidates call readings).2.operations.Has name P := by
  show (service.visit ⟨now, call, candidates, readings⟩).2.operations.Has name P
  exact h.visit (fun reading hreading => hlook reading (readings_subset _ hreading)) hcancel hdelete

theorem after (h : service.operations.Has name P) {visits : List Visit}
    (hlook : ∀ visit ∈ visits, ∀ reading ∈ visit.readings, ∀ op, P op → P (op.evaluate reading).2)
    (hcancel : ∀ visit ∈ visits, visit.call = .cancel name → ∀ op, P op →
      P (op.cancel visit.now).2)
    (hdelete : ∀ visit ∈ visits, visit.call ≠ .delete name) :
    (service.after visits).operations.Has name P := by
  induction visits generalizing service with
  | nil => exact h
  | cons visit rest ih =>
      rw [List.forall_mem_cons] at hlook hcancel hdelete
      have hvisit := h.visit hlook.1 (fun hcall op _ => hcancel.1 hcall op) hdelete.1
      exact ih hvisit hlook.2 hcancel.2 hdelete.2

end

end OperationBook.Has

/-! ## Plans -/

variable {due : Instant} {outcome : Outcome}

/-- A cancellation that finds the operation done is a look at it. -/
theorem Operation.cancel_of_not_pending {op : Operation} {now : Instant}
    (h : ∀ remaining, (op.evaluate now).1 ≠ .pending remaining) :
    op.cancel now = op.evaluate now := by
  unfold cancel
  split
  · rename_i remaining seen hpending
    exact absurd (congrArg Prod.fst hpending) (h remaining)
  · rfl

/-- The operation is due at an instant, is to end in an outcome, and has not ended otherwise. -/
structure Operation.OnPlan (op : Operation) (due : Instant) (outcome : Outcome) : Prop where
  due : op.due = due
  planned : op.planned = outcome
  recorded : ∀ ended ∈ op.recorded, ended = outcome

namespace Operation.OnPlan

variable {op : Operation}

theorem ofSpec (spec : OperationSpec) (now : Instant) :
    (Operation.ofSpec spec now).OnPlan (spec.completion.getD now) spec.outcome :=
  ⟨rfl, rfl, fun _ h => by cases h⟩

theorem evaluate (h : op.OnPlan due outcome) (now : Instant) :
    (op.evaluate now).2.OnPlan due outcome := by
  cases hr : op.recorded with
  | some ended =>
      rw [evaluate_of_recorded hr]
      exact h
  | none =>
      by_cases hdue : op.due ≤ now
      · rw [evaluate_of_due hr hdue]
        refine ⟨h.due, h.planned, ?_⟩
        rintro _ ⟨⟩
        exact h.planned
      · rw [evaluate_of_not_due hr hdue]
        exact h

theorem evaluate_of_due (h : op.OnPlan due outcome) {now : Instant} (hdue : due ≤ now) :
    (op.evaluate now).1 = .done outcome := by
  cases hr : op.recorded with
  | some ended => rw [evaluate_of_recorded hr, h.recorded ended hr]
  | none => rw [Operation.evaluate_of_due hr (h.due ▸ hdue), h.planned]

/-- A cancellation that finds the operation done leaves it on its plan. -/
theorem cancel (h : op.OnPlan due outcome) {now : Instant}
    (hdone : ∀ remaining, (op.evaluate now).1 ≠ .pending remaining) :
    (op.cancel now).2.OnPlan due outcome := by
  rw [cancel_of_not_pending hdone]
  exact h.evaluate now

end Operation.OnPlan

/-- The operation of a name is on its plan. -/
def OperationBook.Plans (book : OperationBook) (name : String) (due : Instant)
    (outcome : Outcome) : Prop :=
  ∃ op, book.operations.get? name = some op ∧ op.OnPlan due outcome

namespace OperationBook.Plans

variable {book : OperationBook} {name : String}

theorem get (h : book.Plans name due outcome) (now : Instant) (other : String) :
    (book.get now other).2.Plans name due outcome :=
  Has.update h other fun _ _ _ hplan => hplan.evaluate now

/-! ## What is seen of it -/

theorem get_of_due (h : book.Plans name due outcome) {now : Instant} (hdue : due ≤ now) :
    (book.get now name).1 = .ok ⟨name, .done outcome⟩ := by
  obtain ⟨op, hop, hplan⟩ := h
  rw [get_of_some hop, hplan.evaluate_of_due hdue]

theorem look_of_due (h : book.Plans name due outcome) {now : Instant} (hdue : due ≤ now)
    (names : List String) :
    ∀ snapshot ∈ (OperationBook.look now [] names book).1, snapshot.name = name →
      snapshot = ⟨name, .done outcome⟩ := by
  induction names generalizing book with
  | nil => rintro _ ⟨⟩
  | cons other rest ih =>
      have hget := h.get now other
      cases hop : book.operations.get? other with
      | none =>
          simp only [OperationBook.look, get_of_none hop]
          exact ih h
      | some op =>
          have hseen := get_of_some hop now
          rw [hseen] at hget
          rw [look_cons_of_ok hseen]
          intro snapshot hsnapshot hname
          rcases List.mem_cons.1 hsnapshot with rfl | hsnapshot
          · have hother : other = name := hname
            subst hother
            have hdone := h.get_of_due hdue
            rw [hseen] at hdone
            exact Except.ok.inj hdone
          · exact ih hget snapshot hsnapshot hname

theorem list_of_due (h : book.Plans name due outcome) {now : Instant} (hdue : due ≤ now)
    {pageSize : Int32} {pageToken : String} {page : OperationPage}
    (hpage : (book.list now pageSize pageToken).1 = .ok page) :
    ∀ snapshot ∈ page.operations, snapshot.name = name → snapshot = ⟨name, .done outcome⟩ := by
  cases hparse : Paging.Token.parse pageToken book.operations.names.length with
  | error error =>
      rw [list_of_error now pageSize [] hparse] at hpage
      cases hpage
  | ok start =>
      rw [list_of_ok now pageSize [] hparse] at hpage
      cases hpage
      exact h.look_of_due hdue _

end OperationBook.Plans

/-! ## Runs -/

/-- The visit does not delete the operation of a name, nor does it cancel it while it is pending. -/
structure Visit.Spares (name : String) (service : Service) (visit : Visit) : Prop where
  delete : visit.call ≠ .delete name
  cancel : visit.call = .cancel name → ∀ remaining,
    (service.operations.get visit.now name).1 ≠ .ok ⟨name, .pending remaining⟩

theorem Visit.Spares.not_pending {name : String} {service : Service} {visit : Visit}
    {op : Operation} (spares : visit.Spares name service) (hcall : visit.call = .cancel name)
    (hop : service.operations.operations.get? name = some op) (remaining : Time.Span) :
    (op.evaluate visit.now).1 ≠ .pending remaining := by
  intro hpending
  apply spares.cancel hcall remaining
  rw [OperationBook.get_of_some hop, hpending]

/-- Every visit of a run spares the operation of a name when its turn comes. -/
def Service.SparedBy (service : Service) (name : String) (visits : List Visit) : Prop :=
  ∀ (i : Nat) (visit : Visit), visits[i]? = some visit →
    visit.Spares name (service.after (visits.take i))

theorem Service.SparedBy.take {service : Service} {name : String} {visits : List Visit}
    (spared : service.SparedBy name visits) (k : Nat) :
    service.SparedBy name (visits.take k) := by
  intro i visit hvisit
  rw [List.getElem?_take] at hvisit
  split at hvisit
  · rename_i hi
    rw [List.take_take, Nat.min_eq_left (Nat.le_of_lt hi)]
    exact spared i visit hvisit
  · cases hvisit

theorem Service.sparedBy_of_calls {name : String} {visits : List Visit}
    (h : ∀ visit ∈ visits, visit.call ≠ .delete name ∧ visit.call ≠ .cancel name)
    (service : Service) : service.SparedBy name visits := by
  intro i visit hvisit
  obtain ⟨hdelete, hcancel⟩ := h visit (List.mem_of_getElem? hvisit)
  exact ⟨hdelete, fun hcall => absurd hcall hcancel⟩

namespace OperationBook.Plans

variable {service : Service} {name : String}

theorem visit (h : service.operations.Plans name due outcome) {visit : Visit}
    (spares : visit.Spares name service) :
    (service.visit visit).2.operations.Plans name due outcome := by
  have hlook : ∀ reading ∈ visit.now :: visit.later, ∀ op : Operation, op.OnPlan due outcome →
      (op.evaluate reading).2.OnPlan due outcome := fun reading _ _ hplan => hplan.evaluate reading
  refine Has.perform h hlook ?_ spares.delete visit.candidates
  exact fun hcall op hop hplan => hplan.cancel (spares.not_pending hcall hop)

theorem after (h : service.operations.Plans name due outcome) {visits : List Visit}
    (spared : service.SparedBy name visits) :
    (service.after visits).operations.Plans name due outcome := by
  induction visits generalizing service with
  | nil => exact h
  | cons visit rest ih =>
      apply ih (h.visit (spared 0 visit rfl))
      intro i later hlater
      exact spared (i + 1) later hlater

end OperationBook.Plans

/-- An operation that a start has answered with is on the plan it was given. -/
theorem Service.plans_of_start {service : Service} {visit : Visit} {spec : OperationSpec}
    (hcall : visit.call = .start spec) {snapshot : Snapshot}
    (h : (service.visit visit).1 = .ok (.operation snapshot)) :
    snapshot.state = ((Operation.ofSpec spec visit.now).evaluate visit.now).1 ∧
      (service.visit visit).2.operations.Plans snapshot.name (spec.completion.getD visit.now)
        spec.outcome := by
  obtain ⟨now, call, candidates, later⟩ := visit
  subst hcall
  cases hfresh : Ident.firstFresh? service.operations.operations.contains
      (candidates.map (operationNamespace ++ ·)) with
  | none =>
      simp [Service.visit, perform, OperationBook.start_of_not_fresh now spec hfresh] at h
  | some fresh =>
      obtain ⟨name, rest⟩ := fresh
      have hstart := OperationBook.start_of_fresh now spec hfresh
      simp only [Service.visit, perform, hstart, Except.ok.injEq, Answer.operation.injEq] at h ⊢
      subst h
      exact ⟨rfl, OperationBook.Has.insert ((Operation.OnPlan.ofSpec spec now).evaluate now)⟩

end Rehearsal
