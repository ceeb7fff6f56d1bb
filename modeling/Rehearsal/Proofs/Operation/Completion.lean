import Rehearsal.Operation.History

/-!
# Lazy completion

Nothing happens to an operation when it becomes due: its outcome is recorded by whoever looks at it
first.  Over a steady clock nobody can tell.  An operation follows a life from some reading on
(`Operation.Follows`) if they have the same plan and the outcome recorded, if any, is what the life
shows at every later reading.  Each call about operations keeps this of all operations of a book
(`OperationBook.Follows`), so every answer of a run is the one that its history tells
(`Service.answer_eq_of_tell?`), and looks that are left out are missed by nobody
(`Service.answers_keep`).
-/

namespace Rehearsal

open Time (Instant)
open Paging (Token.parse)

/-! ## One operation -/

namespace Life

theorem stateAt_of_cancelled {life : Life} (h : life.cancelled = true) (t : Instant) :
    life.stateAt t = .done .cancelled := by
  simp [stateAt, h]

theorem stateAt_of_due_le {life : Life} (hc : life.cancelled = false) {t : Instant}
    (h : life.due ≤ t) : life.stateAt t = .done life.planned := by
  simp [stateAt, hc, h]

theorem stateAt_of_not_due_le {life : Life} (hc : life.cancelled = false) {t : Instant}
    (h : ¬ life.due ≤ t) : life.stateAt t = .pending (life.due.since t) := by
  simp [stateAt, hc, h]

/-- A cancellation that comes when the operation is done changes nothing. -/
theorem cancelAt_of_done {life : Life} {t : Instant} {outcome : Outcome}
    (h : life.stateAt t = .done outcome) : life.cancelAt t = life := by
  obtain ⟨due, planned, cancelled⟩ := life
  cases cancelled with
  | true => simp [cancelAt]
  | false =>
      by_cases hle : due ≤ t
      · have hlt : ¬ t < due := fun hlt => Instant.not_le.2 hlt hle
        simp [cancelAt, hlt]
      · rw [stateAt_of_not_due_le rfl hle] at h
        cases h

end Life

namespace Operation

/-- From the reading `since` on, the operation as it is kept shows what its life says. -/
structure Follows (op : Operation) (life : Life) (since : Instant) : Prop where
  due : op.due = life.due
  planned : op.planned = life.planned
  unrecorded : op.recorded = none → life.cancelled = false
  recorded : ∀ outcome, op.recorded = some outcome →
    ∀ t, since ≤ t → life.stateAt t = .done outcome

theorem follows_ofSpec (spec : OperationSpec) (now : Instant) :
    (ofSpec spec now).Follows (.begin now spec) now where
  due := rfl
  planned := rfl
  unrecorded _ := rfl
  recorded _ h := by cases h

namespace Follows

variable {op : Operation} {life : Life} {since now : Instant}

theorem mono (h : op.Follows life since) (hle : since ≤ now) : op.Follows life now where
  due := h.due
  planned := h.planned
  unrecorded := h.unrecorded
  recorded outcome hr t ht := h.recorded outcome hr t (Instant.le_trans hle ht)

/-- A look shows what the life says, and what it records is what the life says from then on. -/
theorem evaluate (h : op.Follows life since) (hle : since ≤ now) :
    (op.evaluate now).1 = life.stateAt now ∧ (op.evaluate now).2.Follows life now := by
  cases hr : op.recorded with
  | some outcome =>
      rw [evaluate_of_recorded hr]
      exact ⟨(h.recorded outcome hr now hle).symm, h.mono hle⟩
  | none =>
      have hc := h.unrecorded hr
      by_cases hdue : op.due ≤ now
      · have hdue' : life.due ≤ now := h.due ▸ hdue
        rw [evaluate_of_due hr hdue]
        refine ⟨by rw [Life.stateAt_of_due_le hc hdue', h.planned], h.due, h.planned, ?_, ?_⟩
        · rintro ⟨⟩
        · rintro outcome ⟨⟩ t ht
          rw [Life.stateAt_of_due_le hc (Instant.le_trans hdue' ht), h.planned]
      · rw [evaluate_of_not_due hr hdue]
        refine ⟨?_, h.mono hle⟩
        rw [Life.stateAt_of_not_due_le hc (h.due ▸ hdue), h.due]

/-- A cancellation shows what the life says once the cancellation is part of it. -/
theorem cancel (h : op.Follows life since) (hle : since ≤ now) :
    (op.cancel now).1 = (life.cancelAt now).stateAt now ∧
      (op.cancel now).2.Follows (life.cancelAt now) now := by
  cases hr : op.recorded with
  | some outcome =>
      have hdone := h.recorded outcome hr now hle
      rw [cancel_of_recorded hr, Life.cancelAt_of_done hdone]
      exact ⟨hdone.symm, h.mono hle⟩
  | none =>
      have hc := h.unrecorded hr
      by_cases hdue : op.due ≤ now
      · have hdone := Life.stateAt_of_due_le hc (h.due ▸ hdue)
        have hlook := h.evaluate hle
        rw [evaluate_of_due hr hdue] at hlook
        rw [cancel_of_due hr hdue, Life.cancelAt_of_done hdone]
        exact hlook
      · have hcancelled : (life.cancelAt now).cancelled = true := by
          simp [Life.cancelAt, Instant.not_le.1 (h.due ▸ hdue)]
        rw [cancel_of_not_due hr hdue]
        refine ⟨(Life.stateAt_of_cancelled hcancelled now).symm, h.due, h.planned, ?_, ?_⟩
        · rintro ⟨⟩
        · rintro outcome ⟨⟩ t -
          exact Life.stateAt_of_cancelled hcancelled t

end Follows

end Operation

/-! ## Histories -/

namespace History

variable {history : History}

theorem isSome_get?_names (history : History) (name : String) :
    (history.names.get? name).isSome = (history.life? name).isSome := by
  induction history with
  | nil => rfl
  | cons entry earlier ih =>
      obtain ⟨now, deed⟩ := entry
      cases deed with
      | started started spec =>
          by_cases h : name = started
          · simp [names, life?, h]
          · simp [names, life?, Table.get?_insert, h, Ne.symm h, ih]
      | cancelled cancelled =>
          by_cases h : cancelled = name <;> simp [names, life?, h, ih]
      | deleted deleted =>
          by_cases h : name = deleted
          · simp [names, life?, Table.get?_erase, h]
          · simp [names, life?, Table.get?_erase, h, Ne.symm h, ih]

theorem isSome_life?_of_mem_names {name : String} (h : name ∈ history.names.names) :
    (history.life? name).isSome := by
  rw [← isSome_get?_names]
  exact Table.mem_names.1 h

/-- A visit that only looks leaves no trace. -/
theorem add_of_isLook (history : History) {visit : Visit} (h : visit.call.isLook) :
    history.add visit = history := by
  obtain ⟨now, call, candidates, later⟩ := visit
  cases call with
  | get name => rfl
  | list pageSize pageToken => rfl
  | _ => cases h

end History

/-! ## Books of operations -/

namespace OperationBook

/-- From the reading `since` on, the operations kept show what the history says. -/
def Follows (book : OperationBook) (history : History) (since : Instant) : Prop :=
  ∀ name, (book.operations.get? name = none ∧ history.life? name = none) ∨
    ∃ op life, book.operations.get? name = some op ∧ history.life? name = some life ∧
      op.Follows life since

theorem follows_empty (since : Instant) : Follows {} [] since := fun _ => .inl ⟨rfl, rfl⟩

namespace Follows

variable {book : OperationBook} {history : History} {since now : Instant}

theorem mono (h : book.Follows history since) (hle : since ≤ now) : book.Follows history now := by
  intro name
  rcases h name with hnone | ⟨op, life, hop, hlife, hfollows⟩
  · exact .inl hnone
  · exact .inr ⟨op, life, hop, hlife, hfollows.mono hle⟩

theorem isSome_eq (h : book.Follows history since) (name : String) :
    (book.operations.get? name).isSome = (history.life? name).isSome := by
  rcases h name with ⟨hop, hlife⟩ | ⟨op, life, hop, hlife, -⟩
  · rw [hop, hlife]
    rfl
  · rw [hop, hlife]
    rfl

theorem names_eq (h : book.Follows history since) :
    book.operations.names = history.names.names := by
  refine Table.names_eq fun name => ?_
  rw [h.isSome_eq, History.isSome_get?_names]

/-- Entering an operation that follows a life, under a name that gets this life. -/
theorem insert (h : book.Follows history since) (hle : since ≤ now) {later : History}
    {name : String} {op : Operation} {life : Life} (hself : later.life? name = some life)
    (hother : ∀ other, other ≠ name → later.life? other = history.life? other)
    (hop : op.Follows life now) : Follows ⟨book.operations.insert name op⟩ later now := by
  intro other
  by_cases ho : other = name
  · subst ho
    exact .inr ⟨op, life, Table.get?_insert_self _ _ _, hself, hop⟩
  · rw [hother other ho, Table.get?_insert_of_ne _ _ ho]
    exact h.mono hle other

/-- An act that keeps the operation of a name in step with a change of its life. -/
theorem update {act : Operation → OperationState × Operation} {later : History} {name : String}
    (h : book.Follows history since) (hle : since ≤ now) (change : Life → Life)
    (hself : later.life? name = (history.life? name).map change)
    (hother : ∀ other, other ≠ name → later.life? other = history.life? other)
    (hact : ∀ op life, op.Follows life since →
      (act op).1 = (change life).stateAt now ∧ (act op).2.Follows (change life) now) :
    (book.update name act).1 = later.see now name ∧ (book.update name act).2.Follows later now := by
  unfold History.see
  rw [hself]
  rcases h name with ⟨hop, hlife⟩ | ⟨op, life, hop, hlife, hfollows⟩
  · rw [update_of_none act hop, hlife]
    refine ⟨rfl, fun other => ?_⟩
    by_cases ho : other = name
    · subst ho
      exact .inl ⟨hop, by rw [hself, hlife]; rfl⟩
    · rw [hother other ho]
      exact h.mono hle other
  · obtain ⟨hstate, hlater⟩ := hact op life hfollows
    rw [hlife] at hself ⊢
    rw [update_of_some act hop]
    exact ⟨by rw [hstate]; rfl, h.insert hle hself hother hlater⟩

theorem get (h : book.Follows history since) (hle : since ≤ now) (name : String) :
    (book.get now name).1 = history.see now name ∧ (book.get now name).2.Follows history now :=
  h.update hle id (by simp) (fun _ _ => rfl) fun _ _ hop => hop.evaluate hle

theorem cancel (h : book.Follows history since) (hle : since ≤ now) (name : String) :
    (book.cancel now name).1 = History.see ((now, .cancelled name) :: history) now name ∧
      (book.cancel now name).2.Follows ((now, .cancelled name) :: history) now := by
  refine h.update hle (·.cancelAt now) (by simp [History.life?]) (fun other ho => ?_)
    fun _ _ hop => hop.cancel hle
  simp [History.life?, Ne.symm ho]

theorem delete (h : book.Follows history since) (now : Instant) (name : String) :
    (book.delete name).1 = (match history.life? name with
        | some _ => .ok ()
        | none => .error (.operationNotFound name)) ∧
      (book.delete name).2.Follows ((now, .deleted name) :: history) since := by
  rcases h name with ⟨hop, hlife⟩ | ⟨op, life, hop, hlife, -⟩
  · rw [delete_of_none hop, hlife]
    refine ⟨rfl, fun other => ?_⟩
    by_cases ho : other = name
    · subst ho
      exact .inl ⟨hop, by simp [History.life?]⟩
    · simp only [Ne.symm ho, History.life?, if_false]
      exact h other
  · rw [delete_of_some hop, hlife]
    refine ⟨rfl, fun other => ?_⟩
    rw [Table.get?_erase]
    by_cases ho : other = name
    · exact .inl ⟨if_pos ho, by simp [History.life?, ho]⟩
    · simp only [ho, Ne.symm ho, History.life?, if_false]
      exact h other

theorem start (h : book.Follows history since) (hle : since ≤ now) (spec : OperationSpec)
    (candidates : List String) :
    (history.nextName? candidates = none ∧ book.start now spec candidates = none) ∨
    ∃ name snapshot later, history.nextName? candidates = some name ∧
      book.start now spec candidates = some (snapshot, later) ∧
      History.see ((now, .started name spec) :: history) now name = .ok snapshot ∧
      later.Follows ((now, .started name spec) :: history) now := by
  have hinUse : (fun name => (history.life? name).isSome) = book.operations.contains :=
    funext fun name => (h.isSome_eq name).symm
  unfold History.nextName?
  rw [hinUse]
  cases hfresh : Ident.firstFresh? book.operations.contains
      (candidates.map (operationNamespace ++ ·)) with
  | none => exact .inl ⟨rfl, start_of_not_fresh now spec hfresh⟩
  | some fresh =>
      obtain ⟨name, rest⟩ := fresh
      obtain ⟨hstate, hlater⟩ := (Operation.follows_ofSpec spec now).evaluate (Instant.le_refl now)
      have hself : History.life? name ((now, .started name spec) :: history) =
          some (.begin now spec) := by
        simp [History.life?]
      refine .inr ⟨name, _, _, rfl, start_of_fresh now spec hfresh, ?_, ?_⟩
      · rw [History.see, hself, hstate]
      · refine h.insert hle hself (fun other ho => ?_) hlater
        simp [History.life?, Ne.symm ho]

/-- Operations read one after another show what the history says at the reading of each. -/
theorem look (h : book.Follows history since) (names : List String) (later : List Instant)
    (hle : since ≤ now) (hsteady : (now :: later).Pairwise (· ≤ ·))
    (hlive : ∀ name ∈ names, (history.life? name).isSome) :
    (OperationBook.look now later names book).1 =
        (names.mapIdx fun i name => history.see (Visit.readingAt now later i) name).filterMap
          Except.toOption ∧
      ∃ last ∈ now :: later, (OperationBook.look now later names book).2.Follows history last := by
  induction names generalizing book since now later with
  | nil => exact ⟨rfl, now, List.mem_cons_self, h.mono hle⟩
  | cons name names ih =>
      obtain ⟨hresult, hfollows⟩ := h.get hle name
      obtain ⟨life, hlife⟩ := Option.isSome_iff_exists.1 (hlive name List.mem_cons_self)
      have hsee : history.see now name = .ok ⟨name, life.stateAt now⟩ := by
        simp [History.see, hlife]
      have hnext : now ≤ later.headD now := by
        cases later with
        | nil => exact Instant.le_refl now
        | cons t later => exact List.rel_of_pairwise_cons hsteady List.mem_cons_self
      have hlater : (later.headD now :: later.tail).Pairwise (· ≤ ·) := by
        cases later with
        | nil => simp
        | cons t later => exact hsteady.tail
      obtain ⟨hsnapshots, last, hmem, hlast⟩ := ih hfollows later.tail hnext hlater
        fun other hother => hlive other (List.mem_cons_of_mem name hother)
      rw [look_cons_of_ok (Prod.ext (hresult.trans hsee) rfl)]
      refine ⟨?_, last, ?_, hlast⟩
      · rw [List.mapIdx_cons, Visit.readingAt, hsee, hsnapshots]
        rfl
      · cases later with
        | nil => simpa using hmem
        | cons t later => exact List.mem_cons_of_mem now hmem

theorem list (h : book.Follows history since) (visit : Visit) (pageSize : Int32)
    (pageToken : String) (hle : since ≤ visit.now)
    (hsteady : (visit.now :: visit.later).Pairwise (· ≤ ·)) :
    (book.list visit.now pageSize pageToken visit.later).1 =
        history.page visit pageSize pageToken ∧
      ∃ last ∈ visit.now :: visit.later,
        (book.list visit.now pageSize pageToken visit.later).2.Follows history last := by
  cases hparse : Token.parse pageToken history.names.names.length with
  | error error =>
      rw [list_of_error _ _ _ (h.names_eq ▸ hparse), History.page_of_error _ _ hparse]
      exact ⟨rfl, visit.now, List.mem_cons_self, h.mono hle⟩
  | ok start =>
      obtain ⟨hsnapshots, hlast⟩ := h.look (window history.names.names start pageSize).1
        visit.later hle hsteady fun name hname =>
          History.isSome_life?_of_mem_names (mem_of_mem_window hname)
      rw [list_of_ok _ _ _ (h.names_eq ▸ hparse), History.page_of_ok _ _ hparse, h.names_eq,
        hsnapshots]
      exact ⟨rfl, hlast⟩

end Follows

end OperationBook

/-! ## Runs -/

/-- The last of some readings that come after `since` is not before any of them. -/
theorem le_getLastD {since : Instant} {readings : List Instant}
    (h : (since :: readings).Pairwise (· ≤ ·)) :
    ∀ t ∈ since :: readings, t ≤ readings.getLastD since := by
  induction readings generalizing since with
  | nil => simp [Instant.le_refl]
  | cons first rest ih =>
      rw [List.getLastD_cons]
      intro t ht
      rcases List.mem_cons.1 ht with rfl | ht
      · exact Instant.le_trans (List.rel_of_pairwise_cons h List.mem_cons_self)
          (ih h.tail first List.mem_cons_self)
      · exact ih h.tail t ht

/-- Readings that go up can be cut in two, the second part starting at the last of the first. -/
theorem pairwise_getLastD {since : Instant} {first rest : List Instant}
    (h : (since :: (first ++ rest)).Pairwise (· ≤ ·)) :
    (since :: first).Pairwise (· ≤ ·) ∧ (first.getLastD since :: rest).Pairwise (· ≤ ·) := by
  rw [← List.cons_append, List.pairwise_append] at h
  refine ⟨h.1, List.pairwise_cons.2 ⟨fun t ht => ?_, h.2.1⟩⟩
  exact h.2.2 _ List.getLastD_mem_cons t ht

/-- Before readings that go up there is room for one more. -/
theorem exists_since {readings : List Instant} (h : readings.Pairwise (· ≤ ·)) :
    ∃ since : Instant, (since :: readings).Pairwise (· ≤ ·) := by
  cases readings with
  | nil => exact ⟨.ofSeconds 0 (by decide), by simp⟩
  | cons first rest =>
      refine ⟨first, List.pairwise_cons.2 ⟨fun t ht => ?_, h⟩⟩
      rcases List.mem_cons.1 ht with rfl | ht
      · exact Instant.le_refl t
      · exact List.rel_of_pairwise_cons h ht

namespace Service

variable {service : Service} {history : History} {since : Instant}

/-- A visit is answered as the history tells, and the operations follow the history with the visit
in it from its last reading on. -/
theorem visit_follows (h : service.operations.Follows history since) (visit : Visit)
    (hsteady : (since :: visit.readings).Pairwise (· ≤ ·)) :
    (∀ answer, history.tell? visit = some answer → (service.visit visit).1 = answer) ∧
      (service.visit visit).2.operations.Follows (history.add visit)
        (visit.readings.getLastD since) := by
  obtain ⟨now, call, candidates, later⟩ := visit
  cases call with
  | setupRetry responses =>
      refine ⟨fun answer hanswer => by simp [History.tell?] at hanswer, ?_⟩
      unfold Service.visit Service.perform
      dsimp only
      split <;> exact h
  | retry id => exact ⟨fun answer hanswer => by simp [History.tell?] at hanswer, h⟩
  | paginate request => exact ⟨fun answer hanswer => by simp [History.tell?] at hanswer, h⟩
  | start spec =>
      have hle : since ≤ now := List.rel_of_pairwise_cons hsteady List.mem_cons_self
      rcases h.start hle spec candidates with ⟨hname, hstart⟩ |
        ⟨name, snapshot, later, hname, hstart, hsee, hfollows⟩
      · simp only [History.tell?, History.add, History.deed?, hname, Service.visit,
          Service.perform, hstart, Option.map_none, Option.some.injEq]
        exact ⟨fun _ hanswer => hanswer, h.mono hle⟩
      · simp only [History.tell?, History.add, History.deed?, hname, Service.visit,
          Service.perform, hstart, Option.map_some, Option.some.injEq, hsee]
        exact ⟨fun _ hanswer => hanswer, hfollows⟩
  | get name =>
      have hle : since ≤ now := List.rel_of_pairwise_cons hsteady List.mem_cons_self
      obtain ⟨hanswer, hfollows⟩ := h.get hle name
      refine ⟨?_, hfollows⟩
      rintro answer ⟨⟩
      exact congrArg (Except.map Answer.operation) hanswer
  | cancel name =>
      have hle : since ≤ now := List.rel_of_pairwise_cons hsteady List.mem_cons_self
      obtain ⟨hanswer, hfollows⟩ := h.cancel hle name
      refine ⟨?_, hfollows⟩
      rintro answer ⟨⟩
      exact congrArg (Except.map Answer.operation) hanswer
  | delete name =>
      obtain ⟨hanswer, hfollows⟩ := h.delete now name
      refine ⟨?_, hfollows⟩
      intro answer htell
      simp only [History.tell?] at htell
      simp only [Service.visit, Service.perform, hanswer]
      cases hlife : history.life? name with
      | some life => simpa [hlife, Except.map] using htell
      | none => simpa [hlife, Except.map] using htell
  | list pageSize pageToken =>
      have hle : since ≤ now := List.rel_of_pairwise_cons hsteady List.mem_cons_self
      obtain ⟨hanswer, last, hmem, hfollows⟩ :=
        h.list ⟨now, .list pageSize pageToken, candidates, later⟩ pageSize pageToken hle
          hsteady.tail
      refine ⟨?_, hfollows.mono (le_getLastD hsteady last (List.mem_cons_of_mem since hmem))⟩
      rintro answer ⟨⟩
      exact congrArg (Except.map Answer.operations) hanswer

theorem after_follows (h : service.operations.Follows history since) (first rest : List Visit)
    (hsteady : (since :: (first ++ rest).flatMap Visit.readings).Pairwise (· ≤ ·)) :
    ∃ last, (service.after first).operations.Follows (first.foldl History.add history) last ∧
      (last :: rest.flatMap Visit.readings).Pairwise (· ≤ ·) := by
  induction first generalizing service history since with
  | nil => exact ⟨since, h, hsteady⟩
  | cons visit first ih =>
      obtain ⟨hvisit, hrest⟩ := pairwise_getLastD hsteady
      exact ih (visit_follows h visit hvisit).2 hrest

/-- Every visit of a steady run is answered as the history of the visits before it tells. -/
theorem answer_eq_of_tell? (settings : Settings) {visits : List Visit} (steady : Steady visits)
    {i : Nat} {visit : Visit} (hvisit : visits[i]? = some visit)
    {answer : Except ServiceError Answer}
    (htell : (History.ofRun (visits.take i)).tell? visit = some answer) :
    (Service.answers { settings } visits)[i]? = some answer := by
  obtain ⟨since, hsince⟩ := exists_since steady
  obtain ⟨hi, hget⟩ := List.getElem?_eq_some_iff.1 hvisit
  have hsplit : visits = visits.take i ++ visit :: visits.drop (i + 1) := by
    rw [← hget, ← List.drop_eq_getElem_cons hi, List.take_append_drop]
  rw [hsplit] at hsince
  have hnew : ({ settings } : Service).operations.Follows [] since :=
    OperationBook.follows_empty since
  obtain ⟨last, hfollows, hrest⟩ := after_follows hnew (visits.take i) _ hsince
  rw [getElem?_answers, hvisit, Option.map_some]
  exact congrArg some ((visit_follows hfollows visit (pairwise_getLastD hrest).1).1 answer htell)

/-- Services that differ at most in what they have recorded of operations answer alike. -/
theorem visit_alike {other : Service} (hsettings : other.settings = service.settings)
    (hretries : other.retries = service.retries) (h : service.operations.Follows history since)
    (hother : other.operations.Follows history since) (visit : Visit)
    (hsteady : (since :: visit.readings).Pairwise (· ≤ ·)) :
    (other.visit visit).1 = (service.visit visit).1 := by
  cases htell : history.tell? visit with
  | some answer =>
      rw [(visit_follows h visit hsteady).1 answer htell]
      exact (visit_follows hother visit hsteady).1 answer htell
  | none =>
      obtain ⟨now, call, candidates, later⟩ := visit
      cases call with
      | setupRetry responses =>
          simp only [Service.visit, Service.perform, hretries]
          split <;> rfl
      | retry id => simp only [Service.visit, Service.perform, hretries]
      | paginate request => simp only [Service.visit, Service.perform, hsettings]
      | start spec =>
          simp only [History.tell?] at htell
          split at htell <;> cases htell
      | delete name =>
          simp only [History.tell?] at htell
          split at htell <;> cases htell
      | get name => cases htell
      | cancel name => cases htell
      | list pageSize pageToken => cases htell

theorem retries_visit_congr {other : Service} (hretries : other.retries = service.retries)
    (visit : Visit) : (other.visit visit).2.retries = (service.visit visit).2.retries := by
  rw [retries_visit, retries_visit, hretries]

theorem retries_visit_of_isLook (service : Service) {visit : Visit} (h : visit.call.isLook) :
    (service.visit visit).2.retries = service.retries := by
  obtain ⟨now, call, candidates, later⟩ := visit
  cases call with
  | get name => rfl
  | list pageSize pageToken => rfl
  | _ => cases h

/-- A run that leaves out some looks at operations is answered like the whole run. -/
theorem answers_keep {other : Service} {visits : List Visit} {mask : List Bool}
    (hsettings : other.settings = service.settings) (hretries : other.retries = service.retries)
    (h : service.operations.Follows history since) (hother : other.operations.Follows history since)
    (hsteady : (since :: visits.flatMap Visit.readings).Pairwise (· ≤ ·))
    (hlength : mask.length = visits.length)
    (hlooks : ∀ entry ∈ mask.zip visits, entry.1 = false → entry.2.call.isLook) :
    other.answers (keep mask visits) = keep mask (service.answers visits) := by
  induction visits generalizing service other history since mask with
  | nil =>
      rw [List.eq_nil_of_length_eq_zero hlength]
      rfl
  | cons visit rest ih =>
      obtain ⟨hvisit, hrest⟩ := pairwise_getLastD hsteady
      have hnext := (visit_follows h visit hvisit).2
      cases mask with
      | nil => cases hlength
      | cons kept mask =>
      have hlooks' : ∀ entry ∈ mask.zip rest, entry.1 = false → entry.2.call.isLook :=
        fun entry hentry => hlooks entry (List.mem_cons_of_mem _ hentry)
      have hlength' : mask.length = rest.length := Nat.succ.inj hlength
      cases kept with
      | true =>
          have hnext' := (visit_follows hother visit hvisit).2
          have hsettings' : (other.visit visit).2.settings = (service.visit visit).2.settings := by
            rw [settings_visit, settings_visit, hsettings]
          simp only [keep, answers, visit_alike hsettings hretries h hother visit hvisit]
          have hretries' := retries_visit_congr hretries visit
          rw [ih hsettings' hretries' hnext hnext' hrest hlength' hlooks']
      | false =>
          have hlook : visit.call.isLook := hlooks (false, visit) List.mem_cons_self rfl
          have hretries' : other.retries = (service.visit visit).2.retries := by
            rw [retries_visit_of_isLook service hlook, hretries]
          rw [History.add_of_isLook history hlook] at hnext
          have hother' := hother.mono (le_getLastD hvisit since List.mem_cons_self)
          simp only [keep, answers]
          exact ih (hsettings.trans (settings_visit service visit).symm) hretries' hnext hother'
            hrest hlength' hlooks'

/-- Lazy completion is not to be told from eager completion: every answer of a steady run is the one
that the history of the visits before it tells, and looks that are left out change no answer to
the other visits. -/
theorem lazy_completion (settings : Settings) (visits : List Visit) (steady : Steady visits) :
    (∀ (i : Nat) (visit : Visit) (answer : Except ServiceError Answer),
      visits[i]? = some visit → (History.ofRun (visits.take i)).tell? visit = some answer →
        (Service.answers { settings } visits)[i]? = some answer) ∧
    ∀ mask : List Bool, mask.length = visits.length →
      (∀ entry ∈ mask.zip visits, entry.1 = false → entry.2.call.isLook) →
        Service.answers { settings } (keep mask visits) =
          keep mask (Service.answers { settings } visits) := by
  refine ⟨fun i visit answer hvisit htell => answer_eq_of_tell? settings steady hvisit htell,
    fun mask hlength hlooks => ?_⟩
  obtain ⟨since, hsince⟩ := exists_since steady
  have hnew : ({ settings } : Service).operations.Follows [] since :=
    OperationBook.follows_empty since
  exact answers_keep rfl rfl hnew hnew hsince hlength hlooks

/-- A run in which a cancellation comes when an operation is due and nobody has looked since. -/
def lateCancel : List Visit :=
  [⟨.ofSeconds 0 (by decide),
      .start { completion := some (.ofSeconds 10 (by decide)), success := some "done" }, ["a"], []⟩,
    ⟨.ofSeconds 5 (by decide), .get "operations/a", [], []⟩,
    ⟨.ofSeconds 10 (by decide), .cancel "operations/a", [], []⟩,
    ⟨.ofSeconds 20 (by decide), .list 0 "", [], []⟩]

theorem lazy_completion_lateCancel :
    Steady lateCancel ∧
      (Service.answers {} lateCancel)[3]? =
        some (.ok (.operations ⟨[⟨"operations/a", .done (.succeeded "done")⟩], ""⟩)) ∧
      Service.answers {} (keep [true, false, true, true] lateCancel) =
        keep [true, false, true, true] (Service.answers {} lateCancel) := by
  have steady : Steady lateCancel := by
    unfold Steady
    decide
  refine ⟨steady, ?_, (lazy_completion {} lateCancel steady).2 _ rfl (by decide)⟩
  exact (lazy_completion {} lateCancel steady).1 3 _ _ rfl rfl

end Service

end Rehearsal
