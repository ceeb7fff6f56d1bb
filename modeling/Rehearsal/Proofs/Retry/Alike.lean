import Rehearsal.Service

/-!
# Statuses that stand for success are all alike

Whatever its message, a status with the number `0` lets an attempt succeed.  So scripts that differ
only in the messages of such statuses are replayed alike, and services with such scripts answer
every call alike and stay so (`Service.Alike.perform`).
-/

namespace Rehearsal

open Time (Instant)

/-- The status without its message if it stands for success. -/
def Status.plain (status : Status) : Status := if status.isOk then ⟨0, ""⟩ else status

theorem Status.outcome_plain (status : Status) : status.plain.outcome = status.outcome := by
  unfold plain
  split
  · rename_i h
    simp [outcome, isOk, show status.code = 0 by simpa [isOk] using h]
  · rfl

theorem Status.plain_plain (status : Status) : status.plain.plain = status.plain := by
  unfold plain
  split <;> simp_all [isOk]

theorem Status.outcome_congr {first second : Status} (h : first.plain = second.plain) :
    first.outcome = second.outcome := by
  rw [← outcome_plain first, h, outcome_plain]

/-- The script without the messages of the statuses that stand for success. -/
def Script.plain (script : Script) : Script where
  responses := script.responses.map Status.plain
  cursor := script.cursor

theorem Script.claim_plain (script : Script) :
    script.plain.claim = script.claim.map fun (status, later) => (status.plain, later.plain) := by
  simp only [claim, plain, List.getElem?_map, Option.map_map]
  rfl

namespace RetryBook

/-- Both books have scripts under the same identifiers, alike but for the messages of statuses that
stand for success. -/
def Alike (first second : RetryBook) : Prop :=
  ∀ id, (first.scripts.get? id).map Script.plain = (second.scripts.get? id).map Script.plain

namespace Alike

variable {first second : RetryBook}

theorem refl (book : RetryBook) : book.Alike book := fun _ => rfl

theorem insert (h : first.Alike second) (id : String) {script other : Script}
    (hscript : script.plain = other.plain) :
    Alike ⟨first.scripts.insert id script⟩ ⟨second.scripts.insert id other⟩ := by
  intro name
  rw [Table.get?_insert, Table.get?_insert]
  split
  · exact congrArg some hscript
  · exact h name

theorem contains_eq (h : first.Alike second) : first.scripts.contains = second.scripts.contains := by
  funext id
  have hsome := congrArg Option.isSome (h id)
  rw [Option.isSome_map, Option.isSome_map] at hsome
  exact hsome

/-- A setup gives both scripts the same identifier. -/
theorem setup (h : first.Alike second) {responses others : List Status}
    (hresponses : responses.map Status.plain = others.map Status.plain)
    (candidates : List String) :
    (first.setup responses candidates = none ∧ second.setup others candidates = none) ∨
    ∃ id later other, first.setup responses candidates = some (id, later) ∧
      second.setup others candidates = some (id, other) ∧ later.Alike other := by
  cases hfresh : Ident.firstFresh? first.scripts.contains candidates with
  | none =>
      have hother := h.contains_eq ▸ hfresh
      exact .inl ⟨setup_of_not_fresh responses hfresh, setup_of_not_fresh others hother⟩
  | some fresh =>
      obtain ⟨id, rest⟩ := fresh
      have hother := h.contains_eq ▸ hfresh
      refine .inr ⟨id, _, _, setup_of_fresh responses hfresh, setup_of_fresh others hother, ?_⟩
      apply h.insert
      simp [Script.plain, hresponses]

/-- An attempt meets the same in both. -/
theorem attempt (h : first.Alike second) (id : String) :
    (first.attempt id).1 = (second.attempt id).1 ∧
      (first.attempt id).2.Alike (second.attempt id).2 := by
  have hid := h id
  cases hfirst : first.scripts.get? id with
  | none =>
      rw [hfirst] at hid
      have hsecond := Option.map_eq_none_iff.1 hid.symm
      rw [attempt_of_none hfirst, attempt_of_none hsecond]
      exact ⟨rfl, h⟩
  | some script =>
      rw [hfirst] at hid
      obtain ⟨other, hsecond, hplain⟩ := Option.map_eq_some_iff.1 hid.symm
      have hclaims := congrArg Script.claim hplain
      rw [Script.claim_plain, Script.claim_plain] at hclaims
      cases hclaim : script.claim with
      | none =>
          rw [hclaim] at hclaims
          have hother := Option.map_eq_none_iff.1 hclaims
          have hlength : other.responses.length = script.responses.length := by
            simpa [Script.plain] using congrArg (fun s : Script => s.responses.length) hplain
          rw [attempt_of_claimed hfirst hclaim, attempt_of_claimed hsecond hother, hlength]
          exact ⟨rfl, h⟩
      | some claim =>
          obtain ⟨status, later⟩ := claim
          rw [hclaim] at hclaims
          obtain ⟨⟨otherStatus, otherLater⟩, hother, heq⟩ := Option.map_eq_some_iff.1 hclaims
          obtain ⟨hstatus, hlater⟩ := Prod.mk.inj heq
          rw [attempt_of_claim hfirst hclaim, attempt_of_claim hsecond hother]
          exact ⟨(Status.outcome_congr hstatus).symm, h.insert id hlater.symm⟩

end Alike

end RetryBook

namespace Service

/-- Both services are the same but for the messages of statuses that stand for success. -/
structure Alike (first second : Service) : Prop where
  settings : first.settings = second.settings
  retries : first.retries.Alike second.retries
  operations : first.operations = second.operations

namespace Alike

variable {first second : Service}

theorem refl (service : Service) : service.Alike service := ⟨rfl, .refl _, rfl⟩

/-- Setting up scripts that are alike gets the same answer, and leaves the services alike. -/
theorem setupRetry (h : first.Alike second) {responses others : List Status}
    (hresponses : responses.map Status.plain = others.map Status.plain) (now : Instant)
    (candidates : List String) :
    (first.perform now candidates (.setupRetry responses)).1 =
        (second.perform now candidates (.setupRetry others)).1 ∧
      (first.perform now candidates (.setupRetry responses)).2.Alike
        (second.perform now candidates (.setupRetry others)).2 := by
  rcases h.retries.setup hresponses candidates with ⟨hfirst, hsecond⟩ |
    ⟨id, later, other, hfirst, hsecond, halike⟩
  · simp only [perform, hfirst, hsecond]
    exact ⟨trivial, h⟩
  · simp only [perform, hfirst, hsecond]
    exact ⟨trivial, h.settings, halike, h.operations⟩

/-- Every call gets the same answer, and leaves the services alike. -/
theorem perform (h : first.Alike second) (now : Instant) (candidates : List String) (call : Call) :
    (first.perform now candidates call).1 = (second.perform now candidates call).1 ∧
      (first.perform now candidates call).2.Alike (second.perform now candidates call).2 := by
  cases call with
  | setupRetry responses => exact h.setupRetry rfl now candidates
  | retry id =>
      obtain ⟨hanswer, halike⟩ := h.retries.attempt id
      exact ⟨congrArg (Except.map fun _ => Answer.done) hanswer, h.settings, halike, h.operations⟩
  | start spec =>
      simp only [Service.perform, ← h.operations]
      split
      · exact ⟨rfl, h.settings, h.retries, rfl⟩
      · exact ⟨rfl, h⟩
  | get | list | cancel | delete =>
      simp only [Service.perform, ← h.operations]
      exact ⟨trivial, h.settings, h.retries, rfl⟩
  | paginate request =>
      simp only [Service.perform, h.settings]
      exact ⟨trivial, h⟩

end Alike

end Service

end Rehearsal
