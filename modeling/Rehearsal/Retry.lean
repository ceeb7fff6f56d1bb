import Rehearsal.Error
import Rehearsal.Ident
import Rehearsal.Table

/-!
# Scripted retries

A caller hands in a script, the statuses it wants its later attempts to meet, and gets an
identifier for it.  Each attempt under that identifier claims the next status (`Script.claim`);
when all are claimed, every further attempt fails.
-/

namespace Rehearsal

/-- Statuses to replay and the position of the next one. -/
structure Script where
  responses : List Status
  cursor : Nat := 0
  deriving DecidableEq, Repr

namespace Script

/-- Claims the status at the cursor, if there is one left, and moves the cursor past it. -/
def claim (script : Script) : Option (Status × Script) :=
  script.responses[script.cursor]?.map fun status =>
    (status, { script with cursor := script.cursor + 1 })

end Script

/-- What an attempt that claims `status` meets. -/
def Status.outcome (status : Status) : Except ServiceError Unit :=
  if status.isOk then .ok () else .error (.scripted status)

/-- The scripts of a service, by identifier. -/
structure RetryBook where
  scripts : Table Script := {}
  deriving Inhabited

namespace RetryBook

/-- Binds a script to the first candidate that is not in use.  Without such a candidate nothing
happens. -/
def setup (book : RetryBook) (responses : List Status) (candidates : List String) :
    Option (String × RetryBook) := do
  let (id, _) ← Ident.firstFresh? book.scripts.contains candidates
  return (id, ⟨book.scripts.insert id ⟨responses, 0⟩⟩)

theorem setup_of_fresh {book : RetryBook} {candidates later : List String} {id : String}
    (responses : List Status)
    (h : Ident.firstFresh? book.scripts.contains candidates = some (id, later)) :
    book.setup responses candidates = some (id, ⟨book.scripts.insert id ⟨responses, 0⟩⟩) := by
  simp [setup, h]

theorem setup_of_not_fresh {book : RetryBook} {candidates : List String} (responses : List Status)
    (h : Ident.firstFresh? book.scripts.contains candidates = none) :
    book.setup responses candidates = none := by
  simp [setup, h]

/-- One attempt under an identifier: what it meets, and the book afterwards. -/
def attempt (book : RetryBook) (id : String) : Except ServiceError Unit × RetryBook :=
  match book.scripts.get? id with
  | none => (.error (.retryNotFound id), book)
  | some script =>
      match script.claim with
      | none => (.error (.retryExhausted id script.responses.length), book)
      | some (status, later) => (status.outcome, ⟨book.scripts.insert id later⟩)

theorem attempt_of_none {book : RetryBook} {id : String} (h : book.scripts.get? id = none) :
    book.attempt id = (.error (.retryNotFound id), book) := by
  simp [attempt, h]

theorem attempt_of_claimed {book : RetryBook} {id : String} {script : Script}
    (h : book.scripts.get? id = some script) (hclaim : script.claim = none) :
    book.attempt id = (.error (.retryExhausted id script.responses.length), book) := by
  simp [attempt, h, hclaim]

theorem attempt_of_claim {book : RetryBook} {id : String} {script later : Script} {status : Status}
    (h : book.scripts.get? id = some script) (hclaim : script.claim = some (status, later)) :
    book.attempt id = (status.outcome, ⟨book.scripts.insert id later⟩) := by
  simp [attempt, h, hclaim]

theorem get?_attempt_of_ne (book : RetryBook) {id other : String} (h : other ≠ id) :
    (book.attempt id).2.scripts.get? other = book.scripts.get? other := by
  unfold attempt
  split
  · rfl
  · split
    · rfl
    · exact Table.get?_insert_of_ne _ _ h

/-- An attempt meets what its own script says. -/
theorem attempt_congr {first second : RetryBook} {id : String}
    (h : first.scripts.get? id = second.scripts.get? id) :
    (first.attempt id).1 = (second.attempt id).1 ∧
      (first.attempt id).2.scripts.get? id = (second.attempt id).2.scripts.get? id := by
  cases hscript : second.scripts.get? id with
  | none =>
      rw [attempt_of_none (h.trans hscript), attempt_of_none hscript]
      exact ⟨rfl, h⟩
  | some script =>
      cases hclaim : script.claim with
      | none =>
          rw [attempt_of_claimed (h.trans hscript) hclaim, attempt_of_claimed hscript hclaim]
          exact ⟨rfl, h⟩
      | some claim =>
          rw [attempt_of_claim (h.trans hscript) hclaim, attempt_of_claim hscript hclaim]
          refine ⟨rfl, ?_⟩
          rw [Table.get?_insert_self, Table.get?_insert_self]

def size (book : RetryBook) : Nat := book.scripts.size

def isEmpty (book : RetryBook) : Bool := book.scripts.isEmpty

end RetryBook

end Rehearsal
