import Rehearsal.Error
import Rehearsal.Time.Instant

/-!
# Long-running operations

An operation is due at an instant fixed when it starts.  Nobody watches the clock for it: whoever
looks at the operation first at or after that instant records how it ended
(`Operation.evaluate`), unless a cancellation has been recorded before.  A recorded outcome stays.
-/

namespace Rehearsal

open Time (Instant Span)

/-- How an operation ended. -/
inductive Outcome where
  | succeeded (content : String)
  | failed (status : Status)
  deriving DecidableEq, Repr

/-- What a look at an operation shows. -/
inductive OperationState where
  | pending (remaining : Span)
  | done (outcome : Outcome)
  deriving DecidableEq, Repr

/-- An operation as seen at one moment. -/
structure Snapshot where
  name : String
  state : OperationState
  deriving DecidableEq, Repr

namespace Snapshot

def isDone (snapshot : Snapshot) : Bool :=
  match snapshot.state with
  | .pending _ => false
  | .done _ => true

/-- The time until a pending operation is due. -/
def remaining? (snapshot : Snapshot) : Option Span :=
  match snapshot.state with
  | .pending remaining => some remaining
  | .done _ => none

end Snapshot

/-- What a caller wants an operation to do. -/
structure OperationSpec where
  /-- When it completes; at once if absent. -/
  completion : Option Instant := none
  error : Option Status := none
  success : Option String := none
  deriving DecidableEq, Repr

/-- How an operation ends that is left alone: with the failure asked for, or else with the content
asked for, or else with empty content. -/
def OperationSpec.outcome (spec : OperationSpec) : Outcome :=
  match Status.failure? spec.error with
  | some status => .failed status
  | none => .succeeded (spec.success.getD "")

/-- How a cancelled operation ends. -/
def Outcome.cancelled : Outcome := .failed (.ofCode .cancelled "operation cancelled")

/-- An operation the service keeps. -/
structure Operation where
  due : Instant
  /-- How it ends when it is due. -/
  planned : Outcome
  /-- How it ended, once that is recorded. -/
  recorded : Option Outcome := none
  deriving DecidableEq, Repr

namespace Operation

/-- A new operation, started at `now`. -/
def ofSpec (spec : OperationSpec) (now : Instant) : Operation where
  due := spec.completion.getD now
  planned := spec.outcome

/-- A look at the operation at `now`: what it shows, and the operation afterwards, with its
outcome recorded if it was due. -/
def evaluate (op : Operation) (now : Instant) : OperationState × Operation :=
  match op.recorded with
  | some outcome => (.done outcome, op)
  | none =>
      if op.due ≤ now then (.done op.planned, { op with recorded := some op.planned })
      else (.pending (op.due.since now), op)

/-- A cancellation at `now`: an operation that is still pending ends as cancelled, one that is not
keeps its outcome. -/
def cancel (op : Operation) (now : Instant) : OperationState × Operation :=
  match op.evaluate now with
  | (.pending _, seen) => (.done .cancelled, { seen with recorded := some .cancelled })
  | done => done

/-! ## What a look and a cancellation do -/

section

variable {op : Operation} {now : Instant} {outcome : Outcome}

theorem evaluate_of_recorded (h : op.recorded = some outcome) :
    op.evaluate now = (.done outcome, op) := by
  simp [evaluate, h]

theorem evaluate_of_due (h : op.recorded = none) (hdue : op.due ≤ now) :
    op.evaluate now = (.done op.planned, { op with recorded := some op.planned }) := by
  simp [evaluate, h, hdue]

theorem evaluate_of_not_due (h : op.recorded = none) (hdue : ¬ op.due ≤ now) :
    op.evaluate now = (.pending (op.due.since now), op) := by
  simp [evaluate, h, hdue]

/-- A look that shows how an operation ended has it recorded. -/
theorem recorded_evaluate (h : (op.evaluate now).1 = .done outcome) :
    (op.evaluate now).2.recorded = some outcome := by
  cases hr : op.recorded with
  | some recorded =>
      rw [evaluate_of_recorded hr] at h ⊢
      cases h
      exact hr
  | none =>
      by_cases hdue : op.due ≤ now
      · rw [evaluate_of_due hr hdue] at h ⊢
        cases h
        rfl
      · rw [evaluate_of_not_due hr hdue] at h
        cases h

theorem cancel_of_recorded (h : op.recorded = some outcome) :
    op.cancel now = (.done outcome, op) := by
  simp [cancel, evaluate_of_recorded h]

theorem cancel_of_due (h : op.recorded = none) (hdue : op.due ≤ now) :
    op.cancel now = (.done op.planned, { op with recorded := some op.planned }) := by
  simp [cancel, evaluate_of_due h hdue]

theorem cancel_of_not_due (h : op.recorded = none) (hdue : ¬ op.due ≤ now) :
    op.cancel now = (.done .cancelled, { op with recorded := some .cancelled }) := by
  simp [cancel, evaluate_of_not_due h hdue]

end

end Operation

end Rehearsal
