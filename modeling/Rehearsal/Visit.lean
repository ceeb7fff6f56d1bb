import Rehearsal.Service

/-!
# Runs of a service

A visit is one call together with what it meets from outside: the readings of the clock and the
candidates for a new identifier.  A run makes visits one after another, and a state is reachable if
some run leads to it from a new service (`Service.Reachable`).  The clock of a run is steady if it
never goes back from one reading to the next (`Steady`).
-/

namespace Rehearsal

open Time (Instant)

/-- A call with what it meets. -/
structure Visit where
  /-- The first reading of the clock. -/
  now : Instant
  call : Call
  candidates : List String := []
  /-- The further readings, which only a list takes: one for each operation after the first. -/
  later : List Instant := []
  deriving DecidableEq, Repr

namespace Visit

/-- The reading at which the operation at a position of a page is read.  The clock stands still
after the last. -/
def readingAt : (now : Instant) → (later : List Instant) → Nat → Instant
  | now, _, 0 => now
  | now, later, i + 1 => readingAt (later.headD now) later.tail i

/-- All readings of the clock that are taken. -/
def readings (visit : Visit) : List Instant :=
  match visit.call with
  | .start _ | .get _ | .cancel _ => [visit.now]
  | .list .. => visit.now :: visit.later
  | _ => []

end Visit

/-- The clock never goes back during a run. -/
def Steady (visits : List Visit) : Prop := (visits.flatMap Visit.readings).Pairwise (· ≤ ·)

/-- The items at the positions that a mask keeps. -/
def keep {α : Type} : (mask : List Bool) → List α → List α
  | true :: mask, item :: items => item :: keep mask items
  | false :: mask, _ :: items => keep mask items
  | _, _ => []

namespace Service

def visit (service : Service) (visit : Visit) : Except ServiceError Answer × Service :=
  service.perform visit.now visit.candidates visit.call visit.later

@[simp] theorem settings_visit (service : Service) (visit : Visit) :
    (service.visit visit).2.settings = service.settings := by
  unfold Service.visit perform
  cases visit.call <;> dsimp only <;> split <;> rfl

/-- Only the calls about scripts touch the scripts. -/
theorem retries_visit (service : Service) (visit : Visit) :
    (service.visit visit).2.retries =
      match visit.call with
      | .setupRetry responses =>
          match service.retries.setup responses visit.candidates with
          | some (_, retries) => retries
          | none => service.retries
      | .retry id => (service.retries.attempt id).2
      | _ => service.retries := by
  unfold Service.visit perform
  cases visit.call <;> dsimp only <;> split <;> simp_all

def after : Service → List Visit → Service
  | service, [] => service
  | service, visit :: rest => after (service.visit visit).2 rest

def answers : Service → List Visit → List (Except ServiceError Answer)
  | _, [] => []
  | service, visit :: rest => (service.visit visit).1 :: answers (service.visit visit).2 rest

/-- The visits of a run, each with its answer. -/
def transcript (service : Service) (visits : List Visit) :
    List (Visit × Except ServiceError Answer) := visits.zip (service.answers visits)

/-- The states that a new service can come to. -/
def Reachable (service : Service) : Prop :=
  ∃ (settings : Settings) (visits : List Visit), service = after { settings } visits

@[simp] theorem transcript_cons (service : Service) (visit : Visit) (rest : List Visit) :
    service.transcript (visit :: rest) =
      (visit, (service.visit visit).1) :: (service.visit visit).2.transcript rest := rfl

theorem take_transcript (service : Service) (visits : List Visit) (i : Nat) :
    (service.transcript visits).take i = service.transcript (visits.take i) := by
  induction visits generalizing service i with
  | nil => simp [transcript]
  | cons visit rest ih =>
      cases i with
      | zero => rfl
      | succ i => simp [ih]

theorem after_append (service : Service) (first second : List Visit) :
    service.after (first ++ second) = (service.after first).after second := by
  induction first generalizing service with
  | nil => rfl
  | cons visit rest ih => exact ih _

theorem getElem?_answers (service : Service) (visits : List Visit) (i : Nat) :
    (service.answers visits)[i]? =
      visits[i]?.map fun visit => ((service.after (visits.take i)).visit visit).1 := by
  induction visits generalizing service i with
  | nil => simp [answers]
  | cons visit rest ih =>
      cases i with
      | zero => rfl
      | succ i => simp [answers, after, ih]

end Service

end Rehearsal
