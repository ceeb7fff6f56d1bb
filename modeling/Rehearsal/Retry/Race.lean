import Rehearsal.Retry

/-!
# Attempts that race

Many callers attempt under one identifier at the same time.  Claiming a position takes two steps:
a caller reads the cursor, and then exchanges it for the next one provided that it still holds what
was read.  The exchange may be refused; the caller then goes on with the cursor as it is now.  A
caller who reads that no position is left gives up.
-/

namespace Rehearsal

/-- Where a caller stands. -/
inductive Attempt where
  | idle
  /-- The caller has read the cursor. -/
  | holding (seen : Nat)
  deriving DecidableEq, Repr

/-- A script with the callers that race for its positions. -/
structure Race where
  script : Script
  callers : Nat → Attempt := fun _ => .idle
  /-- What the completed attempts came to, the latest first: the position claimed, if one was. -/
  log : List (Option Nat) := []

namespace Race

/-- A race that nobody has entered. -/
def start (responses : List Status) : Race where
  script := ⟨responses, 0⟩

/-- Puts a caller into a new state. -/
def setCaller (race : Race) (caller : Nat) (attempt : Attempt) : Race :=
  { race with callers := fun other => if other = caller then attempt else race.callers other }

/-- One step of one caller. -/
inductive Step : Race → Race → Prop where
  /-- A new attempt reads the cursor. -/
  | read (race : Race) (caller : Nat) (h : race.callers caller = .idle) :
      Step race (race.setCaller caller (.holding race.script.cursor))
  /-- The cursor still holds what was read and is moved on. -/
  | claim (race : Race) (caller seen : Nat) (h : race.callers caller = .holding seen)
      (left : seen < race.script.responses.length) (same : race.script.cursor = seen) :
      Step race
        { race.setCaller caller .idle with
          script := { race.script with cursor := seen + 1 }
          log := some seen :: race.log }
  /-- The exchange is refused, with or without reason. -/
  | refused (race : Race) (caller seen : Nat) (h : race.callers caller = .holding seen)
      (left : seen < race.script.responses.length) :
      Step race (race.setCaller caller (.holding race.script.cursor))
  /-- No position was left when the cursor was read. -/
  | giveUp (race : Race) (caller seen : Nat) (h : race.callers caller = .holding seen)
      (none_left : race.script.responses.length ≤ seen) :
      Step race { race.setCaller caller .idle with log := none :: race.log }

/-- The states that a race over a script can come to. -/
inductive Reachable (responses : List Status) : Race → Prop where
  | start : Reachable responses (start responses)
  | step {race later : Race} (h : Reachable responses race) (step : Step race later) :
      Reachable responses later

/-- The positions claimed so far, the latest first. -/
def claimed (race : Race) : List Nat := race.log.filterMap id

/-- No attempt is under way. -/
def Quiet (race : Race) : Prop := ∀ caller, race.callers caller = .idle

/-- What the caller of an attempt under an identifier is told. -/
def told (race : Race) (id : String) : Option Nat → Except ServiceError Unit
  | none => .error (.retryExhausted id race.script.responses.length)
  | some position =>
      match race.script.responses[position]? with
      | some status => status.outcome
      | none => .error (.retryExhausted id race.script.responses.length)

/-- What the completed attempts under an identifier were told, the latest first. -/
def outcomes (race : Race) (id : String) : List (Except ServiceError Unit) :=
  race.log.map (race.told id)

end Race

end Rehearsal
