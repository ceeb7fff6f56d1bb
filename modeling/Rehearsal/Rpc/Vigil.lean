import Rehearsal.Rpc.Wait
import Rehearsal.Visit

/-!
# Waiting among others

A waiter looks at an operation and sleeps in turns while others visit the service, the clock is set
and time passes.  `Vigil.Calm` holds the steps of a waiter that nobody disturbs: time passes on both
clocks alike, and the waiter wakes and looks.  `Vigil.Step` adds what others do.
-/

namespace Rehearsal.Rpc

open Time (Instant Span)

/-- A look of a waiter, with the operations and the clocks as they were then. -/
structure Look where
  book : OperationBook
  moment : Moment

/-- What a waiter is doing. -/
inductive Watch where
  /-- About to look. -/
  | awake
  | asleep (wake : Nat)
  | finished (result : Except ServiceError Snapshot)

/-- A waiter and the service it waits on. -/
structure Vigil where
  service : Service
  moment : Moment
  waiter : Waiter
  watch : Watch := .awake
  /-- The looks so far, the latest first. -/
  looks : List Look := []

/-- What a waiter does after a look. -/
def WaitStep.watch : WaitStep → Watch
  | .finished result => .finished result
  | .asleep wake => .asleep wake

namespace Vigil

/-- A waiter who has just called. -/
def start (service : Service) (moment : Moment) (name : String) (timeout : Option Nat) : Vigil where
  service
  moment
  waiter := .begin name timeout moment

/-- One look at the operation. -/
def look (vigil : Vigil) : Vigil :=
  let (step, operations) := vigil.waiter.look vigil.service.operations vigil.moment
  { vigil with
    service := { vigil.service with operations }
    watch := step.watch
    looks := ⟨vigil.service.operations, vigil.moment⟩ :: vigil.looks }

/-- A step of a waiter that nobody disturbs. -/
inductive Calm : Vigil → Vigil → Prop where
  /-- Time passes on both clocks. -/
  | pass (vigil : Vigil) (span : Span) (clock : Instant) (forwards : 0 ≤ span.nanos)
      (h : vigil.moment.clock.add? span = some clock) :
      Calm vigil { vigil with moment := ⟨clock, vigil.moment.timer + span.nanos.toNat⟩ }
  /-- The waiter wakes, when its time has come or later. -/
  | wake (vigil : Vigil) (wake : Nat) (h : vigil.watch = .asleep wake)
      (due : wake ≤ vigil.moment.timer) : Calm vigil { vigil with watch := .awake }
  | look (vigil : Vigil) (h : vigil.watch = .awake) : Calm vigil vigil.look

/-- A step of the waiter or of somebody else. -/
inductive Step : Vigil → Vigil → Prop where
  | calm {vigil later : Vigil} (step : Calm vigil later) : Step vigil later
  /-- Somebody visits the service. -/
  | visit (vigil : Vigil) (call : Call) (candidates : List String) :
      Step vigil
        { vigil with
          service := (vigil.service.perform vigil.moment.clock candidates call).2 }
  /-- The clock is set; the timer is not. -/
  | set (vigil : Vigil) (clock : Instant) :
      Step vigil { vigil with moment := { vigil.moment with clock } }
  /-- Time passes on the timer alone. -/
  | tick (vigil : Vigil) (nanos : Nat) :
      Step vigil
        { vigil with moment := { vigil.moment with timer := vigil.moment.timer + nanos } }

/-- The states that undisturbed steps lead to. -/
inductive Undisturbed (start : Vigil) : Vigil → Prop where
  | start : Undisturbed start start
  | step {vigil later : Vigil} (h : Undisturbed start vigil) (step : Calm vigil later) :
      Undisturbed start later

/-- The states that any steps lead to. -/
inductive Reachable (start : Vigil) : Vigil → Prop where
  | start : Reachable start start
  | step {vigil later : Vigil} (h : Reachable start vigil) (step : Step vigil later) :
      Reachable start later

end Vigil

end Rehearsal.Rpc
