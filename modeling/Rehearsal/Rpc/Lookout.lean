import Rehearsal.Rpc.Wait
import Rehearsal.Service

/-!
# Waiting step by step

A look of a waiter is not made at one stroke: it reads the operation, reckons when to wake by its
timer, and compares its deadline with its timer again.  A `Lookout` is a waiter between any two of
these.  `Move` is what it does by itself, `Step` adds what may happen to it meanwhile: others change
the service in any way, the clock is set, and time passes.  In an `Undisturbed` run nobody touches
the operation, and the clock goes on with the timer.
-/

namespace Rehearsal.Rpc

open Time (Instant Span)

/-- How far a waiter has come. -/
inductive Stage where
  /-- About to read the operation. -/
  | awake
  /-- It has read that the operation is pending. -/
  | informed (snapshot : Snapshot) (remaining : Span)
  /-- It has reckoned when to wake. -/
  | planned (snapshot : Snapshot) (wake : Nat)
  | asleep (wake : Nat)
  | finished (result : Except ServiceError Snapshot)

/-- Where a waiter stands who has been told of an operation. -/
def Stage.ofReading : Except ServiceError Snapshot → Stage
  | .error error => .finished (.error error)
  | .ok snapshot =>
      match snapshot.remaining? with
      | none => .finished (.ok snapshot)
      | some remaining => .informed snapshot remaining

/-- Where a waiter stands after a look. -/
def WaitStep.stage : WaitStep → Stage
  | .finished result => .finished result
  | .asleep wake => .asleep wake

/-- A reading of the operation, with the service and the clocks as they were then. -/
structure Poll where
  service : Service
  moment : Moment

/-- What a poll tells about an operation. -/
def Poll.reading (poll : Poll) (name : String) : Except ServiceError Snapshot :=
  (poll.service.operations.get poll.moment.clock name).1

/-- A waiter and the service it waits on. -/
structure Lookout where
  service : Service
  moment : Moment
  waiter : Waiter
  stage : Stage := .awake
  /-- The polls so far, the latest first. -/
  polls : List Poll := []
  /-- Whether it has gone to sleep since the latest. -/
  rested : Bool := false

namespace Lookout

/-- A waiter who has just called. -/
def start (service : Service) (moment : Moment) (name : String) (timeout : Option Nat) :
    Lookout where
  service
  moment
  waiter := .begin name timeout moment

/-- Reads the operation. -/
def poll (lookout : Lookout) : Lookout :=
  let (reading, operations) :=
    lookout.service.operations.get lookout.moment.clock lookout.waiter.name
  { lookout with
    service := { lookout.service with operations }
    stage := .ofReading reading
    polls := ⟨lookout.service, lookout.moment⟩ :: lookout.polls
    rested := false }

/-- Reckons when to wake. -/
def plan (lookout : Lookout) (snapshot : Snapshot) (remaining : Span) : Lookout :=
  { lookout with stage := .planned snapshot (lookout.moment.timer + remaining.toDelay) }

/-- Gives up or goes to sleep. -/
def settle (lookout : Lookout) (snapshot : Snapshot) (wake : Nat) : Lookout :=
  let step := lookout.waiter.settle lookout.moment.timer wake snapshot
  { lookout with
    stage := step.stage
    rested :=
      match step with
      | .finished _ => lookout.rested
      | .asleep _ => true }

/-- A step of the waiter itself. -/
inductive Move : Lookout → Lookout → Prop where
  | poll (lookout : Lookout) (h : lookout.stage = .awake) : Move lookout lookout.poll
  | plan (lookout : Lookout) (snapshot : Snapshot) (remaining : Span)
      (h : lookout.stage = .informed snapshot remaining) :
      Move lookout (lookout.plan snapshot remaining)
  | settle (lookout : Lookout) (snapshot : Snapshot) (wake : Nat)
      (h : lookout.stage = .planned snapshot wake) : Move lookout (lookout.settle snapshot wake)
  /-- It wakes, when its time has come or later. -/
  | wake (lookout : Lookout) (wake : Nat) (h : lookout.stage = .asleep wake)
      (due : wake ≤ lookout.moment.timer) : Move lookout { lookout with stage := .awake }

/-- A step of the waiter or of the world around it. -/
inductive Step : Lookout → Lookout → Prop where
  | move {lookout later : Lookout} (move : Move lookout later) : Step lookout later
  /-- Others change the service, in whatever way. -/
  | others (lookout : Lookout) (service : Service) : Step lookout { lookout with service }
  /-- The clock is set, forwards or back. -/
  | set (lookout : Lookout) (clock : Instant) :
      Step lookout { lookout with moment := { lookout.moment with clock } }
  /-- Time passes. -/
  | tick (lookout : Lookout) (nanos : Nat) :
      Step lookout
        { lookout with
          moment := { lookout.moment with timer := lookout.moment.timer + nanos } }

/-- The states that any steps lead to. -/
inductive Reachable (first : Lookout) : Lookout → Prop where
  | start : Reachable first first
  | step {lookout later : Lookout} (h : Reachable first lookout) (step : Step lookout later) :
      Reachable first later

/-- The states that a number of moves lead to which nobody disturbs. -/
inductive Undisturbed (first : Lookout) : (moves : Nat) → Lookout → Prop where
  | start : Undisturbed first 0 first
  | move {moves : Nat} {lookout later : Lookout} (h : Undisturbed first moves lookout)
      (move : Move lookout later) : Undisturbed first (moves + 1) later
  /-- Time passes on both clocks alike. -/
  | pass {moves : Nat} {lookout : Lookout} (h : Undisturbed first moves lookout) (span : Span)
      (clock : Instant) (forwards : 0 ≤ span.nanos)
      (hclock : lookout.moment.clock.add? span = some clock) :
      Undisturbed first moves
        { lookout with moment := ⟨clock, lookout.moment.timer + span.nanos.toNat⟩ }
  /-- Others change the service, but not the operation. -/
  | others {moves : Nat} {lookout : Lookout} (h : Undisturbed first moves lookout)
      (service : Service)
      (hsame : service.operations.operations.get? lookout.waiter.name =
        lookout.service.operations.operations.get? lookout.waiter.name) :
      Undisturbed first moves { lookout with service }

end Lookout

end Rehearsal.Rpc
