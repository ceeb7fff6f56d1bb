import Rehearsal.Operation.Book

/-!
# Waiting for an operation

A waiter looks at an operation; if it is pending, the waiter sleeps until the operation is due as
far as it knows, or until its own deadline if that comes first, and looks again.  Between its looks
it notices nothing.
-/

namespace Rehearsal.Rpc

open Time (Instant)

/-- The readings of the two clocks of a service: the time of day, which may be set, and a timer
that only goes on, in nanoseconds. -/
structure Moment where
  clock : Instant
  timer : Nat
  deriving DecidableEq, Repr

/-- A caller who waits for an operation. -/
structure Waiter where
  name : String
  /-- The reading of the timer at which to give up, if ever. -/
  deadline : Option Nat := none
  deriving DecidableEq, Repr

/-- What follows a look. -/
inductive WaitStep where
  | finished (result : Except ServiceError Snapshot)
  /-- Look again when the timer has reached this reading. -/
  | asleep (wake : Nat)

namespace Waiter

/-- A waiter who gives up after a delay, if one is given. -/
def begin (name : String) (timeout : Option Nat) (moment : Moment) : Waiter where
  name
  deadline := timeout.map (moment.timer + ·)

/-- What to do about a pending operation: to give up if the deadline has come, or else to sleep, but
not beyond the deadline. -/
def settle (waiter : Waiter) (timer wake : Nat) (snapshot : Snapshot) : WaitStep :=
  match waiter.deadline with
  | none => .asleep wake
  | some deadline =>
      if deadline ≤ timer then .finished (.ok snapshot) else .asleep (min wake deadline)

/-- What to do after seeing a snapshot: a finished operation is reported, and a pending one is slept
for until it is due. -/
def decide (waiter : Waiter) (timer : Nat) (snapshot : Snapshot) : WaitStep :=
  match snapshot.remaining? with
  | none => .finished (.ok snapshot)
  | some remaining => waiter.settle timer (timer + remaining.toDelay) snapshot

/-- One look at the operation. -/
def look (waiter : Waiter) (book : OperationBook) (moment : Moment) : WaitStep × OperationBook :=
  match book.get moment.clock waiter.name with
  | (.error error, later) => (.finished (.error error), later)
  | (.ok snapshot, later) => (waiter.decide moment.timer snapshot, later)

end Waiter

end Rehearsal.Rpc
