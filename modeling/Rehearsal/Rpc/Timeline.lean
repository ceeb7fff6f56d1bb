import Rehearsal.Rpc.Handler

/-!
# A service in simulated time

A timeline is a service with its clocks and the calls that are under way.  Time passes only when it
is told to (`advanceTo`) or when a call is waited for (`finish`): then the calls that sleep are
woken in the order of their times.  Time goes in whole milliseconds, so whoever sleeps wakes at the
first one that is not too early.  The time of day can be set and goes on from there.
-/

namespace Rehearsal.Rpc

open Time (Instant Span)
open Wire (Bytes)

/-- How a call that has been launched is doing. -/
inductive CallState where
  | asleep (wake : Nat) (call : Suspended)
  /-- The reply, and the millisecond at which it was given. -/
  | answered (time : Nat) (reply : Feed Bytes)

/-- A service in simulated time. -/
structure Timeline where
  service : Service
  /-- The time of day when it was last set. -/
  reading : Instant
  /-- The millisecond at which it was last set. -/
  setAt : Nat := 0
  /-- The milliseconds passed since the beginning. -/
  elapsed : Nat := 0
  /-- How many identifiers have been drawn. -/
  drawn : Nat := 0
  /-- The launched calls that have not been finished, each under its ticket. -/
  calls : List (Nat × CallState) := []
  ticket : Nat := 0

namespace Timeline

def start (settings : Settings) (reading : Instant) : Timeline where
  service := { settings }
  reading

/-! ## Clocks -/

/-- The time of day.  It stands still where the calendar ends. -/
def now (timeline : Timeline) : Instant :=
  ((Span.ofMillis? ((timeline.elapsed : Int) - timeline.setAt)).bind timeline.reading.add?).getD
    timeline.reading

def moment (timeline : Timeline) : Moment where
  clock := timeline.now
  timer := timeline.elapsed * Time.nanosPerMilli

def setClock (timeline : Timeline) (reading : Instant) : Timeline :=
  { timeline with reading, setAt := timeline.elapsed }

/-- Moves the time of day by a span, unless that leaves the calendar. -/
def shiftClock? (timeline : Timeline) (span : Span) : Option Timeline :=
  (timeline.now.add? span).map timeline.setClock

/-- The first whole millisecond at or after a number of nanoseconds. -/
def ceilMillis (nanos : Nat) : Nat := (nanos + (Time.nanosPerMilli - 1)) / Time.nanosPerMilli

/-! ## Calls -/

/-- Enough identifiers that at least one is new: one more than are in use. -/
def candidates (timeline : Timeline) : List String :=
  let inUse := timeline.service.retries.size + timeline.service.operations.size
  Ident.series timeline.drawn (inUse + 1)

/-- Runs a call of the service as it is now, past the methods. -/
def perform (timeline : Timeline) (call : Call) : Except ServiceError Answer × Timeline :=
  let (result, service) := timeline.service.perform timeline.now timeline.candidates call
  (result, { timeline with service, drawn := timeline.drawn + 1 })

/-- The state of a call that has come this far. -/
def stateOf (timeline : Timeline) : Progress → CallState
  | .answered reply => .answered timeline.elapsed reply
  | .asleep wake call => .asleep (max (ceilMillis wake) timeline.elapsed) call

/-- Begins a call and gives its ticket. -/
def launch (timeline : Timeline) (path : String) (body : Bytes) (halfClosed : Bool) :
    Nat × Timeline :=
  let (progress, service) :=
    handle timeline.service timeline.moment timeline.candidates path body halfClosed
  (timeline.ticket,
    { timeline with
      service
      drawn := timeline.drawn + 1
      calls := timeline.calls ++ [(timeline.ticket, timeline.stateOf progress)]
      ticket := timeline.ticket + 1 })

def setCall (timeline : Timeline) (ticket : Nat) (state : CallState) : Timeline :=
  { timeline with
    calls := timeline.calls.map fun call => if call.1 = ticket then (ticket, state) else call }

/-- The sleeping call that is the first to wake, and when. -/
def nextSleeper (timeline : Timeline) : Option (Nat × Nat × Suspended) :=
  let sleepers := timeline.calls.filterMap fun (ticket, state) =>
    match state with
    | .asleep wake call => some (ticket, wake, call)
    | .answered .. => none
  match sleepers with
  | [] => none
  | first :: rest =>
      some (rest.foldl (fun best other => if other.2.1 < best.2.1 then other else best) first)

def wake (timeline : Timeline) (ticket time : Nat) (call : Suspended) : Timeline :=
  let timeline := { timeline with elapsed := max time timeline.elapsed }
  let (progress, service) := call.resume timeline.service timeline.moment
  let timeline := { timeline with service }
  timeline.setCall ticket (timeline.stateOf progress)

/-- Wakes the calls whose time comes up to `time`, at most `fuel` times. -/
def wakeUntil (time : Nat) : (fuel : Nat) → Timeline → Timeline
  | 0, timeline => timeline
  | fuel + 1, timeline =>
      match timeline.nextSleeper with
      | none => timeline
      | some (ticket, due, call) =>
          if time < due then timeline else wakeUntil time fuel (timeline.wake ticket due call)

/-- Lets time pass up to a millisecond.  No call wakes twice in one millisecond, so the number of
times that calls can wake is bounded. -/
def advanceTo (timeline : Timeline) (time : Nat) : Timeline :=
  let fuel := (time - timeline.elapsed + 1) * timeline.calls.length
  let timeline := wakeUntil time fuel timeline
  { timeline with elapsed := max time timeline.elapsed }

/-- Lets time pass until a call has its answer, at most over `fuel` of its sleeps.  Gives the
answer and the millisecond it came at, and forgets the call. -/
def finishWithin (ticket : Nat) : (fuel : Nat) → Timeline → Option (Nat × Feed Bytes) × Timeline
  | 0, timeline => (none, timeline)
  | fuel + 1, timeline =>
      match timeline.calls.lookup ticket with
      | none => (none, timeline)
      | some (.answered time reply) =>
          (some (time, reply),
            { timeline with calls := timeline.calls.filter fun call => call.1 ≠ ticket })
      | some (.asleep wake _) => finishWithin ticket fuel (timeline.advanceTo wake)

/-- How often a call may go to sleep again while it is waited for.  A waiter that nobody disturbs
looks three times at most. -/
def patience : Nat := 16

def finish (timeline : Timeline) (ticket : Nat) : Option (Nat × Feed Bytes) × Timeline :=
  finishWithin ticket patience timeline

/-- Begins a call and lets time pass until it has its answer. -/
def call (timeline : Timeline) (path : String) (body : Bytes) (halfClosed : Bool := true) :
    Option (Nat × Feed Bytes) × Timeline :=
  let (ticket, timeline) := timeline.launch path body halfClosed
  timeline.finish ticket

end Timeline

end Rehearsal.Rpc
