import Rehearsal.Operation.Book

/-!
# Calls that race

Many calls about operations are under way at the same time, each in several steps: a name is looked
up, and the operation found is then looked at or cancelled in one step under its lock, with the
reading of the clock at that moment.  The operation stays with the call that found it, also when its
name is given up in between.  The clock may be set at any time, also back.  `Arena.touches` keeps
every step under a lock.
-/

namespace Rehearsal

open Time (Instant)

inductive Act where
  | look
  | cancel
  deriving DecidableEq, Repr

def Act.on : Act → Operation → Instant → OperationState × Operation
  | look, op, now => op.evaluate now
  | cancel, op, now => op.cancel now

/-- An operation with what it was started with. -/
structure Entry where
  spec : OperationSpec
  /-- The reading of the clock at which it was started. -/
  started : Instant
  operation : Operation := .ofSpec spec started
  deriving DecidableEq, Repr

/-- One step under the lock of an operation. -/
structure Touch where
  /-- Which operation: its position among all that were ever started. -/
  entry : Nat
  reading : Instant
  act : Act
  before : Operation
  answer : OperationState
  after : Operation
  deriving DecidableEq, Repr

/-- Whether the step changes what is recorded. -/
def Touch.writes (touch : Touch) : Bool := touch.after.recorded ≠ touch.before.recorded

/-- How far a call has come. -/
inductive Errand where
  | idle
  /-- A start has read the clock. -/
  | starting (reading : Instant) (spec : OperationSpec)
  /-- A call has found an operation, and acts at the reading it has, or else at the one to come. -/
  | found (entry : Nat) (act : Act) (reading : Option Instant) (unread : List String)
  /-- A list has names left to look up. -/
  | listing (unread : List String)
  deriving DecidableEq, Repr

/-- Operations with the calls that are under way. -/
structure Arena where
  clock : Instant
  /-- All operations that were ever started, in order. -/
  entries : List Entry := []
  /-- The operations that can be found, by name. -/
  names : Table Nat := {}
  calls : Nat → Errand := fun _ => .idle
  /-- All steps under a lock, the latest first. -/
  touches : List Touch := []

namespace Arena

def setCall (arena : Arena) (call : Nat) (errand : Errand) : Arena :=
  { arena with calls := fun other => if other = call then errand else arena.calls other }

/-- Acts on an operation under its lock. -/
def touch (arena : Arena) (position : Nat) (entry : Entry) (act : Act) (reading : Instant) :
    Arena :=
  let (answer, after) := act.on entry.operation reading
  { arena with
    entries := arena.entries.set position { entry with operation := after }
    touches := ⟨position, reading, act, entry.operation, answer, after⟩ :: arena.touches }

/-- All steps on one operation, the latest first. -/
def touchesOn (arena : Arena) (position : Nat) : List Touch :=
  arena.touches.filter fun touch => touch.entry = position

/-- What a list goes on with. -/
def afterReading : List String → Errand
  | [] => .idle
  | unread => .listing unread

/-- One step of one call, or of the clock. -/
inductive Step : Arena → Arena → Prop where
  | set (arena : Arena) (clock : Instant) : Step arena { arena with clock }
  | start (arena : Arena) (call : Nat) (spec : OperationSpec) (h : arena.calls call = .idle) :
      Step arena (arena.setCall call (.starting arena.clock spec))
  /-- A start enters its operation under a name that is not in use. -/
  | enter (arena : Arena) (call : Nat) (reading : Instant) (spec : OperationSpec) (name : String)
      (h : arena.calls call = .starting reading spec) (fresh : arena.names.get? name = none) :
      Step arena
        { arena.setCall call (.found arena.entries.length .look (some reading) []) with
          entries := arena.entries ++ [{ spec, started := reading }]
          names := arena.names.insert name arena.entries.length }
  | find (arena : Arena) (call entry : Nat) (act : Act) (name : String)
      (h : arena.calls call = .idle) (found : arena.names.get? name = some entry) :
      Step arena (arena.setCall call (.found entry act none []))
  /-- A list collects names. -/
  | collect (arena : Arena) (call : Nat) (shown : List String) (h : arena.calls call = .idle)
      (listed : shown.Sublist arena.names.names) :
      Step arena (arena.setCall call (afterReading shown))
  /-- A list finds the operation of its next name. -/
  | listed (arena : Arena) (call entry : Nat) (name : String) (unread : List String)
      (h : arena.calls call = .listing (name :: unread))
      (found : arena.names.get? name = some entry) :
      Step arena (arena.setCall call (.found entry .look none unread))
  /-- A list passes over a name that is gone. -/
  | gone (arena : Arena) (call : Nat) (name : String) (unread : List String)
      (h : arena.calls call = .listing (name :: unread)) (none : arena.names.get? name = none) :
      Step arena (arena.setCall call (afterReading unread))
  | act (arena : Arena) (call position : Nat) (act : Act) (reading : Option Instant)
      (unread : List String) (entry : Entry)
      (h : arena.calls call = .found position act reading unread)
      (there : arena.entries[position]? = some entry) :
      Step arena
        ((arena.touch position entry act (reading.getD arena.clock)).setCall call
          (afterReading unread))
  /-- A deletion takes a name away. -/
  | delete (arena : Arena) (name : String) :
      Step arena { arena with names := arena.names.erase name }

/-- The states that calls on a new service can lead to. -/
inductive Reachable : Arena → Prop where
  | start (clock : Instant) : Reachable { clock }
  | step {arena later : Arena} (h : Reachable arena) (step : Step arena later) : Reachable later

end Arena

end Rehearsal
