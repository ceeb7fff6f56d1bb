import Rehearsal.Error
import Rehearsal.Text.Words

/-!
# Echoing and collecting

The parts of the service that keep no state: an item is answered with its own content unless it
asks for a failure, and a `Collector` gathers the contents of many items into one text.
-/

namespace Rehearsal

/-- Content that a caller sends, with the outcome it asks for. -/
structure EchoItem where
  content : String
  error : Option Status := none
  deriving DecidableEq, Repr

/-- Fails with the outcome asked for if that is a failure. -/
def check (error : Option Status) : Except ServiceError Unit :=
  match Status.failure? error with
  | some status => .error (.scripted status)
  | none => .ok ()

theorem check_of_code_ne_zero {status : Status} (h : status.code ≠ 0) :
    check (some status) = .error (.scripted status) := by
  simp [check, Status.failure?, Option.filter, Status.isOk, h]

theorem check_of_code_eq_zero {asked : Option Status} (h : ∀ status ∈ asked, status.code = 0) :
    check asked = .ok () := by
  cases asked with
  | none => rfl
  | some status => simp [check, Status.failure?, Option.filter, Status.isOk, h status rfl]

/-- The content of an item, unless it asks for a failure. -/
def EchoItem.echo (item : EchoItem) : Except ServiceError String := do
  check item.error
  return item.content

/-- The contents gathered so far, in the order of their arrival. -/
structure Collector where
  parts : List String := []
  deriving DecidableEq, Repr

namespace Collector

/-- Adds the content of an item.  An item that asks for a failure is not added. -/
def push (collector : Collector) (item : EchoItem) : Except ServiceError Collector := do
  let content ← item.echo
  return ⟨collector.parts ++ [content]⟩

/-- Offers items one after another.  One that is refused leaves the collector as it is. -/
def pushAll (collector : Collector) : List EchoItem → Collector
  | [] => collector
  | item :: rest =>
      match collector.push item with
      | .ok later => pushAll later rest
      | .error _ => pushAll collector rest

def size (collector : Collector) : Nat := collector.parts.length

def isEmpty (collector : Collector) : Bool := collector.parts.isEmpty

/-- All contents in one text. -/
def finish (collector : Collector) : String := Text.join collector.parts

end Collector

end Rehearsal
