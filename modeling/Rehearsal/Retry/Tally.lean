import Rehearsal.Visit

/-!
# Scripts by their history

What is to be met under an identifier, read off from the run so far: the script that a setup bound
to it, and the number of attempts made since (`Tally`).  Attempts under an identifier that is not
bound do not count.
-/

namespace Rehearsal

/-- What a run has done under an identifier. -/
structure Tally where
  responses : List Status
  attempts : Nat := 0
  deriving DecidableEq, Repr

namespace Tally

/-- Where the script stands: behind the last status that was claimed. -/
def script (tally : Tally) : Script where
  responses := tally.responses
  cursor := min tally.attempts tally.responses.length

/-- What the next attempt meets: its own status, or nothing if there are no more. -/
def next (tally : Tally) (id : String) : Except ServiceError Answer :=
  match tally.responses[tally.attempts]? with
  | some status => if status.code = 0 then .ok .done else .error (.scripted status)
  | none => .error (.retryExhausted id tally.responses.length)

/-- The tally of an identifier after one more visit. -/
def add (id : String) (tally : Option Tally) (entry : Visit × Except ServiceError Answer) :
    Option Tally :=
  match entry.1.call, entry.2 with
  | .setupRetry responses, .ok (.script bound) => if bound = id then some { responses } else tally
  | .retry attempted, _ =>
      if attempted = id then
        tally.map fun tally => { tally with attempts := tally.attempts + 1 }
      else tally
  | _, _ => tally

def ofTranscript? (id : String) (transcript : List (Visit × Except ServiceError Answer)) :
    Option Tally := transcript.foldl (add id) none

/-- What an attempt under an identifier meets that is bound, or is not. -/
def tell (id : String) : Option Tally → Except ServiceError Answer
  | some tally => tally.next id
  | none => .error (.retryNotFound id)

end Tally

/-- A visit if it is made with an identifier: the setup that bound it, which then draws nothing
else, or an attempt. -/
def Visit.with? (id : String) (entry : Visit × Except ServiceError Answer) : Option Visit :=
  match entry.1.call, entry.2 with
  | .setupRetry _, .ok (.script bound) =>
      if bound = id then some { entry.1 with candidates := [id] } else none
  | .retry attempted, _ => if attempted = id then some entry.1 else none
  | _, _ => none

end Rehearsal
