import Rehearsal.Client.Loops
import Rehearsal.Operation.Listing
import Rehearsal.Rpc.Handler

/-!
# Polls among others

A client that polls an operation sleeps before each poll, and meanwhile others use the service as
they like.  `Shared.poll` is one poll as the loop of the client makes it (`waitForOperation`),
`Shared.polled` what a number of polls come to, whatever they find.
-/

namespace Rehearsal.Client

open Message (OperationMessage)
open Time (Instant)

/-- A request for an operation, with the service and its clock as they were when it arrived. -/
structure Enquiry where
  name : String
  service : Service
  now : Instant

namespace Enquiry

def reply (enquiry : Enquiry) : Except RpcError OperationMessage × Service :=
  Rpc.getOperation enquiry.service enquiry.now { name := enquiry.name }

def answer (enquiry : Enquiry) : Except RpcError OperationMessage := enquiry.reply.1

/-- The service afterwards. -/
def left (enquiry : Enquiry) : Service := enquiry.reply.2

/-- The operation has been found pending. -/
def IsPending (enquiry : Enquiry) : Prop :=
  ∃ remaining, enquiry.answer = .ok (.ofSnapshot ⟨enquiry.name, .pending remaining⟩)

end Enquiry

/-- A service that a client shares with others. -/
structure Shared where
  service : Service
  /-- What others do before each of the polls to come, while the client sleeps. -/
  pauses : Nat → Pause
  /-- The polls so far, the latest first. -/
  enquiries : List Enquiry := []

namespace Shared

/-- The next poll for an operation. -/
def enquiry (shared : Shared) (name : String) : Enquiry where
  name
  service := shared.service.after (shared.pauses 0).visits
  now := (shared.pauses 0).now

/-- Sleeps, and then asks once. -/
def poll (name : String) (shared : Shared) : Except RpcError OperationMessage × Shared :=
  let enquiry := shared.enquiry name
  (enquiry.answer,
    { service := enquiry.left
      pauses := fun i => shared.pauses (i + 1)
      enquiries := enquiry :: shared.enquiries })

/-- What is shared after a number of polls, whatever they find. -/
def polled (name : String) : (count : Nat) → Shared → Shared
  | 0, shared => shared
  | count + 1, shared => polled name count (shared.poll name).2

/-- The poll that comes after a number of others. -/
def enquiryAt (shared : Shared) (name : String) (count : Nat) : Enquiry :=
  (shared.polled name count).enquiry name

end Shared

end Rehearsal.Client
