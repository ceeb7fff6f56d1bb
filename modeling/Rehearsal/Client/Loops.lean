import Rehearsal.Error
import Rehearsal.Message.Stateful
import Rehearsal.Message.Stateless

/-!
# Loops of a client

Two things that a client does by calling again and again: fetching all pages of integers, and
asking for an operation until it is done.  How a call is made is left to the caller; `fuel` bounds
the number of calls, and `none` says that it was too small.
-/

namespace Rehearsal.Client

open Message

/-- All integers of the pages from a token on. -/
def pagesFrom (fetch : PaginationRequest → Except RpcError PaginationResponse)
    (maxResponse pageSize : Int32) :
    (fuel : Nat) → (pageToken : String) → Option (Except RpcError (List Int32))
  | 0, _ => none
  | fuel + 1, pageToken =>
      match fetch { maxResponse, pageSize, pageToken } with
      | .error error => some (.error error)
      | .ok page =>
          if page.nextPageToken = "" then some (.ok page.responses)
          else
            (pagesFrom fetch maxResponse pageSize fuel page.nextPageToken).map fun later =>
              later.map (page.responses ++ ·)

/-- All integers of all pages.  A page holds at least one, so there are no more pages than
integers. -/
def paginateAll (fetch : PaginationRequest → Except RpcError PaginationResponse)
    (maxResponse pageSize : Int32) : Option (Except RpcError (List Int32)) :=
  pagesFrom fetch maxResponse pageSize (maxResponse.toInt.toNat + 1) ""

/-- Asks for an operation until it is done.  `poll` waits for a while and asks once. -/
def waitForOperation {σ : Type}
    (poll : String → σ → Except RpcError OperationMessage × σ) :
    (fuel : Nat) → OperationMessage → σ → Option (Except RpcError OperationMessage) × σ
  | fuel, operation, world =>
      if operation.done then (some (.ok operation), world)
      else
        match fuel with
        | 0 => (none, world)
        | fuel + 1 =>
            match poll operation.name world with
            | (.error error, world) => (some (.error error), world)
            | (.ok later, world) => waitForOperation poll fuel later world

end Rehearsal.Client
