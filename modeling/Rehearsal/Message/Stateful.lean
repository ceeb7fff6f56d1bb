import Rehearsal.Message.Basic

/-!
# Messages of the calls that keep state

Scripted retries and long-running operations.
-/

namespace Rehearsal.Message

open Wire

structure SetupRetryRequest where
  responses : List StatusMessage := []
  deriving DecidableEq, Repr, Inhabited

instance : Wire.Message SetupRetryRequest where
  empty := {}
  merge room message record :=
    match record.field with
    | 1 => inField "SetupRetryRequest" "responses" do
        return { message with responses := ← mergeRepeated room message.responses record.payload }
    | _ => record.payload.skip room message
  records message := Record.ofRepeated 1 message.responses

structure RetryId where
  id : String := ""
  deriving DecidableEq, Repr, Inhabited

instance : Wire.Message RetryId where
  empty := {}
  merge room message record :=
    match record.field with
    | 1 => inField "RetryId" "id" do
        return { message with id := ← record.payload.toText }
    | _ => record.payload.skip room message
  records message := Record.ofText 1 message.id

/-- The content of an operation that has succeeded. -/
structure LongrunningResponse where
  content : String := ""
  deriving DecidableEq, Repr, Inhabited

instance : Wire.Message LongrunningResponse where
  empty := {}
  merge room message record :=
    match record.field with
    | 1 => inField "LongrunningResponse" "content" do
        return { message with content := ← record.payload.toText }
    | _ => record.payload.skip room message
  records message := Record.ofText 1 message.content

/-- How long an operation is still pending. -/
structure LongrunningMetadata where
  timeRemaining : Option Duration := none
  deriving DecidableEq, Repr, Inhabited

instance : Wire.Message LongrunningMetadata where
  empty := {}
  merge room message record :=
    match record.field with
    | 1 => inField "LongrunningMetadata" "time_remaining" do
        return { message with
          timeRemaining := ← mergeOptional room message.timeRemaining record.payload }
    | _ => record.payload.skip room message
  records message := Record.ofOptional 1 message.timeRemaining

structure LongrunningRequest where
  completionTime : Option Timestamp := none
  error : Option StatusMessage := none
  success : Option LongrunningResponse := none
  deriving DecidableEq, Repr, Inhabited

instance : Wire.Message LongrunningRequest where
  empty := {}
  merge room message record :=
    match record.field with
    | 1 => inField "LongrunningRequest" "completion_time" do
        return { message with
          completionTime := ← mergeOptional room message.completionTime record.payload }
    | 2 => inField "LongrunningRequest" "error" do
        return { message with error := ← mergeOptional room message.error record.payload }
    | 3 => inField "LongrunningRequest" "success" do
        return { message with success := ← mergeOptional room message.success record.payload }
    | _ => record.payload.skip room message
  records message :=
    Record.ofOptional 1 message.completionTime ++ Record.ofOptional 2 message.error ++
      Record.ofOptional 3 message.success

/-- How an operation ended. -/
inductive OperationResult where
  | error (status : StatusMessage)
  | response (packed : Packed)
  deriving DecidableEq, Repr

/-- An operation as its caller sees it. -/
structure OperationMessage where
  name : String := ""
  metadata : Option Packed := none
  done : Bool := false
  result : Option OperationResult := none
  deriving DecidableEq, Repr, Inhabited

namespace OperationMessage

/-- The error that a record of it goes on with. -/
def errorSoFar (message : OperationMessage) : StatusMessage :=
  match message.result with
  | some (.error status) => status
  | _ => {}

/-- The response that a record of it goes on with. -/
def responseSoFar (message : OperationMessage) : Packed :=
  match message.result with
  | some (.response packed) => packed
  | _ => {}

end OperationMessage

instance : Wire.Message OperationMessage where
  empty := {}
  merge room message record :=
    match record.field with
    | 1 => inField "Operation" "name" do
        return { message with name := ← record.payload.toText }
    | 2 => inField "Operation" "metadata" do
        return { message with metadata := ← mergeOptional room message.metadata record.payload }
    | 3 => inField "Operation" "done" do
        return { message with done := ← record.payload.toBool }
    | 4 => inField "Operation" "result" do
        let status ← record.payload.into room Wire.Message.merge message.errorSoFar
        return { message with result := some (.error status) }
    | 5 => inField "Operation" "result" do
        let packed ← record.payload.into room Wire.Message.merge message.responseSoFar
        return { message with result := some (.response packed) }
    | _ => record.payload.skip room message
  records message :=
    Record.ofText 1 message.name ++ Record.ofOptional 2 message.metadata ++
      Record.ofBool 3 message.done ++
        match message.result with
        | none => []
        | some (.error status) => [Record.ofMessage 4 status]
        | some (.response packed) => [Record.ofMessage 5 packed]

/-- A call about one operation: looking at it, cancelling it or deleting it. -/
structure OperationRequest where
  name : String := ""
  deriving DecidableEq, Repr, Inhabited

instance : Wire.Message OperationRequest where
  empty := {}
  merge room message record :=
    match record.field with
    | 1 => inField "OperationRequest" "name" do
        return { message with name := ← record.payload.toText }
    | _ => record.payload.skip room message
  records message := Record.ofText 1 message.name

structure ListOperationsRequest where
  filter : String := ""
  pageSize : Int32 := 0
  pageToken : String := ""
  name : String := ""
  deriving DecidableEq, Repr, Inhabited

instance : Wire.Message ListOperationsRequest where
  empty := {}
  merge room message record :=
    match record.field with
    | 1 => inField "ListOperationsRequest" "filter" do
        return { message with filter := ← record.payload.toText }
    | 2 => inField "ListOperationsRequest" "page_size" do
        return { message with pageSize := ← record.payload.toInt32 }
    | 3 => inField "ListOperationsRequest" "page_token" do
        return { message with pageToken := ← record.payload.toText }
    | 4 => inField "ListOperationsRequest" "name" do
        return { message with name := ← record.payload.toText }
    | _ => record.payload.skip room message
  records message :=
    Record.ofText 1 message.filter ++ Record.ofInt32 2 message.pageSize ++
      Record.ofText 3 message.pageToken ++ Record.ofText 4 message.name

structure ListOperationsResponse where
  operations : List OperationMessage := []
  nextPageToken : String := ""
  deriving DecidableEq, Repr, Inhabited

instance : Wire.Message ListOperationsResponse where
  empty := {}
  merge room message record :=
    match record.field with
    | 1 => inField "ListOperationsResponse" "operations" do
        return { message with
          operations := ← mergeRepeated room message.operations record.payload }
    | 2 => inField "ListOperationsResponse" "next_page_token" do
        return { message with nextPageToken := ← record.payload.toText }
    | _ => record.payload.skip room message
  records message :=
    Record.ofRepeated 1 message.operations ++ Record.ofText 2 message.nextPageToken

structure WaitOperationRequest where
  name : String := ""
  timeout : Option Duration := none
  deriving DecidableEq, Repr, Inhabited

instance : Wire.Message WaitOperationRequest where
  empty := {}
  merge room message record :=
    match record.field with
    | 1 => inField "WaitOperationRequest" "name" do
        return { message with name := ← record.payload.toText }
    | 2 => inField "WaitOperationRequest" "timeout" do
        return { message with timeout := ← mergeOptional room message.timeout record.payload }
    | _ => record.payload.skip room message
  records message := Record.ofText 1 message.name ++ Record.ofOptional 2 message.timeout

end Rehearsal.Message
