import Rehearsal.Client.Loops
import Rehearsal.Client.ResourceName
import Rehearsal.Client.Stub
import Rehearsal.Command.Client
import Rehearsal.Text.Quoted

/-!
# Running commands

What a command of the client does to a service in simulated time, and the lines it prints.
-/

namespace Rehearsal.Command

open Client Message Rpc

inductive Exit where
  | success
  | failed (error : RpcError)
  /-- A completion time that no calendar has. -/
  | overflow
  | unanswered
  deriving DecidableEq, Repr

/-- What a command prints, and how it ends. -/
structure Report where
  lines : List String := []
  exit : Exit := .success
  deriving DecidableEq, Repr

def Exit.code : Exit → Nat
  | success => 0
  | failed _ => 1
  | overflow => 101
  | unanswered => 1

namespace Report

def ofResult {α : Type} (lines : α → List String) : Option (Except RpcError α) → Report
  | some (.ok result) => { lines := lines result }
  | some (.error error) => { exit := .failed error }
  | none => { exit := .unanswered }

def ofStream {α : Type} (line : α → String) : Option (Feed α) → Report
  | none => { exit := .unanswered }
  | some feed =>
      { lines := feed.items.map line
        exit :=
          match feed.ending with
          | .closed => .success
          | .failed error => .failed error
          | .unfinished => .unanswered }

end Report

def ErrorOptions.status (options : ErrorOptions) : Option StatusMessage :=
  if options.code = 0 then none else some { code := options.code, message := options.message }

def operationLines (operation : OperationMessage) : List String :=
  [s!"name: {operation.name}", s!"done: {operation.done}"] ++
    match operation.result with
    | some (.error status) => [s!"error: {status.code} {status.message}"]
    | some (.response packed) => [s!"response: {packed.typeUrl} ({packed.value.length} bytes)"]
    | none => []

def showParameter : ParameterMessage → String
  | .mk content repeated nested =>
      "ParameterFlatteningMessage \x7b content: " ++ Text.quote content ++
        ", repeated_content: " ++ Text.bracket (repeated.map Text.quote) ++ ", nested: " ++
        (match nested with
          | none => "None"
          | some inner => "Some(" ++ showParameter inner ++ ")") ++ " \x7d"

def callFor {α β : Type} [Wire.Message α] [Wire.Message β] (method : Method) (request : α)
    (lines : β → List String) (timeline : Timeline) : Report × Timeline :=
  let (arrival, timeline) := unary β method request timeline
  (.ofResult lines (arrival.map (·.result)), timeline)

/-- Lets an interval pass and looks at an operation once. -/
def pollOnce (interval : Nat) (name : String) (timeline : Timeline) :
    Except RpcError OperationMessage × Timeline :=
  let timeline := timeline.advanceTo (timeline.elapsed + interval)
  let (arrival, timeline) :=
    unary OperationMessage .getOperation ({ name } : OperationRequest) timeline
  match arrival with
  | some arrival => (arrival.result, timeline)
  | none => (.error ⟨.internal, "no answer"⟩, timeline)

/-- Starts an operation some time from now and, if asked to, waits until it is done. -/
def startOperation (afterMillis : Int64) (request : LongrunningRequest) (wait : Bool)
    (pollMillis : UInt64) (timeline : Timeline) : Report × Timeline :=
  match (Time.Span.ofMillis? afterMillis.toInt).bind timeline.now.add? with
  | none => ({ exit := .overflow }, timeline)
  | some completion =>
      let request := { request with completionTime := some (.ofInstant completion) }
      let (arrival, timeline) := unary OperationMessage .longrunning request timeline
      let result : Option (Except RpcError OperationMessage) := arrival.map (·.result)
      match result with
      | some (.ok operation) =>
          let interval := max pollMillis.toNat 1
          let polls := if wait then afterMillis.toInt.toNat / interval + 2 else 0
          let (result, timeline) :=
            if wait then waitForOperation (pollOnce interval) polls operation timeline
            else (some (.ok operation), timeline)
          (.ofResult operationLines result, timeline)
      | _ => (.ofResult operationLines result, timeline)

/-- The pages of integers as a client fetches them; fetching changes nothing but the time. -/
def fetchPage (timeline : Timeline) (request : PaginationRequest) :
    Except RpcError PaginationResponse :=
  match (unary PaginationResponse .pagination request timeline).1 with
  | some arrival => arrival.result
  | none => .error ⟨.internal, "no answer"⟩

def ClientCommand.run (timeline : Timeline) : ClientCommand → Report × Timeline
  | .echo content error =>
      callFor .echo ({ content, error := error.status } : EchoRequest)
        (fun (reply : EchoResponse) => [reply.content]) timeline
  | .expand content error =>
      let (feed, timeline) := streaming EchoResponse .expand
        [({ content, error := error.status } : EchoRequest)] true timeline
      (.ofStream (·.content) feed, timeline)
  | .collect contents =>
      let requests : List EchoRequest := contents.map fun content => { content }
      let (result, timeline) := Client.collect requests timeline
      (.ofResult (fun reply => [reply.content]) result, timeline)
  | .chat contents =>
      let requests : List EchoRequest := contents.map fun content => { content }
      let (feed, timeline) := streaming EchoResponse .chat requests true timeline
      (.ofStream (·.content) feed, timeline)
  | .timeout delayMillis content error =>
      let request : TimeoutRequest :=
        { responseDelay := some (.ofMillis delayMillis)
          error := error.status
          success := some { content } }
      callFor .timeout request (fun (reply : TimeoutResponse) => [reply.content]) timeline
  | .setupRetry codes =>
      let request : SetupRetryRequest := { responses := codes.map fun code => { code } }
      callFor .setupRetry request (fun (reply : RetryId) => [s!"id: {reply.id}"]) timeline
  | .retry id =>
      callFor .retry ({ id } : RetryId) (fun (_ : Nothing) => ["ok"]) timeline
  | .longrunning afterMillis content error wait pollMillis =>
      startOperation afterMillis { error := error.status, success := some { content } } wait
        pollMillis timeline
  | .getOperation name =>
      callFor .getOperation ({ name } : OperationRequest) operationLines timeline
  | .listOperations pageSize pageToken =>
      callFor .listOperations ({ pageSize, pageToken } : ListOperationsRequest)
        (fun (reply : ListOperationsResponse) =>
          reply.operations.map (fun operation => s!"{operation.name} done={operation.done}") ++
            if reply.nextPageToken = "" then []
            else [s!"next_page_token: {reply.nextPageToken}"]) timeline
  | .cancelOperation name =>
      callFor .cancelOperation ({ name } : OperationRequest)
        (fun (_ : Nothing) => ["cancelled"]) timeline
  | .deleteOperation name =>
      callFor .deleteOperation ({ name } : OperationRequest)
        (fun (_ : Nothing) => ["deleted"]) timeline
  | .waitOperation name timeoutMillis =>
      let request : WaitOperationRequest :=
        { name, timeout := if timeoutMillis = 0 then none else some (.ofMillis timeoutMillis) }
      callFor .waitOperation request operationLines timeline
  | .pagination maxResponse pageSize pageToken all =>
      if all then
        (.ofResult (fun responses => [Text.bracket (responses.map fun n => s!"{n}")])
          (paginateAll (fetchPage timeline) maxResponse pageSize), timeline)
      else
        callFor .pagination ({ maxResponse, pageSize, pageToken } : PaginationRequest)
          (fun (reply : PaginationResponse) =>
            ["responses: " ++ Text.bracket (reply.responses.map fun n => s!"{n}"),
              s!"next_page_token: {reply.nextPageToken}"]) timeline
  | .resourceName id =>
      let request : ResourceNameMessage :=
        { singleTemplate := Template.single.render id
          multipleTemplates := Template.first.render id }
      callFor .resourceName request
        (fun (reply : ResourceNameMessage) =>
          [s!"single_template: {reply.singleTemplate}",
            s!"multiple_templates: {reply.multipleTemplates}"]) timeline
  | .parameterFlattening content repeated nested =>
      callFor .parameterFlattening
        (ParameterMessage.mk content repeated (nested.map fun inner => .mk inner [] none))
        (fun (reply : ParameterMessage) => [showParameter reply]) timeline

def versionLine : String := "showcase-client 0.1.0"

/-- Where simulated time begins unless something else is said. -/
def dawn : Time.Instant := .ofSeconds 1700000000 (by decide)

/-- Runs several command lines one after another against one service. -/
def runAll (timeline : Timeline) : List (List String) → List (Except Stop Report)
  | [] => []
  | arguments :: rest =>
      match ClientCommand.parse arguments with
      | .error stop => .error stop :: runAll timeline rest
      | .ok call =>
          let (report, timeline) := call.command.run timeline
          .ok report :: runAll timeline rest

end Rehearsal.Command
