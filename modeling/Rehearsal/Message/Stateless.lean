import Rehearsal.Message.Basic

/-!
# Messages of the calls that keep no state

Echoing, delayed answers, pages of integers, and the two calls that return what they are sent.
-/

namespace Rehearsal.Message

open Wire

/-- Content to be returned, whole or word by word, and the outcome asked for. -/
structure EchoRequest where
  content : String := ""
  error : Option StatusMessage := none
  deriving DecidableEq, Repr, Inhabited

instance : Wire.Message EchoRequest where
  empty := {}
  merge room message record :=
    match record.field with
    | 1 => inField "EchoRequest" "content" do
        return { message with content := ← record.payload.toText }
    | 2 => inField "EchoRequest" "error" do
        return { message with error := ← mergeOptional room message.error record.payload }
    | _ => record.payload.skip room message
  records message := Record.ofText 1 message.content ++ Record.ofOptional 2 message.error

structure EchoResponse where
  content : String := ""
  deriving DecidableEq, Repr, Inhabited

instance : Wire.Message EchoResponse where
  empty := {}
  merge room message record :=
    match record.field with
    | 1 => inField "EchoResponse" "content" do
        return { message with content := ← record.payload.toText }
    | _ => record.payload.skip room message
  records message := Record.ofText 1 message.content

structure TimeoutResponse where
  content : String := ""
  deriving DecidableEq, Repr, Inhabited

instance : Wire.Message TimeoutResponse where
  empty := {}
  merge room message record :=
    match record.field with
    | 1 => inField "TimeoutResponse" "content" do
        return { message with content := ← record.payload.toText }
    | _ => record.payload.skip room message
  records message := Record.ofText 1 message.content

/-- An answer to be given after a delay. -/
structure TimeoutRequest where
  responseDelay : Option Duration := none
  error : Option StatusMessage := none
  success : Option TimeoutResponse := none
  deriving DecidableEq, Repr, Inhabited

instance : Wire.Message TimeoutRequest where
  empty := {}
  merge room message record :=
    match record.field with
    | 1 => inField "TimeoutRequest" "response_delay" do
        return { message with
          responseDelay := ← mergeOptional room message.responseDelay record.payload }
    | 2 => inField "TimeoutRequest" "error" do
        return { message with error := ← mergeOptional room message.error record.payload }
    | 3 => inField "TimeoutRequest" "success" do
        return { message with success := ← mergeOptional room message.success record.payload }
    | _ => record.payload.skip room message
  records message :=
    Record.ofOptional 1 message.responseDelay ++ Record.ofOptional 2 message.error ++
      Record.ofOptional 3 message.success

structure PaginationRequest where
  maxResponse : Int32 := 0
  pageSize : Int32 := 0
  pageToken : String := ""
  pageSizeOverride : Int32 := 0
  deriving DecidableEq, Repr, Inhabited

instance : Wire.Message PaginationRequest where
  empty := {}
  merge room message record :=
    match record.field with
    | 1 => inField "PaginationRequest" "max_response" do
        return { message with maxResponse := ← record.payload.toInt32 }
    | 2 => inField "PaginationRequest" "page_size" do
        return { message with pageSize := ← record.payload.toInt32 }
    | 3 => inField "PaginationRequest" "page_token" do
        return { message with pageToken := ← record.payload.toText }
    | 4 => inField "PaginationRequest" "page_size_override" do
        return { message with pageSizeOverride := ← record.payload.toInt32 }
    | _ => record.payload.skip room message
  records message :=
    Record.ofInt32 1 message.maxResponse ++ Record.ofInt32 2 message.pageSize ++
      Record.ofText 3 message.pageToken ++ Record.ofInt32 4 message.pageSizeOverride

structure PaginationResponse where
  responses : List Int32 := []
  nextPageToken : String := ""
  deriving DecidableEq, Repr, Inhabited

instance : Wire.Message PaginationResponse where
  empty := {}
  merge room message record :=
    match record.field with
    | 1 => inField "PaginationResponse" "responses" do
        return { message with
          responses := message.responses ++ (← record.payload.toInt32s) }
    | 2 => inField "PaginationResponse" "next_page_token" do
        return { message with nextPageToken := ← record.payload.toText }
    | _ => record.payload.skip room message
  records message :=
    Record.ofPacked 1 message.responses ++ Record.ofText 2 message.nextPageToken

/-- A message that may hold another of its kind. -/
inductive ParameterMessage where
  | mk (content : String) (repeated : List String) (nested : Option ParameterMessage)
  deriving Repr

namespace ParameterMessage

def content : ParameterMessage → String
  | mk content _ _ => content

def repeated : ParameterMessage → List String
  | mk _ repeated _ => repeated

def nested : ParameterMessage → Option ParameterMessage
  | mk _ _ nested => nested

/-- The message without any record. -/
def empty : ParameterMessage := mk "" [] none

instance : Inhabited ParameterMessage := ⟨empty⟩

/-- What a record does to a message. -/
def merge (room : Nat) (message : ParameterMessage) (record : Record) :
    Except DecodeError ParameterMessage :=
  match record.field with
  | 1 => inField "ParameterFlatteningMessage" "content" do
      return mk (← record.payload.toText) message.repeated message.nested
  | 2 => inField "ParameterFlatteningMessage" "repeated_content" do
      return mk message.content (message.repeated ++ [← record.payload.toText]) message.nested
  | 3 => inField "ParameterFlatteningMessage" "nested" do
      let bytes ← record.payload.toBytes
      match room with
      | 0 => throw { fault := .tooDeep }
      | room + 1 =>
          let inner ← mergeBytes (merge room) (message.nested.getD empty) bytes
          return mk message.content message.repeated (some inner)
  | _ => record.payload.skip room message

/-- The records of a message. -/
def records : ParameterMessage → List Record
  | mk content repeated nested =>
      Record.ofText 1 content ++ Record.ofTexts 2 repeated ++
        match nested with
        | none => []
        | some inner => [⟨3, .delimited (Record.writeAll (records inner))⟩]

end ParameterMessage

instance : Wire.Message ParameterMessage where
  empty := .empty
  merge := ParameterMessage.merge
  records := ParameterMessage.records

/-- Two resource names. -/
structure ResourceNameMessage where
  singleTemplate : String := ""
  multipleTemplates : String := ""
  deriving DecidableEq, Repr, Inhabited

instance : Wire.Message ResourceNameMessage where
  empty := {}
  merge room message record :=
    match record.field with
    | 1 => inField "ResourceNameMessage" "single_template" do
        return { message with singleTemplate := ← record.payload.toText }
    | 2 => inField "ResourceNameMessage" "multiple_templates" do
        return { message with multipleTemplates := ← record.payload.toText }
    | _ => record.payload.skip room message
  records message :=
    Record.ofText 1 message.singleTemplate ++ Record.ofText 2 message.multipleTemplates

end Rehearsal.Message
