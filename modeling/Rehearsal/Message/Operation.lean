import Rehearsal.Message.Stateful
import Rehearsal.Message.Time
import Rehearsal.Operation.Entry

/-!
# Operations in messages

How an operation is shown to its caller (`OperationMessage.ofSnapshot`): a pending one carries the
time remaining, packed as metadata; a finished one carries either a packed response or an error.
`metadata?` and `response?` unpack what is packed.
-/

namespace Rehearsal.Message

open Wire (Bytes encode decode)

namespace StatusMessage

def ofStatus (status : Status) : StatusMessage := { code := status.code, message := status.message }

/-- The status in a message; its details are left out. -/
def toStatus (message : StatusMessage) : Status := ⟨message.code, message.message⟩

end StatusMessage

/-- The type of the metadata of an operation. -/
def metadataUrl : String := "type.googleapis.com/google.showcase.v1.LongrunningMetadata"

/-- The type of the response of an operation. -/
def responseUrl : String := "type.googleapis.com/google.showcase.v1.LongrunningResponse"

namespace Packed

/-- Packs a message under the name of its type. -/
def of {α : Type} [Wire.Message α] (typeUrl : String) (message : α) : Packed :=
  ⟨typeUrl, encode message⟩

/-- Unpacks a message if it is packed under the name of its type and its bytes are well-formed. -/
def unpack? (α : Type) [Wire.Message α] (typeUrl : String) (packed : Packed) : Option α :=
  if packed.typeUrl = typeUrl then (decode α packed.value).toOption else none

end Packed

namespace OperationMessage

/-- A snapshot as its caller sees it. -/
def ofSnapshot (snapshot : Snapshot) : OperationMessage :=
  match snapshot.state with
  | .pending remaining =>
      { name := snapshot.name
        metadata := some
          (Packed.of metadataUrl
            ({ timeRemaining := some (.ofSpan remaining) } : LongrunningMetadata)) }
  | .done (.succeeded content) =>
      { name := snapshot.name
        done := true
        result := some (.response (Packed.of responseUrl ({ content } : LongrunningResponse))) }
  | .done (.failed status) =>
      { name := snapshot.name, done := true, result := some (.error (.ofStatus status)) }

/-- The metadata of an operation, if it carries any. -/
def metadata? (message : OperationMessage) : Option LongrunningMetadata :=
  message.metadata.bind (Packed.unpack? LongrunningMetadata metadataUrl)

/-- The response of an operation, if it carries one. -/
def response? (message : OperationMessage) : Option LongrunningResponse :=
  match message.result with
  | some (.response packed) => packed.unpack? LongrunningResponse responseUrl
  | _ => none

end OperationMessage

end Rehearsal.Message
