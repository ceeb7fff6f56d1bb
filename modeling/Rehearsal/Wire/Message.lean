import Rehearsal.Text.Utf8
import Rehearsal.Wire.Record

/-!
# Messages

A message type says how a value becomes records and what each record that is read does to a value
(`Message`).  A field at its default is not written.  On reading, the last value of a single field
counts, the occurrences of a nested message are merged, and a record of an unknown field is
skipped.  Messages nest at most `maxDepth` deep.
-/

namespace Rehearsal.Wire

/-- Why bytes are no message of the expected type, and in which field, innermost first. -/
structure DecodeError where
  path : List (String × String) := []
  fault : DecodeFault
  deriving DecidableEq, Repr

def DecodeError.message (error : DecodeError) : String :=
  let place := error.path.map fun (message, field) => s!"{message}.{field}: "
  "failed to decode Protobuf message: " ++ String.join place ++ error.fault.message

/-- A type of messages. -/
class Message (α : Type) where
  /-- The message without any record. -/
  empty : α
  /-- What a record does to a message, with `room` levels of nesting left. -/
  merge : (room : Nat) → α → Record → Except DecodeError α
  /-- The records of a message, in the order of their fields. -/
  records : α → List Record

def maxDepth : Nat := 100

/-- What several records do, in order. -/
def mergeAll {α : Type} (merge : α → Record → Except DecodeError α) (message : α)
    (records : List Record) : Except DecodeError α := records.foldlM merge message

/-- What the records in some bytes do to a message. -/
def mergeBytes {α : Type} (merge : α → Record → Except DecodeError α) (message : α)
    (bytes : Bytes) : Except DecodeError α :=
  match Record.parse bytes with
  | .error fault => .error { fault }
  | .ok records => mergeAll merge message records

def encode {α : Type} [Message α] (message : α) : Bytes := Record.writeAll (Message.records message)

def decode (α : Type) [Message α] (bytes : Bytes) : Except DecodeError α :=
  mergeBytes (Message.merge maxDepth) (Message.empty : α) bytes

/-! ## Reading fields -/

/-- Notes in which field an error arose. -/
def inField {α : Type} (message field : String) (result : Except DecodeError α) :
    Except DecodeError α :=
  result.mapError fun error => { error with path := error.path ++ [(message, field)] }

namespace Payload

def mismatch {α : Type} (payload : Payload) (expected : WireType) : Except DecodeError α :=
  .error { fault := .wrongWireType payload.wireType expected }

def toWord : Payload → Except DecodeError UInt64
  | varint value => .ok value
  | payload => payload.mismatch .varint

def toInt64 (payload : Payload) : Except DecodeError Int64 := payload.toWord.map (·.toInt64)

/-- The low half of the number counts. -/
def toInt32 (payload : Payload) : Except DecodeError Int32 :=
  payload.toWord.map (·.toInt64.toInt32)

def toBool (payload : Payload) : Except DecodeError Bool := payload.toWord.map (· != 0)

def toBytes : Payload → Except DecodeError Bytes
  | delimited bytes => .ok bytes
  | payload => payload.mismatch .lengthDelimited

def toText (payload : Payload) : Except DecodeError String := do
  match Text.Utf8.decode (← payload.toBytes) with
  | some text => return text
  | none => throw { fault := .notUtf8 }

/-- The numbers packed into one payload.  `fuel` bounds how many there are. -/
def unpackInt32s : (fuel : Nat) → Bytes → Except DecodeError (List Int32)
  | _, [] => .ok []
  | 0, _ :: _ => .error { fault := .badVarint }
  | fuel + 1, byte :: bytes =>
      match Varint.read (byte :: bytes) with
      | none => .error { fault := .badVarint }
      | some (value, rest) =>
          (unpackInt32s fuel rest).map fun values => value.toInt64.toInt32 :: values

/-- One occurrence of repeated numbers, packed or alone. -/
def toInt32s : Payload → Except DecodeError (List Int32)
  | delimited bytes => unpackInt32s bytes.length bytes
  | payload => payload.toInt32.map fun value => [value]

/-- Merges a nested message into `current`, given how its records are merged with the room that
is left inside. -/
def into {α : Type} (room : Nat) (merge : (room : Nat) → α → Record → Except DecodeError α)
    (current : α) (payload : Payload) : Except DecodeError α := do
  let bytes ← payload.toBytes
  match room with
  | 0 => throw { fault := .tooDeep }
  | room + 1 => mergeBytes (merge room) current bytes

/-- Leaves a message as it is at an unknown field. -/
def skip {α : Type} (room : Nat) (message : α) (payload : Payload) : Except DecodeError α :=
  if payload.depth ≤ room then .ok message else .error { fault := .tooDeep }

end Payload

def mergeOptional {α : Type} [Message α] (room : Nat) (current : Option α) (payload : Payload) :
    Except DecodeError (Option α) :=
  (payload.into room Message.merge (current.getD Message.empty)).map some

def mergeRepeated {α : Type} [Message α] (room : Nat) (current : List α) (payload : Payload) :
    Except DecodeError (List α) :=
  (payload.into room Message.merge Message.empty).map fun message => current ++ [message]

/-! ## Writing fields -/

namespace Record

def ofWord (field : Nat) (value : UInt64) : List Record :=
  if value = 0 then [] else [⟨field, .varint value⟩]

def ofInt64 (field : Nat) (value : Int64) : List Record := ofWord field value.toUInt64

/-- A negative number is extended to the full width first. -/
def ofInt32 (field : Nat) (value : Int32) : List Record := ofInt64 field value.toInt64

def ofBool (field : Nat) (value : Bool) : List Record := ofWord field (if value then 1 else 0)

def ofBytes (field : Nat) (bytes : Bytes) : List Record :=
  if bytes = [] then [] else [⟨field, .delimited bytes⟩]

def ofText (field : Nat) (text : String) : List Record := ofBytes field (Text.Utf8.encode text)

/-- A repeated text: every occurrence is written, also an empty one. -/
def ofTexts (field : Nat) (texts : List String) : List Record :=
  texts.map fun text => ⟨field, .delimited (Text.Utf8.encode text)⟩

/-- A nested message, written even when it is empty itself. -/
def ofMessage {α : Type} [Message α] (field : Nat) (message : α) : Record :=
  ⟨field, .delimited (encode message)⟩

def ofOptional {α : Type} [Message α] (field : Nat) (message : Option α) : List Record :=
  (message.map (ofMessage field)).toList

def ofRepeated {α : Type} [Message α] (field : Nat) (messages : List α) : List Record :=
  messages.map (ofMessage field)

/-- Repeated numbers, packed into one record. -/
def ofPacked (field : Nat) (values : List Int32) : List Record :=
  ofBytes field (values.flatMap fun value => Varint.encode value.toInt64.toUInt64)

end Record

end Rehearsal.Wire
