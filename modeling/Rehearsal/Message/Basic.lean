import Rehearsal.Wire.Message

/-!
# Messages of general use

Durations, timestamps, statuses, packed messages of any type, and the empty message.
-/

namespace Rehearsal.Message

open Wire

/-- A length of time in two parts. -/
structure Duration where
  seconds : Int64 := 0
  nanos : Int32 := 0
  deriving DecidableEq, Repr, Inhabited

instance : Wire.Message Duration where
  empty := {}
  merge room message record :=
    match record.field with
    | 1 => inField "Duration" "seconds" do
        return { message with seconds := ← record.payload.toInt64 }
    | 2 => inField "Duration" "nanos" do
        return { message with nanos := ← record.payload.toInt32 }
    | _ => record.payload.skip room message
  records message := Record.ofInt64 1 message.seconds ++ Record.ofInt32 2 message.nanos

/-- A point in time in two parts, counted from the epoch. -/
structure Timestamp where
  seconds : Int64 := 0
  nanos : Int32 := 0
  deriving DecidableEq, Repr, Inhabited

instance : Wire.Message Timestamp where
  empty := {}
  merge room message record :=
    match record.field with
    | 1 => inField "Timestamp" "seconds" do
        return { message with seconds := ← record.payload.toInt64 }
    | 2 => inField "Timestamp" "nanos" do
        return { message with nanos := ← record.payload.toInt32 }
    | _ => record.payload.skip room message
  records message := Record.ofInt64 1 message.seconds ++ Record.ofInt32 2 message.nanos

/-- The bytes of a message together with the name of its type. -/
structure Packed where
  typeUrl : String := ""
  value : Bytes := []
  deriving DecidableEq, Repr, Inhabited

instance : Wire.Message Packed where
  empty := {}
  merge room message record :=
    match record.field with
    | 1 => inField "Any" "type_url" do
        return { message with typeUrl := ← record.payload.toText }
    | 2 => inField "Any" "value" do
        return { message with value := ← record.payload.toBytes }
    | _ => record.payload.skip room message
  records message := Record.ofText 1 message.typeUrl ++ Record.ofBytes 2 message.value

/-- A status with details that nobody here reads. -/
structure StatusMessage where
  code : Int32 := 0
  message : String := ""
  details : List Packed := []
  deriving DecidableEq, Repr, Inhabited

instance : Wire.Message StatusMessage where
  empty := {}
  merge room message record :=
    match record.field with
    | 1 => inField "Status" "code" do
        return { message with code := ← record.payload.toInt32 }
    | 2 => inField "Status" "message" do
        return { message with message := ← record.payload.toText }
    | 3 => inField "Status" "details" do
        return { message with details := ← mergeRepeated room message.details record.payload }
    | _ => record.payload.skip room message
  records message :=
    Record.ofInt32 1 message.code ++ Record.ofText 2 message.message ++
      Record.ofRepeated 3 message.details

/-- A message without fields. -/
structure Nothing where
  deriving DecidableEq, Repr, Inhabited

instance : Wire.Message Nothing where
  empty := {}
  merge room message record := record.payload.skip room message
  records _ := []

end Rehearsal.Message
