import Rehearsal.Wire.Varint

/-!
# Records of a message

A message on the wire is a sequence of records, each a field number and a payload of one of five
forms.  `Record.write` and `Record.parse` go between records and bytes without knowing the message
they belong to.  Groups are an old form of nesting: they are read, so that they can be skipped, but
never written.
-/

namespace Rehearsal.Wire

/-- How the payload of a record is laid out. -/
inductive WireType where
  | varint
  | sixtyFourBit
  | lengthDelimited
  | startGroup
  | endGroup
  | thirtyTwoBit
  deriving DecidableEq, Repr

namespace WireType

def ofNat? : Nat → Option WireType
  | 0 => some varint
  | 1 => some sixtyFourBit
  | 2 => some lengthDelimited
  | 3 => some startGroup
  | 4 => some endGroup
  | 5 => some thirtyTwoBit
  | _ => none

def name : WireType → String
  | varint => "Varint"
  | sixtyFourBit => "SixtyFourBit"
  | lengthDelimited => "LengthDelimited"
  | startGroup => "StartGroup"
  | endGroup => "EndGroup"
  | thirtyTwoBit => "ThirtyTwoBit"

end WireType

/-- Why bytes are no message. -/
inductive DecodeFault where
  | badVarint
  | badKey (key : Nat)
  | badWireType (number : Nat)
  | zeroField
  | groupEnd
  /-- Fewer bytes are left than the record needs. -/
  | underflow
  | tooDeep
  | wrongWireType (found expected : WireType)
  | notUtf8
  deriving DecidableEq, Repr

/-- The text of a fault. -/
def DecodeFault.message : DecodeFault → String
  | badVarint => "invalid varint"
  | badKey key => s!"invalid key value: {key}"
  | badWireType number => s!"invalid wire type value: {number}"
  | zeroField => "invalid tag value: 0"
  | groupEnd => "unexpected end group tag"
  | underflow => "buffer underflow"
  | tooDeep => "recursion limit reached"
  | wrongWireType found expected =>
      s!"invalid wire type: {found.name} (expected {expected.name})"
  | notUtf8 => "invalid string value: data is not UTF-8 encoded"

/-- The contents of a record. -/
inductive Payload where
  | varint (value : UInt64)
  | sixtyFour (bytes : Bytes)
  | delimited (bytes : Bytes)
  /-- A group, of which only the depth of its nesting is kept. -/
  | group (depth : Nat)
  | thirtyTwo (bytes : Bytes)
  deriving DecidableEq, Repr

namespace Payload

def wireType : Payload → WireType
  | varint _ => .varint
  | sixtyFour _ => .sixtyFourBit
  | delimited _ => .lengthDelimited
  | group _ => .startGroup
  | thirtyTwo _ => .thirtyTwoBit

/-- How many levels of nesting it takes to skip the payload. -/
def depth : Payload → Nat
  | group depth => depth
  | _ => 1

end Payload

/-- A field number and its payload. -/
structure Record where
  field : Nat
  payload : Payload
  deriving DecidableEq, Repr

namespace Record

/-! ## Writing -/

/-- The key of a record: its field number and the number of its form. -/
def key (field : Nat) (wireType : Nat) : Bytes := Varint.encodeNat (8 * field + wireType)

/-- The bytes of a record.  Only the two forms that messages are written with have any. -/
def write (record : Record) : Bytes :=
  match record.payload with
  | .varint value => key record.field 0 ++ Varint.encode value
  | .delimited bytes => key record.field 2 ++ (Varint.encodeNat bytes.length ++ bytes)
  | _ => []

/-- The bytes of records in order. -/
def writeAll (records : List Record) : Bytes := records.flatMap write

/-! ## Reading -/

/-- Field number and form of the record that begins here. -/
def readKey (bytes : Bytes) : Except DecodeFault ((Nat × WireType) × Bytes) :=
  match Varint.read bytes with
  | none => .error .badVarint
  | some (value, rest) =>
      let key := value.toNat
      if UInt32.size ≤ key then .error (.badKey key)
      else
        match WireType.ofNat? (key % 8) with
        | none => .error (.badWireType (key % 8))
        | some wireType =>
            if key / 8 = 0 then .error .zeroField else .ok ((key / 8, wireType), rest)

/-- The next `count` bytes and those after them. -/
def takeBytes (count : Nat) (bytes : Bytes) : Except DecodeFault (Bytes × Bytes) :=
  if bytes.length < count then .error .underflow else .ok (bytes.take count, bytes.drop count)

mutual

/-- The payload that begins here.  `fuel` bounds the keys inside groups. -/
def readPayload (fuel field : Nat) (wireType : WireType) (bytes : Bytes) :
    Except DecodeFault (Payload × Bytes) :=
  match wireType with
  | .varint =>
      match Varint.read bytes with
      | none => .error .badVarint
      | some (value, rest) => .ok (.varint value, rest)
  | .sixtyFourBit => (takeBytes 8 bytes).map fun (taken, rest) => (.sixtyFour taken, rest)
  | .lengthDelimited =>
      match Varint.read bytes with
      | none => .error .badVarint
      | some (length, rest) =>
          (takeBytes length.toNat rest).map fun (taken, rest) => (.delimited taken, rest)
  | .startGroup => (readGroup fuel field bytes).map fun (depth, rest) => (.group (depth + 1), rest)
  | .endGroup => .error .groupEnd
  | .thirtyTwoBit => (takeBytes 4 bytes).map fun (taken, rest) => (.thirtyTwo taken, rest)
termination_by (fuel, 1)

/-- The depth of what a group holds, up to the end of the group of that field number. -/
def readGroup (fuel field : Nat) (bytes : Bytes) : Except DecodeFault (Nat × Bytes) :=
  match fuel with
  | 0 => .error .underflow
  | fuel + 1 => do
      let ((inner, wireType), rest) ← readKey bytes
      if wireType = .endGroup then
        if inner = field then return (0, rest) else throw .groupEnd
      let (payload, rest) ← readPayload fuel inner wireType rest
      let (depth, rest) ← readGroup fuel field rest
      return (max payload.depth depth, rest)
termination_by (fuel, 0)

end

/-- The record that begins here. -/
def read (bytes : Bytes) : Except DecodeFault (Record × Bytes) := do
  let ((field, wireType), rest) ← readKey bytes
  let (payload, rest) ← readPayload rest.length field wireType rest
  return (⟨field, payload⟩, rest)

/-- At most `fuel` records, up to the end of the bytes. -/
def parseWithin : (fuel : Nat) → Bytes → Except DecodeFault (List Record)
  | _, [] => .ok []
  | 0, _ :: _ => .error .underflow
  | fuel + 1, byte :: bytes => do
      let (record, rest) ← read (byte :: bytes)
      let records ← parseWithin fuel rest
      return record :: records

/-- The records that bytes consist of.  Every record takes at least one byte, so their number is
no more than that of the bytes. -/
def parse (bytes : Bytes) : Except DecodeFault (List Record) := parseWithin bytes.length bytes

end Record

end Rehearsal.Wire
