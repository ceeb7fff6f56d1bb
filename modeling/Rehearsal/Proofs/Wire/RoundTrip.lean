import Rehearsal.Wire.Message

/-!
# Records read back

The bytes of records that a message is written with are read as the same records
(`Record.parse_writeAll`), so a message comes back from its bytes if merging its records into the
empty one gives it (`decode_encode`).  The fields of a message are merged one by one: a field at
its default writes nothing and must find its default there.
-/

namespace Rehearsal.Wire

/-! ## Numbers -/

namespace Varint

theorem encodeNat_ne_nil (n : Nat) : encodeNat n ≠ [] := by
  unfold encodeNat
  split
  · exact List.cons_ne_nil _ _
  · exact List.cons_ne_nil _ _

/-- Numbers below this are written in so many bytes. -/
def capacity : (bytes : Nat) → Nat
  | 0 => 1
  | bytes + 1 => 128 * capacity bytes

theorem toNat_toUInt8 {n : Nat} (h : n < 256) : n.toUInt8.toNat = n := by
  simp
  omega

theorem readNat_encodeNat (room n : Nat) (rest : Bytes) (h : n < capacity (room + 1)) :
    readNat (room + 1) (encodeNat n ++ rest) = some (n, rest) := by
  induction room generalizing n with
  | zero =>
      have hlt : n < 128 := h
      rw [encodeNat, if_pos hlt, List.singleton_append, readNat,
        toNat_toUInt8 (show n < 256 by omega), if_pos hlt]
  | succ room ih =>
      rw [encodeNat]
      split
      · rename_i hlt
        rw [List.singleton_append, readNat, toNat_toUInt8 (show n < 256 by omega), if_pos hlt]
      · have hbyte := toNat_toUInt8 (show n % 128 + 128 < 256 by omega)
        have hdiv : n / 128 < capacity (room + 1) := Nat.div_lt_of_lt_mul h
        rw [List.cons_append, readNat, hbyte, ih _ hdiv, if_neg (by omega)]
        simp only [Option.map_some, Option.some.injEq, Prod.mk.injEq, and_true]
        omega

theorem length_encodeNat_le (room n : Nat) (h : n < capacity (room + 1)) :
    (encodeNat n).length ≤ room + 1 := by
  induction room generalizing n with
  | zero =>
      have hlt : n < 128 := h
      rw [encodeNat, if_pos hlt]
      exact Nat.le_refl 1
  | succ room ih =>
      rw [encodeNat]
      split
      · exact Nat.le_add_left 1 (room + 1)
      · exact Nat.succ_le_succ (ih _ (Nat.div_lt_of_lt_mul h))

theorem lt_capacity_ten {n : Nat} (h : n < UInt64.size) : n < capacity 10 :=
  Nat.lt_of_lt_of_le h (by decide)

theorem length_encodeNat_le_ten {n : Nat} (h : n < UInt64.size) : (encodeNat n).length ≤ 10 :=
  length_encodeNat_le 9 n (lt_capacity_ten h)

theorem length_encode_le (value : UInt64) : (encode value).length ≤ 10 :=
  length_encodeNat_le_ten value.toNat_lt

/-- A number is read back from its bytes, whatever follows them. -/
theorem read_encodeNat {n : Nat} (h : n < UInt64.size) (rest : Bytes) :
    read (encodeNat n ++ rest) = some (UInt64.ofNat n, rest) := by
  have hnat : readNat maxBytes (encodeNat n ++ rest) = some (n, rest) :=
    readNat_encodeNat 9 n rest (lt_capacity_ten h)
  simp only [read, hnat, bind, Option.bind, if_pos h, pure]

theorem read_encode (value : UInt64) (rest : Bytes) :
    read (encode value ++ rest) = some (value, rest) := by
  rw [encode, read_encodeNat value.toNat_lt, UInt64.ofNat_toNat]

end Varint

/-! ## Records -/

namespace Record

/-- Field numbers below this leave room for the form in a key. -/
def maxField : Nat := 0x20000000

/-- What a message may be written with: a field number that fits its key, and a payload of one of
two forms, whose length fits a number. -/
def Writable (record : Record) : Prop :=
  (0 < record.field ∧ record.field < maxField) ∧
    match record.payload with
    | .varint _ => True
    | .delimited bytes => bytes.length < UInt64.size
    | _ => False

theorem key_lt {field number : Nat} (hfield : field < maxField) (hnumber : number < 8) :
    8 * field + number < UInt32.size := by
  unfold maxField at hfield
  unfold UInt32.size
  omega

theorem readKey_key {field number : Nat} {wireType : WireType}
    (hfield : 0 < field ∧ field < maxField) (hnumber : number < 8)
    (htype : WireType.ofNat? number = some wireType) (rest : Bytes) :
    readKey (key field number ++ rest) = .ok ((field, wireType), rest) := by
  obtain ⟨hpos, hlt⟩ := hfield
  have hshort := key_lt hlt hnumber
  have hkey : 8 * field + number < UInt64.size := Nat.lt_trans hshort (by decide)
  have hmod : (8 * field + number) % 8 = number := by omega
  have hdiv : (8 * field + number) / 8 = field := by omega
  rw [readKey, key, Varint.read_encodeNat hkey]
  dsimp only
  rw [UInt64.toNat_ofNat_of_lt' hkey, if_neg (Nat.not_le_of_lt hshort), hmod, htype, hdiv]
  exact if_neg (by omega)

theorem takeBytes_append (bytes rest : Bytes) :
    takeBytes bytes.length (bytes ++ rest) = .ok (bytes, rest) := by
  have hlength : ¬ (bytes ++ rest).length < bytes.length := by
    rw [List.length_append]
    omega
  rw [takeBytes, if_neg hlength, List.take_left, List.drop_left]

theorem read_write {record : Record} (h : record.Writable) (rest : Bytes) :
    read (record.write ++ rest) = .ok (record, rest) := by
  obtain ⟨field, payload⟩ := record
  obtain ⟨hfield, hpayload⟩ := h
  cases payload with
  | varint value =>
      have hkey := readKey_key hfield (show 0 < 8 by decide) rfl (Varint.encode value ++ rest)
      rw [write, List.append_assoc, read, hkey]
      simp only [bind, Except.bind, readPayload, Varint.read_encode, pure, Except.pure]
  | delimited bytes =>
      have hbytes : (UInt64.ofNat bytes.length).toNat = bytes.length :=
        UInt64.toNat_ofNat_of_lt' hpayload
      rw [write, List.append_assoc, List.append_assoc, read,
        readKey_key hfield (by decide) rfl]
      simp only [bind, Except.bind, readPayload, Varint.read_encodeNat hpayload, hbytes,
        takeBytes_append, Except.map, pure, Except.pure]
  | sixtyFour _ => exact hpayload.elim
  | group _ => exact hpayload.elim
  | thirtyTwo _ => exact hpayload.elim

theorem write_ne_nil {record : Record} (h : record.Writable) : record.write ≠ [] := by
  obtain ⟨field, payload⟩ := record
  cases payload with
  | varint value => exact List.append_ne_nil_of_left_ne_nil (Varint.encodeNat_ne_nil _) _
  | delimited bytes => exact List.append_ne_nil_of_left_ne_nil (Varint.encodeNat_ne_nil _) _
  | sixtyFour _ => exact h.2.elim
  | group _ => exact h.2.elim
  | thirtyTwo _ => exact h.2.elim

theorem parseWithin_writeAll {records : List Record} (h : ∀ record ∈ records, record.Writable)
    {fuel : Nat} (hfuel : (writeAll records).length ≤ fuel) :
    parseWithin fuel (writeAll records) = .ok records := by
  induction records generalizing fuel with
  | nil =>
      unfold writeAll parseWithin
      cases fuel <;> rfl
  | cons record rest ih =>
      have hrecord := h record List.mem_cons_self
      have hne := write_ne_nil hrecord
      have hpos := List.length_pos_iff.2 hne
      have hbytes : writeAll (record :: rest) = record.write ++ writeAll rest := rfl
      rw [hbytes, List.length_append] at hfuel
      cases fuel with
      | zero => omega
      | succ fuel =>
          have hrest := ih (fun other hmem => h other (List.mem_cons_of_mem _ hmem))
            (show (writeAll rest).length ≤ fuel by omega)
          have hread := read_write hrecord (writeAll rest)
          obtain ⟨byte, bytes, hall⟩ := List.exists_cons_of_ne_nil
            (List.append_ne_nil_of_left_ne_nil hne (writeAll rest))
          rw [hall] at hread
          rw [hbytes, hall]
          simp only [parseWithin, hread, hrest, bind, Except.bind, pure, Except.pure]

/-- Records are read back as they were written. -/
theorem parse_writeAll {records : List Record} (h : ∀ record ∈ records, record.Writable) :
    parse (writeAll records) = .ok records := parseWithin_writeAll h (Nat.le_refl _)

end Record

/-! ## Fields -/

theorem toInt32_varint (value : Int32) :
    (Payload.varint value.toInt64.toUInt64).toInt32 = .ok value := by
  simp [Payload.toInt32, Payload.toWord, Except.map]

theorem toInt64_varint (value : Int64) :
    (Payload.varint value.toUInt64).toInt64 = .ok value := by
  simp [Payload.toInt64, Payload.toWord, Except.map]

theorem toBool_varint (value : Bool) :
    (Payload.varint (if value then 1 else 0)).toBool = .ok value := by
  cases value <;> rfl

theorem toText_delimited (text : String) :
    (Payload.delimited (Text.Utf8.encode text)).toText = .ok text := by
  simp [Payload.toText, Payload.toBytes, Text.Utf8.decode_encode, bind, Except.bind, pure,
    Except.pure]

theorem toWord_eq_zero {value : Int32} (h : value.toInt64.toUInt64 = 0) : value = 0 := by
  have hback := congrArg (fun word : UInt64 => word.toInt64.toInt32) h
  simpa using hback

section

variable {α : Type} {merge : α → Record → Except DecodeError α} {field : Nat} {before : α}
  {message name : String}

theorem mergeAll_append {first second : List Record} {between : α}
    (hfirst : mergeAll merge before first = .ok between) :
    mergeAll merge before (first ++ second) = mergeAll merge between second := by
  unfold mergeAll at hfirst ⊢
  rw [List.foldlM_append, hfirst]
  rfl

theorem mergeAll_single {record : Record} {after : α} (h : merge before record = .ok after) :
    mergeAll merge before [record] = .ok after := by
  unfold mergeAll
  rw [List.foldlM_cons, h]
  rfl

theorem mergeAll_ofWord {value : UInt64} {after : α} (hdefault : value = 0 → after = before)
    (h : merge before ⟨field, .varint value⟩ = .ok after) :
    mergeAll merge before (Record.ofWord field value) = .ok after := by
  unfold Record.ofWord
  split
  · rename_i hzero
    rw [hdefault hzero]
    rfl
  · exact mergeAll_single h

theorem mergeAll_ofBytes {bytes : Bytes} {after : α} (hdefault : bytes = [] → after = before)
    (h : merge before ⟨field, .delimited bytes⟩ = .ok after) :
    mergeAll merge before (Record.ofBytes field bytes) = .ok after := by
  unfold Record.ofBytes
  split
  · rename_i hempty
    rw [hdefault hempty]
    rfl
  · exact mergeAll_single h

theorem mergeAll_ofInt32 (set : Int32 → α)
    (hmerge : ∀ payload : Payload, merge before ⟨field, payload⟩ =
      inField message name do return set (← payload.toInt32))
    (hdefault : set 0 = before) (value : Int32) :
    mergeAll merge before (Record.ofInt32 field value) = .ok (set value) := by
  refine mergeAll_ofWord (fun hzero => ?_) ?_
  · rw [toWord_eq_zero hzero, hdefault]
  · rw [hmerge, toInt32_varint]
    rfl

theorem mergeAll_ofInt64 (set : Int64 → α)
    (hmerge : ∀ payload : Payload, merge before ⟨field, payload⟩ =
      inField message name do return set (← payload.toInt64))
    (hdefault : set 0 = before) (value : Int64) :
    mergeAll merge before (Record.ofInt64 field value) = .ok (set value) := by
  refine mergeAll_ofWord (fun hzero => ?_) ?_
  · have hvalue : value = 0 := by simpa using congrArg UInt64.toInt64 hzero
    rw [hvalue, hdefault]
  · rw [hmerge, toInt64_varint]
    rfl

theorem mergeAll_ofBool (set : Bool → α)
    (hmerge : ∀ payload : Payload, merge before ⟨field, payload⟩ =
      inField message name do return set (← payload.toBool))
    (hdefault : set false = before) (value : Bool) :
    mergeAll merge before (Record.ofBool field value) = .ok (set value) := by
  refine mergeAll_ofWord (fun hzero => ?_) ?_
  · cases value with
    | false => exact hdefault
    | true => cases hzero
  · rw [hmerge, toBool_varint]
    rfl

theorem mergeAll_ofText (set : String → α)
    (hmerge : ∀ payload : Payload, merge before ⟨field, payload⟩ =
      inField message name do return set (← payload.toText))
    (hdefault : set "" = before) (text : String) :
    mergeAll merge before (Record.ofText field text) = .ok (set text) := by
  refine mergeAll_ofBytes (fun hempty => ?_) ?_
  · rw [Text.Utf8.eq_empty_of_encode hempty, hdefault]
  · rw [hmerge, toText_delimited]
    rfl

end

/-! ## Packed numbers -/

/-- The bytes of numbers in one payload. -/
def pack (values : List Int32) : Bytes :=
  values.flatMap fun value => Varint.encode value.toInt64.toUInt64

theorem length_pack_le (values : List Int32) : (pack values).length ≤ 10 * values.length := by
  induction values with
  | nil => exact Nat.le_refl 0
  | cons value rest ih =>
      have hvalue := Varint.length_encode_le value.toInt64.toUInt64
      have hpack : pack (value :: rest) = Varint.encode value.toInt64.toUInt64 ++ pack rest := rfl
      rw [hpack, List.length_append, List.length_cons]
      omega

theorem unpackInt32s_pack (values : List Int32) {fuel : Nat} (hfuel : (pack values).length ≤ fuel) :
    Payload.unpackInt32s fuel (pack values) = .ok values := by
  induction values generalizing fuel with
  | nil =>
      unfold pack Payload.unpackInt32s
      cases fuel <;> rfl
  | cons value rest ih =>
      have hpack : pack (value :: rest) = Varint.encode value.toInt64.toUInt64 ++ pack rest := rfl
      have hne : Varint.encode value.toInt64.toUInt64 ≠ [] := Varint.encodeNat_ne_nil _
      have hpos := List.length_pos_iff.2 hne
      rw [hpack, List.length_append] at hfuel
      cases fuel with
      | zero => omega
      | succ fuel =>
          have hread := Varint.read_encode value.toInt64.toUInt64 (pack rest)
          obtain ⟨byte, bytes, hall⟩ := List.exists_cons_of_ne_nil
            (List.append_ne_nil_of_left_ne_nil hne (pack rest))
          rw [hall] at hread
          rw [hpack, hall]
          simp only [Payload.unpackInt32s, hread, ih (show (pack rest).length ≤ fuel by omega)]
          simp [Except.map]

theorem eq_nil_of_pack {values : List Int32} (h : pack values = []) : values = [] := by
  have hback := unpackInt32s_pack values (Nat.le_refl _)
  rw [h] at hback
  exact (Except.ok.inj hback).symm

theorem mergeAll_ofPacked {α : Type} {merge : α → Record → Except DecodeError α} {field : Nat}
    {before : α} {message name : String} (set : List Int32 → α)
    (hmerge : ∀ payload : Payload, merge before ⟨field, payload⟩ =
      inField message name do return set (← payload.toInt32s))
    (hdefault : set [] = before) (values : List Int32) :
    mergeAll merge before (Record.ofPacked field values) = .ok (set values) := by
  refine mergeAll_ofBytes (fun hempty => ?_) ?_
  · rw [eq_nil_of_pack hempty, hdefault]
  · have hunpack : (Payload.delimited (pack values)).toInt32s = .ok values :=
      unpackInt32s_pack values (Nat.le_refl _)
    rw [hmerge]
    show (inField message name do return set (← (Payload.delimited (pack values)).toInt32s)) = _
    rw [hunpack]
    rfl

/-! ## Messages -/

/-- A message comes back from its bytes if its records make it out of the empty message. -/
theorem decode_encode {α : Type} [Message α] {message : α}
    (hwritable : ∀ record ∈ Message.records message, record.Writable)
    (hmerge : mergeAll (Message.merge maxDepth) Message.empty (Message.records message) =
      .ok message) : decode α (encode message) = .ok message := by
  unfold decode mergeBytes encode
  rw [Record.parse_writeAll hwritable]
  exact hmerge

/-- A message that comes back from its records wherever there is room for the `depth` levels of
messages inside it, and that may stand in another message itself. -/
structure Readable {α : Type} [Message α] (depth : Nat) (message : α) : Prop where
  writable : ∀ record ∈ Message.records message, record.Writable
  short : (encode message).length < UInt64.size
  merged : ∀ room, depth ≤ room →
    mergeAll (Message.merge room) Message.empty (Message.records message) = .ok message

namespace Readable

variable {β : Type} [Message β] {depth room field : Nat} {inner : β}

theorem decode_encode (h : Readable depth inner) (hdepth : depth ≤ maxDepth) :
    decode β (encode inner) = .ok inner :=
  Wire.decode_encode h.writable (h.merged maxDepth hdepth)

theorem into (h : Readable depth inner) (hroom : depth < room) :
    (Payload.delimited (encode inner)).into room Message.merge Message.empty = .ok inner := by
  cases room with
  | zero => cases hroom
  | succ room =>
      show mergeBytes (Message.merge room) Message.empty (encode inner) = .ok inner
      unfold mergeBytes encode
      rw [Record.parse_writeAll h.writable]
      exact h.merged room (Nat.le_of_lt_succ hroom)

theorem writable_ofMessage (h : Readable depth inner)
    (hfield : 0 < field ∧ field < Record.maxField) : (Record.ofMessage field inner).Writable :=
  ⟨hfield, h.short⟩

section

variable {α : Type} {merge : α → Record → Except DecodeError α} {before : α}
  {message name : String}

theorem mergeAll_ofMessage (h : Readable depth inner) (hroom : depth < room) (set : β → α)
    (hmerge : ∀ payload : Payload, merge before ⟨field, payload⟩ =
      inField message name do return set (← payload.into room Message.merge Message.empty)) :
    mergeAll merge before [Record.ofMessage field inner] = .ok (set inner) := by
  apply mergeAll_single
  rw [Record.ofMessage, hmerge, h.into hroom]
  rfl

theorem mergeAll_ofOptional {nested : Option β} (h : ∀ inner ∈ nested, Readable depth inner)
    (hroom : depth < room) (set : Option β → α)
    (hmerge : ∀ payload : Payload, merge before ⟨field, payload⟩ =
      inField message name do return set (← mergeOptional room none payload))
    (hdefault : set none = before) :
    mergeAll merge before (Record.ofOptional field nested) = .ok (set nested) := by
  cases nested with
  | none =>
      rw [hdefault]
      rfl
  | some inner =>
      have hnested : mergeOptional room none (.delimited (encode inner)) = .ok (some inner) :=
        congrArg (Except.map some) ((h inner rfl).into hroom)
      apply mergeAll_single
      rw [Record.ofMessage, hmerge, hnested]
      rfl

end

end Readable

namespace Record

variable {field : Nat}

theorem writable_of_mem_ofWord (hfield : 0 < field ∧ field < maxField) {value : UInt64}
    {record : Record} (h : record ∈ ofWord field value) : record.Writable := by
  unfold ofWord at h
  split at h
  · cases h
  · rw [List.mem_singleton.1 h]
    exact ⟨hfield, trivial⟩

theorem writable_of_mem_ofBytes (hfield : 0 < field ∧ field < maxField) {bytes : Bytes}
    (hbytes : bytes.length < UInt64.size) {record : Record} (h : record ∈ ofBytes field bytes) :
    record.Writable := by
  unfold ofBytes at h
  split at h
  · cases h
  · rw [List.mem_singleton.1 h]
    exact ⟨hfield, hbytes⟩

theorem writeAll_append (first second : List Record) :
    writeAll (first ++ second) = writeAll first ++ writeAll second := List.flatMap_append

theorem length_key_le {number : Nat} (hfield : field < maxField) (hnumber : number < 8) :
    (key field number).length ≤ 10 := 
  Varint.length_encodeNat_le_ten (Nat.lt_trans (key_lt hfield hnumber) (by decide))

theorem length_writeAll_ofWord_le (hfield : field < maxField) (value : UInt64) :
    (writeAll (ofWord field value)).length ≤ 20 := by
  unfold ofWord
  split
  · exact Nat.zero_le 20
  · have hkey := length_key_le hfield (show 0 < 8 by decide)
    have hvalue := Varint.length_encode_le value
    simp only [writeAll, write, List.flatMap_cons, List.flatMap_nil, List.length_append,
      List.length_nil]
    omega

theorem length_write_delimited_le (hfield : field < maxField) {bytes : Bytes}
    (hbytes : bytes.length < UInt64.size) :
    (write ⟨field, .delimited bytes⟩).length ≤ 20 + bytes.length := by
  have hkey := length_key_le hfield (show 2 < 8 by decide)
  have hlength := Varint.length_encodeNat_le_ten hbytes
  simp only [write, List.length_append]
  omega

theorem length_writeAll_singleton (record : Record) :
    (writeAll [record]).length = record.write.length := by
  simp [writeAll]

theorem length_writeAll_ofBytes_le (hfield : field < maxField) {bytes : Bytes}
    (hbytes : bytes.length < UInt64.size) :
    (writeAll (ofBytes field bytes)).length ≤ 20 + bytes.length := by
  unfold ofBytes
  split
  · exact Nat.zero_le _
  · rw [length_writeAll_singleton]
    exact length_write_delimited_le hfield hbytes

end Record

/-! ## Messages of few fields -/

namespace Readable

section

variable {β : Type} [Message β] {depth field : Nat} (hfield : 0 < field ∧ field < Record.maxField)
include hfield

theorem writable_of_mem_ofOptional {nested : Option β} (h : ∀ inner ∈ nested, Readable depth inner)
    {record : Record} (hrecord : record ∈ Record.ofOptional field nested) : record.Writable := by
  cases nested with
  | none => cases hrecord
  | some inner =>
      rw [List.mem_singleton.1 hrecord]
      exact (h inner rfl).writable_ofMessage hfield

theorem writable_of_mem_ofRepeated {nested : List β} (h : ∀ inner ∈ nested, Readable depth inner)
    {record : Record} (hrecord : record ∈ Record.ofRepeated field nested) : record.Writable := by
  obtain ⟨inner, hinner, rfl⟩ := List.mem_map.1 hrecord
  exact (h inner hinner).writable_ofMessage hfield

end

/-- Messages in a field that may hold several come back one after another. -/
theorem mergeAll_ofRepeated {α β : Type} [Message β] {depth room field : Nat}
    {merge : α → Record → Except DecodeError α} {message name : String} (set : List β → α)
    (hroom : depth < room)
    (hmerge : ∀ before payload, merge (set before) ⟨field, payload⟩ =
      inField message name do return set (← mergeRepeated room before payload))
    {nested : List β} (h : ∀ inner ∈ nested, Readable depth inner) (before : List β) :
    mergeAll merge (set before) (Record.ofRepeated field nested) =
      .ok (set (before ++ nested)) := by
  induction nested generalizing before with
  | nil =>
      rw [List.append_nil]
      rfl
  | cons inner rest ih =>
      have hrest := ih (fun other hother => h other (List.mem_cons_of_mem _ hother))
        (before ++ [inner])
      have hread : mergeRepeated room before (.delimited (encode inner)) =
          .ok (before ++ [inner]) :=
        congrArg (Except.map fun read => before ++ [read]) ((h inner List.mem_cons_self).into hroom)
      have hfirst : mergeAll merge (set before) [Record.ofMessage field inner] =
          .ok (set (before ++ [inner])) := by
        apply mergeAll_single
        rw [Record.ofMessage, hmerge, hread]
        rfl
      rw [List.append_assoc] at hrest
      exact (mergeAll_append hfirst).trans hrest

variable {α : Type} [Message α] {message first second : String}

/-- A message with nothing but a text in it. -/
theorem of_text (make : String → α)
    (hrecords : ∀ text, Message.records (make text) = Record.ofText 1 text)
    (hempty : Message.empty = make "")
    (hmerge : ∀ room payload, Message.merge room (make "") ⟨1, payload⟩ =
      inField message first do return make (← payload.toText)) {text : String}
    (h : (Text.Utf8.encode text).length < 0x8000000000000000) : Readable 0 (make text) where
  writable record hrecord := by
    rw [hrecords] at hrecord
    exact Record.writable_of_mem_ofBytes (by decide) (Nat.lt_trans h (by decide)) hrecord
  short := by
    have hlength := Record.length_writeAll_ofBytes_le (show 1 < Record.maxField by decide)
      (Nat.lt_trans h (show _ < UInt64.size by decide))
    rw [encode, hrecords, Record.ofText]
    unfold UInt64.size
    omega
  merged room _ := by
    rw [hrecords, hempty]
    exact mergeAll_ofText make (hmerge room) rfl text

/-- A message with nothing but two numbers in it. -/
theorem of_parts (make : Int64 → Int32 → α)
    (hrecords : ∀ long short,
      Message.records (make long short) = Record.ofInt64 1 long ++ Record.ofInt32 2 short)
    (hempty : Message.empty = make 0 0)
    (hlong : ∀ room payload, Message.merge room (make 0 0) ⟨1, payload⟩ =
      inField message first do return make (← payload.toInt64) 0)
    (hshort : ∀ room long payload, Message.merge room (make long 0) ⟨2, payload⟩ =
      inField message second do return make long (← payload.toInt32))
    (long : Int64) (short : Int32) : Readable 0 (make long short) where
  writable record hrecord := by
    rw [hrecords] at hrecord
    rcases List.mem_append.1 hrecord with hrecord | hrecord
    · exact Record.writable_of_mem_ofWord (by decide) hrecord
    · exact Record.writable_of_mem_ofWord (by decide) hrecord
  short := by
    have hfirst := Record.length_writeAll_ofWord_le (show 1 < Record.maxField by decide)
      long.toUInt64
    have hsecond := Record.length_writeAll_ofWord_le (show 2 < Record.maxField by decide)
      short.toInt64.toUInt64
    simp only [encode, hrecords, Record.writeAll_append, List.length_append, Record.ofInt64,
      Record.ofInt32]
    unfold UInt64.size
    omega
  merged room _ := by
    rw [hrecords, hempty]
    have hfirst := mergeAll_ofInt64 (make · 0) (hlong room) rfl long
    have hsecond := mergeAll_ofInt32 (make long) (hshort room long) rfl short
    exact (mergeAll_append hfirst).trans hsecond

end Readable

end Rehearsal.Wire
