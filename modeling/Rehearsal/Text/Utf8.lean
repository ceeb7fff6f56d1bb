/-!
# UTF-8

Texts as bytes.  `decode` accepts exactly the bytes of some text; where it refuses, `fault?` finds
the first place at which the bytes stop being UTF-8.
-/

namespace Rehearsal.Text.Utf8

/-- The bytes of a text. -/
def encode (text : String) : List UInt8 := text.toUTF8.data.toList

/-- The text with given bytes, if they are UTF-8. -/
def decode (bytes : List UInt8) : Option String := String.fromUTF8? ⟨bytes.toArray⟩

theorem decode_encode (text : String) : decode (encode text) = some text := by
  have h : (⟨(encode text).toArray⟩ : ByteArray) = text.toByteArray := by simp [encode]
  rw [decode, h, String.fromUTF8?, dif_pos]
  rfl

theorem encode_eq_flatMap (text : String) :
    encode text = text.toList.flatMap String.utf8EncodeChar := by
  rw [encode, String.toUTF8_eq_toByteArray, ← String.utf8Encode_toList, List.utf8Encode,
    List.data_toByteArray]

theorem eq_empty_of_encode {text : String} (h : encode text = []) : text = "" := by
  have hback := decode_encode text
  rw [h, ← show encode "" = [] from rfl, decode_encode] at hback
  exact (Option.some.inj hback).symm

theorem length_encode_ofList_le (chars : List Char) :
    (encode (String.ofList chars)).length ≤ 4 * chars.length := by
  have hsize : (String.ofList chars).utf8ByteSize ≤ 4 * chars.length := by
    induction chars with
    | nil => exact Nat.le_refl 0
    | cons char rest ih =>
        have hchar := char.utf8Size_le_four
        rw [String.ofList_cons, String.utf8ByteSize_append, String.utf8ByteSize_singleton,
          List.length_cons]
        omega
  exact hsize

/-- Where and how bytes stop being UTF-8. -/
inductive Fault where
  /-- The bytes end inside the character that begins at `index`. -/
  | incomplete (index : Nat)
  /-- The `length` bytes from `index` on begin no character. -/
  | invalid (length index : Nat)
  deriving DecidableEq, Repr

/-- The text of a fault. -/
def Fault.message : Fault → String
  | incomplete index => s!"incomplete utf-8 byte sequence from index {index}"
  | invalid length index => s!"invalid utf-8 sequence of {length} bytes from index {index}"

/-- The ranges of the bytes that may follow a first byte, or nothing if no character of several
bytes begins with it. -/
def followers (first : UInt8) : Option (List (UInt8 × UInt8)) :=
  let tail : UInt8 × UInt8 := (0x80, 0xbf)
  if 0xc2 ≤ first && first ≤ 0xdf then some [tail]
  else if first == 0xe0 then some [(0xa0, 0xbf), tail]
  else if first == 0xed then some [(0x80, 0x9f), tail]
  else if 0xe1 ≤ first && first ≤ 0xef then some [tail, tail]
  else if first == 0xf0 then some [(0x90, 0xbf), tail, tail]
  else if 0xf1 ≤ first && first ≤ 0xf3 then some [tail, tail, tail]
  else if first == 0xf4 then some [(0x80, 0x8f), tail, tail]
  else none

/-- The first fault of bytes that continue a character.  `index` is where the character begins,
`count` how many of its bytes have been read and `expected` the ranges of those still to come. -/
def faultFrom (index count : Nat) (expected : List (UInt8 × UInt8)) :
    List UInt8 → Option Fault
  | [] => if expected.isEmpty then none else some (.incomplete index)
  | byte :: rest =>
      match expected with
      | (low, high) :: later =>
          if low ≤ byte && byte ≤ high then faultFrom index (count + 1) later rest
          else some (.invalid count index)
      | [] =>
          if byte < 0x80 then faultFrom (index + count) 1 [] rest
          else
            match followers byte with
            | some ranges => faultFrom (index + count) 1 ranges rest
            | none => some (.invalid 1 (index + count))

/-- The first fault of some bytes. -/
def fault? (bytes : List UInt8) : Option Fault := faultFrom 0 0 [] bytes

end Rehearsal.Text.Utf8
