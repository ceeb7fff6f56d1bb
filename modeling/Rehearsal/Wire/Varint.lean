/-!
# Variable-length integers

A number below `2 ^ 64` is written in groups of seven bits, the lowest first, a byte each; all
bytes but the last have their top bit set.  Reading accepts groups of zeros at the end too, but no
more than ten bytes and no number beyond `2 ^ 64`.
-/

namespace Rehearsal.Wire

/-- The bytes of a message, or of a part of one. -/
abbrev Bytes := List UInt8

namespace Varint

/-- The shortest form of a number. -/
def encodeNat (n : Nat) : Bytes :=
  if n < 128 then [n.toUInt8] else (n % 128 + 128).toUInt8 :: encodeNat (n / 128)
termination_by n

/-- Reads a number from at most `room` bytes. -/
def readNat : (room : Nat) → Bytes → Option (Nat × Bytes)
  | 0, _ => none
  | _ + 1, [] => none
  | room + 1, byte :: rest =>
      if byte.toNat < 128 then some (byte.toNat, rest)
      else (readNat room rest).map fun (high, rest) => (byte.toNat - 128 + 128 * high, rest)

/-- The most bytes a number may take. -/
def maxBytes : Nat := 10

def encode (value : UInt64) : Bytes := encodeNat value.toNat

/-- A number and the bytes after it. -/
def read (bytes : Bytes) : Option (UInt64 × Bytes) := do
  let (n, rest) ← readNat maxBytes bytes
  if n < UInt64.size then return (UInt64.ofNat n, rest) else none

end Varint

end Rehearsal.Wire
