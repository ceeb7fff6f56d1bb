import Rehearsal.Text.Utf8

/-!
# Percent escapes

A text that travels in a header is sent as visible ASCII: every other byte of it, and a few marks,
are written as `%` and two hexadecimal digits.  The sign `%` itself is not escaped, so a text that
already looks escaped arrives changed, and may even arrive as bytes that are no text.
-/

namespace Rehearsal.Text.Percent

/-- The visible characters that are escaped all the same. -/
def marks : List Char := [' ', '"', '#', '<', '>', '`', '?', '\x7b', '\x7d']

/-- Whether a byte is escaped. -/
def isEscaped (byte : UInt8) : Bool :=
  byte < 0x20 || 0x7f ≤ byte || marks.any fun mark => mark.toNat == byte.toNat

/-- The byte of an upper-case hexadecimal digit. -/
def digitByte (digit : Nat) : UInt8 :=
  (if digit < 10 then 48 + digit else 55 + digit).toUInt8

/-- The value of a hexadecimal digit of either case. -/
def digitValue? (byte : UInt8) : Option Nat :=
  let n := byte.toNat
  if 48 ≤ n && n ≤ 57 then some (n - 48)
  else if 65 ≤ n && n ≤ 70 then some (n - 55)
  else if 97 ≤ n && n ≤ 102 then some (n - 87)
  else none

/-- The bytes to send for a text. -/
def escape (bytes : List UInt8) : List UInt8 :=
  bytes.flatMap fun byte =>
    if isEscaped byte then [37, digitByte (byte.toNat / 16), digitByte (byte.toNat % 16)]
    else [byte]

/-- The bytes meant by what was sent.  A `%` without two hexadecimal digits stands for itself. -/
def unescape : List UInt8 → List UInt8
  | [] => []
  | [byte] => [byte]
  | [first, second] => [first, second]
  | first :: second :: third :: rest =>
      match if first == 37 then (digitValue? second, digitValue? third) else (none, none) with
      | (some high, some low) => (16 * high + low).toUInt8 :: unescape rest
      | _ => first :: unescape (second :: third :: rest)

end Rehearsal.Text.Percent
