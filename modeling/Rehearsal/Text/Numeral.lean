/-!
# Numerals

Decimal numbers as they are given on a command line: an optional sign, then digits.
-/

namespace Rehearsal.Text

/-- The number that decimal digits stand for, if there is at least one and nothing else. -/
def readDigits? (digits : List Char) : Option Nat :=
  if digits.isEmpty || !digits.all Char.isDigit then none else some (Nat.ofDigitChars 10 digits 0)

/-- A number without sign, or with a plus sign. -/
def readNat? (text : String) : Option Nat :=
  match text.toList with
  | '+' :: digits => readDigits? digits
  | digits => readDigits? digits

/-- A number with or without sign. -/
def readInt? (text : String) : Option Int :=
  match text.toList with
  | '-' :: digits => (readDigits? digits).map fun n => -n
  | '+' :: digits => (readDigits? digits).map Int.ofNat
  | digits => (readDigits? digits).map Int.ofNat

end Rehearsal.Text
