import Rehearsal.Error
import Rehearsal.Text.Utf8

/-!
# Page tokens

A page token is the offset of the page's first item, written in decimal.  The empty token stands
for the start.  `Token.parse` reads a token against the largest offset that is allowed and says
why it refuses one.
-/

namespace Rehearsal.Paging.Token

def limit : Nat := UInt64.size

/-- Said of a token that is not all decimal digits. -/
def notDecimal : String := "must be a non-negative integer"

/-- Said of digits that stand for `limit` or more. -/
def tooLarge : String := "not a valid integer: number too large to fit in target type"

/-- Said of an offset beyond `max`. -/
def beyond (max : Nat) : String := s!"must not exceed {max}"

def value (token : String) : Nat := Nat.ofDigitChars 10 token.toList 0

/-- The offset a token stands for, at most `max`.  Leading zeros are allowed. -/
def parse (token : String) (max : Nat) : Except ServiceError Nat :=
  if token = "" then .ok 0
  else if !token.toList.all Char.isDigit then .error (.invalidPageToken token notDecimal)
  else if limit ≤ value token then .error (.invalidPageToken token tooLarge)
  else if max < value token then .error (.invalidPageToken token (beyond max))
  else .ok (value token)

def ofOffset (offset : Nat) : String := offset.repr

/-! ## Bytes and machine words

`parse` looks at characters and counts with numbers of any size.  A machine looks at bytes and reads
one digit after another into a word.  It gives up as soon as ten times the word is too large, or the
sum of that and the digit. -/

def isDigitByte (byte : UInt8) : Bool := 48 ≤ byte && byte ≤ 57

/-- The product of two words, unless it is too large. -/
def mulWords? (a b : UInt64) : Option UInt64 :=
  if a.toNat * b.toNat < limit then some (a * b) else none

/-- The sum of two words, unless it is too large. -/
def addWords? (a b : UInt64) : Option UInt64 :=
  if a.toNat + b.toNat < limit then some (a + b) else none

/-- The word that has one more digit. -/
def pushDigit? (word : UInt64) (digit : UInt8) : Option UInt64 := do
  addWords? (← mulWords? word 10) (digit - 48).toUInt64

/-- The word that digits stand for, read from left to right. -/
def readWord? (digits : List UInt8) : Option UInt64 := digits.foldlM pushDigit? 0

/-- The same offset as `parse` gives, read from bytes into a word. -/
def parseBytes (token : String) (max : UInt64) : Except ServiceError UInt64 :=
  let bytes := Text.Utf8.encode token
  if bytes.isEmpty then .ok 0
  else if !bytes.all isDigitByte then .error (.invalidPageToken token notDecimal)
  else
    match readWord? bytes with
    | none => .error (.invalidPageToken token tooLarge)
    | some offset =>
        if max < offset then .error (.invalidPageToken token (beyond max.toNat)) else .ok offset

/-! ## Tokens that are accepted -/

theorem parse_empty (max : Nat) : parse "" max = .ok 0 := by
  rw [parse, if_pos rfl]

theorem le_of_parse {token : String} {max offset : Nat} (h : parse token max = .ok offset) :
    offset ≤ max := by
  unfold parse at h
  split at h
  · cases h
    exact Nat.zero_le max
  · split at h
    · cases h
    · split at h
      · cases h
      · split at h
        · cases h
        · cases h
          omega

theorem eq_invalidPageToken_of_parse {token : String} {max : Nat} {error : ServiceError}
    (h : parse token max = .error error) : ∃ reason, error = .invalidPageToken token reason := by
  unfold parse at h
  split at h
  · cases h
  · split at h
    · cases h
      exact ⟨_, rfl⟩
    · split at h
      · cases h
        exact ⟨_, rfl⟩
      · split at h
        · cases h
          exact ⟨_, rfl⟩
        · cases h

theorem ofOffset_ne_empty (offset : Nat) : ofOffset offset ≠ "" := Nat.repr_ne_empty

theorem value_ofOffset (offset : Nat) : value (ofOffset offset) = offset := by
  rw [value, ofOffset, Nat.toList_repr, Nat.ofDigitChars_ten_toDigits]

theorem all_isDigit_ofOffset (offset : Nat) : (ofOffset offset).toList.all Char.isDigit = true := by
  rw [ofOffset, Nat.toList_repr, List.all_eq_true]
  intro digit hmem
  exact Nat.isDigit_of_mem_toDigits (by decide) (by decide) hmem

/-- Digits that stand for a number that fits into a machine word, or nothing. -/
def Valid (token : String) : Prop := token.toList.all Char.isDigit = true ∧ value token < limit

theorem value_empty : value "" = 0 := rfl

theorem valid_empty : Valid "" := ⟨rfl, by decide⟩

theorem valid_ofOffset {offset : Nat} (h : offset < limit) : Valid (ofOffset offset) :=
  ⟨all_isDigit_ofOffset offset, by rwa [value_ofOffset]⟩

/-- A valid token is accepted unless it points beyond `max`. -/
theorem parse_of_valid {token : String} (h : Valid token) (max : Nat) :
    parse token max =
      if max < value token then .error (.invalidPageToken token (beyond max))
      else .ok (value token) := by
  by_cases hempty : token = ""
  · subst hempty
    rw [parse_empty, value_empty, if_neg (Nat.not_lt_zero max)]
  · rw [parse, if_neg hempty, h.1, if_neg (by decide), if_neg (Nat.not_le.2 h.2)]

/-- The token of an offset is accepted, and stands for it. -/
theorem parse_ofOffset {offset max : Nat} (h : offset ≤ max) (hmax : max < limit) :
    parse (ofOffset offset) max = .ok offset := by
  rw [parse_of_valid (valid_ofOffset (Nat.lt_of_le_of_lt h hmax)), value_ofOffset,
    if_neg (Nat.not_lt.2 h)]

end Rehearsal.Paging.Token
