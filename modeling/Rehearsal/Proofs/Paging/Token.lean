import Rehearsal.Operation.Book
import Rehearsal.Paging.Page
import Mathlib.Data.Nat.Digits.Defs

/-!
# Page tokens are decimal offsets

A token denotes a number if its bytes are decimal digits, at least one, that have this value
(`Token.Denotes`).  Such a token is accepted if the number is within bounds; every other token but
the empty one is refused for the first fault it has (`Token.Refused`).  Reading the bytes into a
machine word comes to the same (`Token.parseBytes_eq`): leading zeros are never too large, whatever
their number.  So tokens that denote the same number get the same page.
-/

namespace Rehearsal

open Text.Utf8 (encode encode_eq_flatMap)

namespace Paging.Token

/-! ## Digits as bytes -/

theorem isDigit_iff (c : Char) : c.isDigit = true ↔ 48 ≤ c.toNat ∧ c.toNat ≤ 57 := by
  rw [Char.isDigit, Bool.and_eq_true, decide_eq_true_iff, decide_eq_true_iff]
  exact Iff.rfl

theorem isDigitByte_ofNat {n : Nat} (h : n < 256) :
    isDigitByte (.ofNat n) = true ↔ 48 ≤ n ∧ n ≤ 57 := by
  have hn : (UInt8.ofNat n).toNat = n := UInt8.toNat_ofNat_of_lt' h
  rw [isDigitByte, Bool.and_eq_true, decide_eq_true_iff, decide_eq_true_iff,
    UInt8.le_iff_toNat_le, UInt8.le_iff_toNat_le, hn]
  exact Iff.rfl

theorem utf8EncodeChar_of_isDigit {c : Char} (h : c.isDigit = true) :
    String.utf8EncodeChar c = [c.toUInt8] := by
  have hdigit := (isDigit_iff c).1 h
  have hsmall : c.val ≤ 127 := UInt32.le_iff_toNat_le.2 (Nat.le_trans hdigit.2 (by decide))
  exact String.utf8EncodeChar_eq_singleton (Char.utf8Size_eq_one_iff.2 hsmall)

/-- A character that takes several bytes is no digit, and does not begin with the byte of one. -/
theorem all_isDigitByte_utf8EncodeChar (c : Char) :
    (String.utf8EncodeChar c).all isDigitByte = c.isDigit := by
  rw [Bool.eq_iff_iff, isDigit_iff]
  show _ ↔ 48 ≤ c.val.toNat ∧ c.val.toNat ≤ 57
  unfold String.utf8EncodeChar
  dsimp only
  generalize c.val.toNat = v
  split
  · rw [List.all_cons, List.all_nil, Bool.and_true, isDigitByte_ofNat (by omega)]
  · split
    · rw [List.all_cons, Bool.and_eq_true, isDigitByte_ofNat (by omega)]
      omega
    · split
      · rw [List.all_cons, Bool.and_eq_true, isDigitByte_ofNat (by omega)]
        omega
      · rw [List.all_cons, Bool.and_eq_true, isDigitByte_ofNat (by omega)]
        omega

theorem all_isDigitByte_encode (token : String) :
    (encode token).all isDigitByte = token.toList.all Char.isDigit := by
  rw [encode_eq_flatMap, List.all_flatMap]
  exact congrArg token.toList.all (funext all_isDigitByte_utf8EncodeChar)

theorem encode_of_digits {token : String} (h : token.toList.all Char.isDigit = true) :
    encode token = token.toList.map Char.toUInt8 := by
  have hbytes : ∀ c ∈ token.toList, String.utf8EncodeChar c = [c.toUInt8] := fun c hmem =>
    utf8EncodeChar_of_isDigit (List.all_eq_true.1 h c hmem)
  rw [encode_eq_flatMap, List.map_eq_flatMap, List.flatMap_def, List.flatMap_def,
    List.map_congr_left hbytes]

theorem toNat_toUInt8_of_isDigit {c : Char} (h : c.isDigit = true) :
    c.toUInt8.toNat = c.toNat := by
  have hdigit := (isDigit_iff c).1 h
  exact Nat.mod_eq_of_lt (Nat.lt_of_le_of_lt hdigit.2 (by decide))

/-! ## Digits read into a word -/

/-- The value of what has been read does not shrink with further digits. -/
theorem le_ofDigitChars (chars : List Char) (start : Nat) :
    start ≤ Nat.ofDigitChars 10 chars start := by
  induction chars generalizing start with
  | nil => exact Nat.le_refl start
  | cons c rest ih =>
      have hrest := ih (10 * start + (c.toNat - '0'.toNat))
      rw [Nat.ofDigitChars_cons]
      omega

theorem pushDigit?_of_isDigit {c : Char} (h : c.isDigit = true) (word : UInt64) :
    pushDigit? word c.toUInt8 =
      if 10 * word.toNat + (c.toNat - '0'.toNat) < limit then
        some (.ofNat (10 * word.toNat + (c.toNat - '0'.toNat)))
      else none := by
  have hdigit := (isDigit_iff c).1 h
  have hbyte := toNat_toUInt8_of_isDigit h
  have hzero : '0'.toNat = 48 := rfl
  have hlimit : limit = 0x10000000000000000 := rfl
  have hlast : (c.toUInt8 - 48).toUInt64.toNat = c.toNat - 48 := by
    rw [UInt8.toNat_toUInt64, UInt8.toNat_sub_of_le, hbyte]
    · rfl
    · rw [UInt8.le_iff_toNat_le, hbyte]
      exact hdigit.1
  rw [pushDigit?, mulWords?, show (10 : UInt64).toNat = 10 from rfl, hzero]
  by_cases htens : word.toNat * 10 < limit
  · have hproduct : (word * 10).toNat = word.toNat * 10 := by
      rw [UInt64.toNat_mul]
      exact Nat.mod_eq_of_lt htens
    rw [if_pos htens]
    show addWords? (word * 10) _ = _
    rw [addWords?, hproduct, hlast, Nat.mul_comm word.toNat 10]
    by_cases hsum : 10 * word.toNat + (c.toNat - 48) < limit
    · rw [if_pos hsum, if_pos hsum, Option.some.injEq, ← UInt64.toNat_inj,
        UInt64.toNat_ofNat_of_lt' hsum, UInt64.toNat_add, hproduct, hlast, Nat.mul_comm]
      exact Nat.mod_eq_of_lt hsum
    · rw [if_neg hsum, if_neg hsum]
  · rw [if_neg htens, if_neg (by omega)]
    rfl

/-- Reading digits on from a word gives their value after the word, or nothing if that is too large:
what is too large after some digits stays so. -/
theorem foldlM_pushDigit? {chars : List Char} (h : chars.all Char.isDigit = true)
    (word : UInt64) :
    (chars.map Char.toUInt8).foldlM pushDigit? word =
      if Nat.ofDigitChars 10 chars word.toNat < limit then
        some (.ofNat (Nat.ofDigitChars 10 chars word.toNat))
      else none := by
  induction chars generalizing word with
  | nil =>
      have hword : word.toNat < limit := word.toNat_lt_size
      rw [Nat.ofDigitChars_nil, if_pos hword, UInt64.ofNat_toNat]
      rfl
  | cons c rest ih =>
      rw [List.all_cons, Bool.and_eq_true] at h
      rw [List.map_cons, List.foldlM_cons, pushDigit?_of_isDigit h.1, Nat.ofDigitChars_cons]
      by_cases hnext : 10 * word.toNat + (c.toNat - '0'.toNat) < limit
      · rw [if_pos hnext, Option.bind_eq_bind, Option.bind_some, ih h.2,
          UInt64.toNat_ofNat_of_lt' hnext]
      · have hgrows := le_ofDigitChars rest (10 * word.toNat + (c.toNat - '0'.toNat))
        rw [if_neg hnext, if_neg (by omega)]
        rfl

theorem readWord?_of_digits {token : String} (h : token.toList.all Char.isDigit = true) :
    readWord? (encode token) =
      if value token < limit then some (.ofNat (value token)) else none := by
  rw [readWord?, encode_of_digits h]
  exact foldlM_pushDigit? h 0

/-- The bytes of a token are read into a word as its characters are into a number. -/
theorem parseBytes_eq (token : String) (max : UInt64) :
    (parseBytes token max).map UInt64.toNat = parse token max.toNat := by
  by_cases hempty : token = ""
  · subst hempty
    rw [parse_empty]
    rfl
  have hbytes : (encode token).isEmpty = false := by
    rw [List.isEmpty_eq_false_iff]
    exact mt Text.Utf8.eq_empty_of_encode hempty
  rw [parseBytes, hbytes, all_isDigitByte_encode, parse, if_neg hempty]
  by_cases hdigits : token.toList.all Char.isDigit = true
  · rw [hdigits, readWord?_of_digits hdigits]
    by_cases hfits : value token < limit
    · have hword : (UInt64.ofNat (value token)).toNat = value token :=
        UInt64.toNat_ofNat_of_lt' hfits
      have hmax : max < .ofNat (value token) ↔ max.toNat < value token := by
        rw [UInt64.lt_iff_toNat_lt, hword]
      simp only [Bool.false_eq_true, Bool.not_true, if_false, if_pos hfits,
        if_neg (Nat.not_le.2 hfits), hmax]
      split
      · rfl
      · exact congrArg Except.ok hword
    · rw [if_neg hfits, if_pos (Nat.not_lt.1 hfits)]
      rfl
  · rw [Bool.not_eq_true] at hdigits
    rw [hdigits]
    rfl

/-! ## What a token denotes -/

/-- A token denotes a number if its bytes are decimal digits, at least one, that have this value. -/
structure Denotes (token : String) (n : Nat) : Prop where
  nonempty : token ≠ ""
  digits : ∀ byte ∈ encode token, 48 ≤ byte ∧ byte ≤ 57
  total : Nat.ofDigits 10 ((encode token).map fun byte => byte.toNat - 48).reverse = n

/-- How a token is refused that is not all digits, too large for a word, or beyond `max`. -/
inductive Refused (token : String) (max : Nat) : ServiceError → Prop where
  | notDigits (h : ∃ byte ∈ encode token, ¬ (48 ≤ byte ∧ byte ≤ 57)) :
      Refused token max (.invalidPageToken token "must be a non-negative integer")
  | tooLarge {n : Nat} (denotes : Denotes token n) (h : 0x10000000000000000 ≤ n) :
      Refused token max (.invalidPageToken token
        "not a valid integer: number too large to fit in target type")
  | beyond {n : Nat} (denotes : Denotes token n) (fits : n < 0x10000000000000000)
      (h : max < n) : Refused token max (.invalidPageToken token s!"must not exceed {max}")

section

variable {token : String} {max n : Nat}

theorem all_isDigit_iff :
    token.toList.all Char.isDigit = true ↔ ∀ byte ∈ encode token, 48 ≤ byte ∧ byte ≤ 57 := by
  simp only [← all_isDigitByte_encode, List.all_eq_true, isDigitByte, Bool.and_eq_true,
    decide_eq_true_iff]

/-- The last digit counts once, each one before it ten times as much as the next. -/
theorem ofDigits_of_digits (h : token.toList.all Char.isDigit = true) :
    Nat.ofDigits 10 ((encode token).map fun byte => byte.toNat - 48).reverse = value token := by
  have hdigits : (encode token).map (fun byte => byte.toNat - 48) =
      token.toList.map fun c => c.toNat - '0'.toNat := by
    rw [encode_of_digits h, List.map_map]
    refine List.map_congr_left fun c hmem => ?_
    exact congrArg (· - 48) (toNat_toUInt8_of_isDigit (List.all_eq_true.1 h c hmem))
  rw [hdigits, Nat.ofDigits_eq_foldr, List.foldr_reverse, List.foldl_map]
  simp only [value, Nat.ofDigitChars, Nat.cast_id, Nat.add_comm]

theorem denotes_iff :
    Denotes token n ↔
      token ≠ "" ∧ token.toList.all Char.isDigit = true ∧ value token = n := by
  constructor
  · intro h
    have hdigits := all_isDigit_iff.2 h.digits
    exact ⟨h.nonempty, hdigits, (ofDigits_of_digits hdigits).symm.trans h.total⟩
  · rintro ⟨hne, hdigits, rfl⟩
    exact ⟨hne, all_isDigit_iff.1 hdigits, ofDigits_of_digits hdigits⟩

theorem Denotes.parse_eq (h : Denotes token n) (max : Nat) :
    parse token max =
      if limit ≤ n then .error (.invalidPageToken token tooLarge)
      else if max < n then .error (.invalidPageToken token (beyond max))
      else .ok n := by
  obtain ⟨hne, hdigits, rfl⟩ := denotes_iff.1 h
  rw [parse, if_neg hne, hdigits, if_neg (by decide)]

theorem Refused.parse_eq {error : ServiceError} (h : Refused token max error) :
    parse token max = .error error := by
  have hlimit : limit = 0x10000000000000000 := rfl
  cases h with
  | notDigits h =>
      have hdigits : token.toList.all Char.isDigit = false := by
        rw [← Bool.not_eq_true, all_isDigit_iff]
        simpa using h
      have hne : token ≠ "" := by
        rintro rfl
        simp at hdigits
      rw [parse, if_neg hne, hdigits]
      rfl
  | tooLarge denotes h =>
      rw [denotes.parse_eq, if_pos (by omega)]
      rfl
  | beyond denotes fits h =>
      rw [denotes.parse_eq, if_neg (by omega), if_pos h]
      rfl

/-- A token is empty, denotes an offset within bounds, or is refused. -/
theorem accepted_or_refused (token : String) (max : Nat) :
    (token = "" ∨ ∃ n, Denotes token n ∧ n < limit ∧ n ≤ max) ∨
      ∃ error, Refused token max error := by
  by_cases hempty : token = ""
  · exact .inl (.inl hempty)
  by_cases hdigits : token.toList.all Char.isDigit = true
  · have denotes : Denotes token (value token) := denotes_iff.2 ⟨hempty, hdigits, rfl⟩
    by_cases hlarge : limit ≤ value token
    · exact .inr ⟨_, .tooLarge denotes hlarge⟩
    · by_cases hbeyond : max < value token
      · exact .inr ⟨_, .beyond denotes (Nat.not_le.1 hlarge) hbeyond⟩
      · exact .inl (.inr ⟨_, denotes, Nat.not_le.1 hlarge, Nat.not_lt.1 hbeyond⟩)
  · rw [all_isDigit_iff] at hdigits
    exact .inr ⟨_, .notDigits (by simpa using hdigits)⟩

theorem parse_eq_ok_iff (hmax : max < limit) :
    parse token max = .ok n ↔ token = "" ∧ n = 0 ∨ Denotes token n ∧ n ≤ max := by
  constructor
  · intro h
    rcases accepted_or_refused token max with (rfl | ⟨m, denotes, hfits, hle⟩) | ⟨_, refused⟩
    · rw [parse_empty] at h
      cases h
      exact .inl ⟨rfl, rfl⟩
    · rw [denotes.parse_eq, if_neg (Nat.not_le.2 hfits), if_neg (Nat.not_lt.2 hle)] at h
      cases h
      exact .inr ⟨denotes, hle⟩
    · rw [refused.parse_eq] at h
      cases h
  · rintro (⟨rfl, rfl⟩ | ⟨denotes, hle⟩)
    · exact parse_empty max
    · rw [denotes.parse_eq, if_neg (by omega), if_neg (Nat.not_lt.2 hle)]

theorem parse_eq_error_iff {error : ServiceError} :
    parse token max = .error error ↔ Refused token max error := by
  refine ⟨fun h => ?_, Refused.parse_eq⟩
  rcases accepted_or_refused token max with (rfl | ⟨m, denotes, hfits, hle⟩) | ⟨other, refused⟩
  · rw [parse_empty] at h
    cases h
  · rw [denotes.parse_eq, if_neg (Nat.not_le.2 hfits), if_neg (Nat.not_lt.2 hle)] at h
    cases h
  · rw [refused.parse_eq] at h
    cases h
    exact refused

end

theorem value_zeros_append (zeros : Nat) (token : String) :
    value (String.ofList (List.replicate zeros '0') ++ token) = value token := by
  rw [value, String.toList_append, String.toList_ofList]
  induction zeros with
  | zero => rfl
  | succ zeros ih =>
      rw [List.replicate_succ, List.cons_append, Nat.ofDigitChars_cons]
      exact ih

/-- An offset in decimal, with any number of zeros in front of it. -/
theorem denotes_zeros_append (zeros n : Nat) :
    Denotes (String.ofList (List.replicate zeros '0') ++ ofOffset n) n := by
  refine denotes_iff.2 ⟨fun h => ?_, ?_, ?_⟩
  · exact ofOffset_ne_empty n (String.append_eq_empty_iff.1 h).2
  · rw [String.toList_append, List.all_append, all_isDigit_ofOffset, String.toList_ofList,
      List.all_replicate]
    simp
  · rw [value_zeros_append, value_ofOffset]

end Paging.Token

/-! ## Tokens that denote the same -/

/-- The same error about another token. -/
def ServiceError.quoting (token : String) : ServiceError → ServiceError
  | .invalidPageToken _ reason => .invalidPageToken token reason
  | error => error

open Paging.Token (Denotes)

theorem Paging.Token.parse_alike {first second : String} {n : Nat} (hfirst : Denotes first n)
    (hsecond : Denotes second n) (max : Nat) :
    parse second max = (parse first max).mapError (·.quoting second) := by
  rw [hfirst.parse_eq, hsecond.parse_eq]
  split
  · rfl
  · split <;> rfl

theorem Paging.paginate_alike {request other : PageRequest} {fallback : Int32} {n : Nat}
    (hlast : other.maxResponse = request.maxResponse)
    (hsizes : other.size? fallback = request.size? fallback)
    (hfirst : Denotes request.pageToken n) (hsecond : Denotes other.pageToken n) :
    paginate other fallback =
      (paginate request fallback).mapError (·.quoting other.pageToken) := by
  by_cases hrange : 0 ≤ request.maxResponse
  · have hrange' : 0 ≤ other.maxResponse := hlast ▸ hrange
    have hparse : Token.parse other.pageToken other.maxResponse.toInt.toNat =
        (Token.parse request.pageToken request.maxResponse.toInt.toNat).mapError
          (·.quoting other.pageToken) := by
      rw [hlast]
      exact Token.parse_alike hfirst hsecond _
    cases hstart : Token.parse request.pageToken request.maxResponse.toInt.toNat with
    | error error =>
        rw [hstart] at hparse
        rw [paginate_of_refused fallback hrange hstart,
          paginate_of_refused fallback hrange' hparse]
        rfl
    | ok start =>
        rw [hstart] at hparse
        cases hsize : request.size? fallback with
        | none =>
            rw [paginate_of_none hrange hstart hsize,
              paginate_of_none hrange' hparse (hsizes.trans hsize)]
            rfl
        | some size =>
            by_cases hfits : size ≤ maxPageSize
            · rw [paginate_of_fits hrange hstart hsize hfits,
                paginate_of_fits hrange' hparse (hsizes.trans hsize) hfits, hlast]
              rfl
            · have hlarge := Int32.not_le.1 hfits
              rw [paginate_of_large hrange hstart hsize hlarge,
                paginate_of_large hrange' hparse (hsizes.trans hsize) hlarge]
              rfl
  · have hneg := Int32.not_le.1 hrange
    rw [paginate_of_neg fallback hneg, paginate_of_neg fallback (hlast ▸ hneg)]
    rfl

theorem OperationBook.list_alike {first second : String} {n : Nat} (hfirst : Denotes first n)
    (hsecond : Denotes second n) (book : OperationBook) (now : Time.Instant) (pageSize : Int32)
    (later : List Time.Instant) :
    book.list now pageSize second later =
      ((book.list now pageSize first later).1.mapError (·.quoting second),
        (book.list now pageSize first later).2) := by
  have hparse := Paging.Token.parse_alike hfirst hsecond book.operations.names.length
  cases hstart : Paging.Token.parse first book.operations.names.length with
  | error error =>
      rw [hstart] at hparse
      rw [list_of_error now pageSize later hstart, list_of_error now pageSize later hparse]
      rfl
  | ok start =>
      rw [hstart] at hparse
      rw [list_of_ok now pageSize later hstart, list_of_ok now pageSize later hparse]
      rfl

namespace Paging

open Token (parse parseBytes ofOffset Denotes Refused)

/-- A token is accepted if it is empty, for the start, or denotes an offset within bounds, with or
without leading zeros; each way to refuse one is for the tokens that have this fault.  Reading its
bytes into a word, which gives up at the first overflow, comes to the same.  The decimal form of an
offset is accepted for it.  Tokens that denote the same number get the same page, of integers as of
operations, and leave the same behind; where they are refused it is for the same reason, each error
quoting its own token. -/
theorem tokens_are_decimal_offsets :
    (∀ (token : String) (max : UInt64),
      (parseBytes token max).map UInt64.toNat = parse token max.toNat ∧
      (∀ offset, parse token max.toNat = .ok offset ↔
        token = "" ∧ offset = 0 ∨ Denotes token offset ∧ offset ≤ max.toNat) ∧
      ∀ error, parse token max.toNat = .error error ↔ Refused token max.toNat error) ∧
    (∀ max offset : UInt64, offset ≤ max →
      parse (ofOffset offset.toNat) max.toNat = .ok offset.toNat) ∧
    (∀ zeros n, Denotes (String.ofList (List.replicate zeros '0') ++ ofOffset n) n) ∧
    ∀ (first second : String) (n : Nat), Denotes first n → Denotes second n →
      (∀ (request : PageRequest) (fallback : Int32),
        paginate { request with pageToken := second } fallback =
          (paginate { request with pageToken := first } fallback).mapError (·.quoting second)) ∧
      ∀ (book : OperationBook) (now : Time.Instant) (pageSize : Int32)
        (later : List Time.Instant),
        book.list now pageSize second later =
          ((book.list now pageSize first later).1.mapError (·.quoting second),
            (book.list now pageSize first later).2) := by
  refine ⟨fun token max => ⟨Token.parseBytes_eq token max, fun offset => ?_, fun error => ?_⟩,
    fun max offset hle => ?_, Token.denotes_zeros_append, ?_⟩
  · exact Token.parse_eq_ok_iff max.toNat_lt_size
  · exact Token.parse_eq_error_iff
  · exact Token.parse_ofOffset (UInt64.le_iff_toNat_le.1 hle) max.toNat_lt_size
  · intro first second n hfirst hsecond
    exact ⟨fun request fallback => paginate_alike rfl rfl hfirst hsecond,
      OperationBook.list_alike hfirst hsecond⟩

/-- Twenty-five zeros before a digit are no more than the digit, the first number that is too large
for a word is refused under the largest bound, and a page of integers is the same for both ways to
write where it begins. -/
theorem tokens_are_decimal_offsets_leadingZeros :
    let padded := String.ofList (List.replicate 25 '0') ++ ofOffset 7
    let large := ofOffset 18446744073709551616
    Denotes padded 7 ∧ Denotes (ofOffset 7) 7 ∧
    parse padded 10 = .ok 7 ∧ parse (ofOffset 7) 10 = .ok 7 ∧
    (∃ reason, parse large (18446744073709551615 : UInt64).toNat =
      .error (.invalidPageToken large reason)) ∧
    paginate { maxResponse := 10, pageToken := padded } 3 =
      (paginate { maxResponse := 10, pageToken := ofOffset 7 } 3).mapError (·.quoting padded) ∧
    paginate { maxResponse := 10, pageToken := padded } 3 = .ok ⟨[7, 8, 9], "10"⟩ := by
  intro padded large
  obtain ⟨exact, printed, denotes, alike⟩ := tokens_are_decimal_offsets
  have hpadded : Denotes padded 7 := denotes 25 7
  have hplain : Denotes (ofOffset 7) 7 := denotes 0 7
  have hlarge : Denotes large 18446744073709551616 := denotes 0 18446744073709551616
  refine ⟨hpadded, hplain, ((exact padded 10).2.1 7).2 (.inr ⟨hpadded, by decide⟩),
    printed 10 7 (by decide), ⟨_, ((exact large _).2.2 _).2 (.tooLarge hlarge (by decide))⟩,
    (alike _ _ _ hplain hpadded).1 { maxResponse := 10 } 3, ?_⟩
  rw [(alike _ _ _ hplain hpadded).1 { maxResponse := 10 } 3]
  rfl

end Paging

end Rehearsal
