/-!
# Identifiers

The service names what it creates with identifiers of thirty-two lower-case hexadecimal digits,
shaped like random UUIDs: the thirteenth digit is `4`, the version, and the seventeenth one of `8`,
`9`, `a` and `b`.  Candidates are drawn one after another until one is not in use.
-/

namespace Rehearsal.Ident

/-- A lower-case hexadecimal digit. -/
def isHexDigit (c : Char) : Bool := c.isDigit || ('a' ≤ c && c ≤ 'f')

/-- Whether a text has the shape of an identifier. -/
def isWellFormed (id : String) : Bool :=
  let digits := id.toList
  digits.length == 32 && digits.all isHexDigit && digits[12]? == some '4' &&
    (digits[16]?.elim false fun c => ['8', '9', 'a', 'b'].contains c)

/-- The last `width` hexadecimal digits of a number. -/
def hexDigits (width number : Nat) : List Char :=
  (List.range width).reverse.map fun i => (number >>> (4 * i) % 16).digitChar

/-- The identifier that carries 122 bits of a number around its fixed digits. -/
def ofNumber (number : Nat) : String :=
  let high := hexDigits 12 (number >>> 74)
  let middle := hexDigits 3 (number >>> 62)
  let variant := (8 + number >>> 60 % 4).digitChar
  String.ofList (high ++ '4' :: middle ++ variant :: hexDigits 15 number)

/-- Where identifiers that are not drawn at random begin to count. -/
def origin : Nat := 0x9e3779b97f4a7c15f39cc0605cedc83

/-- The `count` identifiers from position `start` on. -/
def series (start count : Nat) : List String :=
  (List.range' (origin + start) count).map ofNumber

/-- The first candidate that is not in use, and the candidates after it. -/
def firstFresh? (inUse : String → Bool) : List String → Option (String × List String)
  | [] => none
  | candidate :: later => if inUse candidate then firstFresh? inUse later else (candidate, later)

theorem not_inUse_of_firstFresh? {inUse : String → Bool} {candidates later : List String}
    {id : String} (h : firstFresh? inUse candidates = some (id, later)) : inUse id = false := by
  induction candidates with
  | nil => cases h
  | cons candidate rest ih =>
      unfold firstFresh? at h
      split at h
      · exact ih h
      · rename_i hfree
        cases h
        simpa using hfree

theorem map_fst_firstFresh? (inUse : String → Bool) (candidates : List String) :
    (firstFresh? inUse candidates).map Prod.fst = candidates.find? fun id => !inUse id := by
  induction candidates with
  | nil => rfl
  | cons candidate rest ih =>
      rw [firstFresh?, List.find?_cons]
      cases inUse candidate
      · rfl
      · exact ih

end Rehearsal.Ident
