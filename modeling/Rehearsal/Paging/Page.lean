import Rehearsal.Paging.Token
import Rehearsal.Settings

/-!
# Pages of integers

The service pages through the integers `0 … maxResponse`.  A request names the last integer, the
token of the page and up to two sizes; `paginate` answers with one page and the token of the next.
Nothing is remembered between requests, so following the tokens (`walk`) is a matter of the caller.
-/

namespace Rehearsal.Paging

structure PageRequest where
  /-- The last integer of the whole range. -/
  maxResponse : Int32 := 0
  pageSize : Int32 := 0
  pageToken : String := ""
  /-- A size that goes before `pageSize`. -/
  pageSizeOverride : Int32 := 0
  deriving DecidableEq, Repr

structure Page where
  responses : List Nat
  /-- The token of the next page, empty on the last. -/
  nextPageToken : String
  deriving DecidableEq, Repr

/-- The size a request asks for: the first positive one of its override, its page size and the
size used when a request names none. -/
def PageRequest.size? (request : PageRequest) (fallback : Int32) : Option Int32 :=
  [request.pageSizeOverride, request.pageSize, fallback].find? fun size => 0 < size

/-- The page of `size` integers from `start` on, cut off after `last`. -/
def pageFrom (start size last : Nat) : Page where
  responses := List.range' start (min (start + size) (last + 1) - start)
  nextPageToken := if start + size ≤ last then Token.ofOffset (start + size) else ""

/-- The page that a request asks for; `fallback` is the page size used when it names none. -/
def paginate (request : PageRequest) (fallback : Int32) : Except ServiceError Page := do
  if request.maxResponse < 0 then
    throw (.invalidArgument "max_response" "must be non-negative")
  let last := request.maxResponse.toInt.toNat
  let start ← Token.parse request.pageToken last
  match request.size? fallback with
  | none => throw (.invalidArgument "page_size" "no positive page size")
  | some size =>
      if maxPageSize < size then
        throw (.invalidArgument "page_size" s!"must not exceed {maxPageSize}")
      return pageFrom start size.toInt.toNat last

/-! ## Machine words

`pageFrom` counts with numbers of any size.  A machine counts with words: a page size is a signed
word, an offset an unsigned one, and the integers on the page are signed again.  A number that does
not fit becomes a spare one (`Spare`), and a sum that is too large stays at the largest offset. -/

/-- What stands in for a number that does not fit. -/
structure Spare where
  /-- For a negative page size. -/
  size : Nat := 1
  /-- For an integer beyond the largest signed one. -/
  response : Int32 := Int32.maxValue

def Spare.toSize (spare : Spare) (size : Int32) : Nat :=
  if 0 ≤ size then size.toInt.toNat else spare.size

def Spare.toResponse (spare : Spare) (n : Nat) : Int32 :=
  if n ≤ Int32.maxValue.toInt.toNat then Int32.ofNat n else spare.response

/-- A page whose integers are signed words. -/
structure WordPage where
  responses : List Int32
  /-- The token of the next page, empty on the last. -/
  nextPageToken : String
  deriving DecidableEq, Repr

def Page.toWords (page : Page) : WordPage where
  responses := page.responses.map Int32.ofNat
  nextPageToken := page.nextPageToken

/-- The sum of two offsets, or the largest offset if that is less. -/
def addOffsets (first second : Nat) : Nat := min (first + second) (Token.limit - 1)

/-- The same page as `pageFrom` gives, counted in words. -/
def Spare.pageFrom (spare : Spare) (start : Nat) (size : Int32) (last : Nat) : WordPage :=
  let next := addOffsets start (spare.toSize size)
  { responses := (List.range' start (min next (last + 1) - start)).map spare.toResponse
    nextPageToken := if next ≤ last then Token.ofOffset next else "" }

/-! ## Walks -/

/-- The three sizes that decide how long a page is. -/
structure Sizes where
  pageSizeOverride : Int32 := 0
  pageSize : Int32 := 0
  /-- The size used when a request names none. -/
  fallback : Int32
  deriving DecidableEq, Repr

def Sizes.request (sizes : Sizes) (maxResponse : Int32) (pageToken : String) : PageRequest where
  maxResponse
  pageSize := sizes.pageSize
  pageToken
  pageSizeOverride := sizes.pageSizeOverride

/-- The size of a page, if any of the three is positive. -/
def Sizes.effective? (sizes : Sizes) : Option Int32 :=
  [sizes.pageSizeOverride, sizes.pageSize, sizes.fallback].find? fun size => 0 < size

/-- The pages that come of following the tokens from `pageToken` on, at most `limit` of them, and
the error that ended the walk if one did.  Each request has sizes of its own. -/
def walkWith (maxResponse : Int32) :
    (limit : Nat) → (sizes : Nat → Sizes) → (pageToken : String) → List Page × Option ServiceError
  | 0, _, _ => ([], none)
  | limit + 1, sizes, pageToken =>
      match paginate ((sizes 0).request maxResponse pageToken) (sizes 0).fallback with
      | .error error => ([], some error)
      | .ok page =>
          if page.nextPageToken = "" then ([page], none)
          else
            let later := walkWith maxResponse limit (fun i => sizes (i + 1)) page.nextPageToken
            (page :: later.1, later.2)

/-- The walk from a request on that only changes the token. -/
def walk (fallback : Int32) (limit : Nat) (request : PageRequest) :
    List Page × Option ServiceError :=
  walkWith request.maxResponse limit
    (fun _ => ⟨request.pageSizeOverride, request.pageSize, fallback⟩) request.pageToken

section

variable {request : PageRequest} {fallback size : Int32} {start : Nat}

theorem paginate_of_neg (fallback : Int32) (h : request.maxResponse < 0) :
    paginate request fallback =
      .error (.invalidArgument "max_response" "must be non-negative") := by
  rw [paginate, if_pos h]
  rfl

theorem paginate_of_refused {error : ServiceError} (fallback : Int32) (h : 0 ≤ request.maxResponse)
    (hstart : Token.parse request.pageToken request.maxResponse.toInt.toNat = .error error) :
    paginate request fallback = .error error := by
  rw [paginate, if_neg (Int32.not_lt.2 h)]
  dsimp only
  rw [hstart]
  rfl

theorem paginate_of_none (h : 0 ≤ request.maxResponse)
    (hstart : Token.parse request.pageToken request.maxResponse.toInt.toNat = .ok start)
    (hsize : request.size? fallback = none) :
    paginate request fallback =
      .error (.invalidArgument "page_size" "no positive page size") := by
  rw [paginate, if_neg (Int32.not_lt.2 h)]
  dsimp only
  rw [hstart, hsize]
  rfl

theorem paginate_of_large (h : 0 ≤ request.maxResponse)
    (hstart : Token.parse request.pageToken request.maxResponse.toInt.toNat = .ok start)
    (hsize : request.size? fallback = some size) (hlarge : maxPageSize < size) :
    paginate request fallback =
      .error (.invalidArgument "page_size" s!"must not exceed {maxPageSize}") := by
  rw [paginate, if_neg (Int32.not_lt.2 h)]
  dsimp only
  rw [hstart, hsize]
  exact if_pos hlarge

theorem paginate_of_fits (h : 0 ≤ request.maxResponse)
    (hstart : Token.parse request.pageToken request.maxResponse.toInt.toNat = .ok start)
    (hsize : request.size? fallback = some size) (hfits : size ≤ maxPageSize) :
    paginate request fallback =
      .ok (pageFrom start size.toInt.toNat request.maxResponse.toInt.toNat) := by
  rw [paginate, if_neg (Int32.not_lt.2 h)]
  dsimp only
  rw [hstart, hsize]
  exact if_neg (Int32.not_lt.2 hfits)

end

end Rehearsal.Paging
