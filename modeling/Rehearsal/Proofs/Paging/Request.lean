import Rehearsal.Proofs.Paging.Walk

/-!
# Page requests

A request is accepted if its range, its token and its page size are in order
(`PageRequest.Accepted`), and otherwise refused for the first of the three that is not
(`PageRequest.Refused`).  What an accepted request gets is described in full by `Page.Exact`: the
integers, the token of the next page, and that counting in machine words makes no difference.
-/

namespace Rehearsal.Paging

/-! ## What is accepted and what is refused -/

/-- The first positive one of some sizes. -/
def FirstPositive (sizes : List Int32) (size : Int32) : Prop :=
  ∃ before after, sizes = before ++ size :: after ∧ 0 < size ∧ ∀ other ∈ before, other ≤ 0

namespace PageRequest

/-- The sizes that count for a page, the first of them most. -/
def sizes (request : PageRequest) (fallback : Int32) : List Int32 :=
  [request.pageSizeOverride, request.pageSize, fallback]

/-- A request for the page of `size` integers from `start` on that is in order. -/
structure Accepted (request : PageRequest) (fallback : Int32) (start : Nat) (size : Int32) :
    Prop where
  range : 0 ≤ request.maxResponse
  token : Token.parse request.pageToken request.maxResponse.toInt.toNat = .ok start
  first : FirstPositive (request.sizes fallback) size
  fits : size ≤ maxPageSize

/-- How a request is refused whose first fault is its range, its token or its page size. -/
inductive Refused (request : PageRequest) (fallback : Int32) : ServiceError → Prop where
  | range (h : request.maxResponse < 0) :
      Refused request fallback (.invalidArgument "max_response" "must be non-negative")
  | token {reason : String} (range : 0 ≤ request.maxResponse)
      (h : Token.parse request.pageToken request.maxResponse.toInt.toNat =
        .error (.invalidPageToken request.pageToken reason)) :
      Refused request fallback (.invalidPageToken request.pageToken reason)
  | noSize {start : Nat} (range : 0 ≤ request.maxResponse)
      (token : Token.parse request.pageToken request.maxResponse.toInt.toNat = .ok start)
      (h : ∀ size ∈ request.sizes fallback, size ≤ 0) :
      Refused request fallback (.invalidArgument "page_size" "no positive page size")
  | largeSize {start : Nat} {size : Int32} (range : 0 ≤ request.maxResponse)
      (token : Token.parse request.pageToken request.maxResponse.toInt.toNat = .ok start)
      (h : FirstPositive (request.sizes fallback) size) (large : maxPageSize < size) :
      Refused request fallback (.invalidArgument "page_size" "must not exceed 10000")

section

variable {request : PageRequest} {fallback size : Int32} {start : Nat}

theorem size?_eq_some_iff :
    request.size? fallback = some size ↔ FirstPositive (request.sizes fallback) size := by
  rw [size?, List.find?_eq_some_iff_append, FirstPositive, sizes]
  constructor
  · rintro ⟨hpos, before, after, heq, hbefore⟩
    refine ⟨before, after, heq, of_decide_eq_true hpos, fun other hmem => ?_⟩
    simpa using hbefore other hmem
  · rintro ⟨before, after, heq, hpos, hbefore⟩
    refine ⟨decide_eq_true hpos, before, after, heq, fun other hmem => ?_⟩
    simpa using hbefore other hmem

theorem size?_eq_none_iff :
    request.size? fallback = none ↔ ∀ size ∈ request.sizes fallback, size ≤ 0 := by
  simp [size?, sizes]

theorem Accepted.paginate_eq (h : request.Accepted fallback start size) :
    paginate request fallback =
      .ok (pageFrom start size.toInt.toNat request.maxResponse.toInt.toNat) :=
  paginate_of_fits h.range h.token (size?_eq_some_iff.2 h.first) h.fits

theorem Refused.paginate_eq {error : ServiceError} (h : request.Refused fallback error) :
    paginate request fallback = .error error := by
  cases h with
  | range h => exact paginate_of_neg fallback h
  | token range h => exact paginate_of_refused fallback range h
  | noSize range token h => exact paginate_of_none range token (size?_eq_none_iff.2 h)
  | largeSize range token h large =>
      exact paginate_of_large range token (size?_eq_some_iff.2 h) large

theorem accepted_or_refused (request : PageRequest) (fallback : Int32) :
    (∃ start size, request.Accepted fallback start size) ∨
      ∃ error, request.Refused fallback error := by
  by_cases range : 0 ≤ request.maxResponse
  · cases token : Token.parse request.pageToken request.maxResponse.toInt.toNat with
    | error error =>
        obtain ⟨reason, rfl⟩ := Token.eq_invalidPageToken_of_parse token
        exact .inr ⟨_, .token range token⟩
    | ok start =>
        cases hsize : request.size? fallback with
        | none => exact .inr ⟨_, .noSize range token (size?_eq_none_iff.1 hsize)⟩
        | some size =>
            have hfirst := size?_eq_some_iff.1 hsize
            by_cases fits : size ≤ maxPageSize
            · exact .inl ⟨start, size, range, token, hfirst, fits⟩
            · exact .inr ⟨_, .largeSize range token hfirst (Int32.not_le.1 fits)⟩
  · exact .inr ⟨_, .range (Int32.not_le.1 range)⟩

end

end PageRequest

/-! ## The page of an accepted request -/

/-- The token is empty if the page ends with `last`, and else stands for what follows its end. -/
def Page.Linked (page : Page) (last : Nat) : Prop :=
  ∃ final, page.responses.getLast? = some final ∧
    (page.nextPageToken = "" ↔ final = last) ∧
    (final ≠ last → page.nextPageToken = Token.ofOffset (final + 1) ∧
      Token.parse page.nextPageToken last = .ok (final + 1))

/-- The page of `size` integers from `start` on, or of as many as there are up to `last`. -/
structure Page.Exact (page : Page) (start : Nat) (size last : Int32) : Prop where
  responses : page.responses =
    List.range' start (min (start + size.toInt.toNat) (last.toInt.toNat + 1) - start)
  ne_nil : page.responses ≠ []
  ascending : page.responses.Pairwise (· < ·)
  inRange : ∀ n ∈ page.responses, n ≤ last.toInt.toNat
  /-- No number fails to fit a machine word. -/
  words (spare : Spare) : spare.pageFrom start size last.toInt.toNat = page.toWords
  faithful : page.toWords.responses.map Int32.toInt = page.responses.map Int.ofNat
  linked : page.Linked last.toInt.toNat

theorem toResponse_of_lt (spare : Spare) {n : Nat} (h : n < 0x80000000) :
    spare.toResponse n = Int32.ofNat n := by
  have hmax : Int32.maxValue.toInt.toNat = 0x7fffffff := by decide
  rw [Spare.toResponse, if_pos (by omega)]

theorem toSize_of_pos (spare : Spare) {size : Int32} (h : 0 < size) :
    spare.toSize size = size.toInt.toNat := if_pos (Int32.le_of_lt h)

section

variable {start : Nat} {size last : Int32} (hsize : 0 < size.toInt)
  (hstart : start ≤ last.toInt.toNat)
include hsize hstart

theorem mem_pageFrom {n : Nat}
    (h : n ∈ (pageFrom start size.toInt.toNat last.toInt.toNat).responses) :
    start ≤ n ∧ n < start + size.toInt.toNat ∧ n ≤ last.toInt.toNat := by
  rw [pageFrom, List.mem_range'_1] at h
  omega

theorem pageFrom_in_words (spare : Spare) :
    spare.pageFrom start size last.toInt.toNat =
      (pageFrom start size.toInt.toNat last.toInt.toNat).toWords := by
  have hlast := toInt_toNat_lt last
  have hword := toInt_toNat_lt size
  have hnext : addOffsets start (spare.toSize size) = start + size.toInt.toNat := by
    rw [toSize_of_pos spare (Int32.lt_iff_toInt_lt.2 hsize), addOffsets, Token.limit]
    have hlimit : UInt64.size = 0x10000000000000000 := rfl
    omega
  rw [Spare.pageFrom, hnext, Page.toWords]
  congr 1
  refine List.map_congr_left fun n hmem => ?_
  have hn := mem_pageFrom hsize hstart hmem
  exact toResponse_of_lt spare (by omega)

theorem pageFrom_linked :
    (pageFrom start size.toInt.toNat last.toInt.toNat).Linked last.toInt.toNat := by
  have hlimit : last.toInt.toNat < Token.limit :=
    Nat.lt_trans (toInt_toNat_lt last) (by decide)
  by_cases hle : start + size.toInt.toNat ≤ last.toInt.toNat
  · have hfinal : start + size.toInt.toNat - 1 + 1 = start + size.toInt.toNat := by omega
    rw [Page.Linked, pageFrom_of_le hle, List.getLast?_range', if_neg (by omega)]
    refine ⟨_, rfl, ⟨fun h => absurd h (Token.ofOffset_ne_empty _), fun h => ?_⟩, fun _ => ?_⟩
    · omega
    · rw [hfinal]
      exact ⟨rfl, Token.parse_ofOffset hle hlimit⟩
  · have hfinal : start + (last.toInt.toNat + 1 - start) - 1 = last.toInt.toNat := by omega
    rw [Page.Linked, pageFrom_of_lt (Nat.lt_of_not_le hle), List.getLast?_range',
      if_neg (by omega), hfinal]
    exact ⟨_, rfl, iff_of_true rfl rfl, fun h => absurd rfl h⟩

theorem pageFrom_exact :
    (pageFrom start size.toInt.toNat last.toInt.toNat).Exact start size last where
  responses := rfl
  ne_nil h := by
    obtain ⟨final, hfinal, -⟩ := pageFrom_linked hsize hstart
    rw [h] at hfinal
    cases hfinal
  ascending := List.pairwise_lt_range'
  inRange n hmem := (mem_pageFrom hsize hstart hmem).2.2
  words := pageFrom_in_words hsize hstart
  faithful := by
    rw [Page.toWords, List.map_map]
    refine List.map_congr_left fun n hmem => ?_
    have hn := mem_pageFrom hsize hstart hmem
    have hlast := toInt_toNat_lt last
    exact Int32.toInt_ofNat_of_lt (by omega)
  linked := pageFrom_linked hsize hstart

end

theorem PageRequest.Accepted.exact {request : PageRequest} {fallback size : Int32} {start : Nat}
    (h : request.Accepted fallback start size) :
    (pageFrom start size.toInt.toNat request.maxResponse.toInt.toNat).Exact start size
      request.maxResponse := by
  obtain ⟨_, _, _, hpos, _⟩ := h.first
  exact pageFrom_exact (Int32.lt_iff_toInt_lt.1 hpos) (Token.le_of_parse h.token)

/-! ## Every request -/

namespace PageRequest

variable (request : PageRequest) (fallback : Int32)

theorem exists_page_iff :
    (∃ page, paginate request fallback = .ok page) ↔
      ∃ start size, request.Accepted fallback start size := by
  constructor
  · rintro ⟨page, hpage⟩
    refine (request.accepted_or_refused fallback).resolve_right fun ⟨error, refused⟩ => ?_
    rw [refused.paginate_eq] at hpage
    cases hpage
  · rintro ⟨start, size, accepted⟩
    exact ⟨_, accepted.paginate_eq⟩

theorem paginate_eq_error_iff (error : ServiceError) :
    paginate request fallback = .error error ↔ request.Refused fallback error := by
  refine ⟨fun h => ?_, fun refused => refused.paginate_eq⟩
  rcases request.accepted_or_refused fallback with ⟨start, size, accepted⟩ | ⟨other, refused⟩
  · rw [accepted.paginate_eq] at h
    cases h
  · rw [refused.paginate_eq] at h
    cases h
    exact refused

variable {request fallback} in
theorem Refused.no_size {error : ServiceError} (refused : request.Refused fallback error)
    (same : error = .invalidArgument "page_size" "no positive page size") :
    ∀ size ∈ request.sizes fallback, size ≤ 0 := by
  cases refused with
  | noSize range token h => exact h
  | range | token | largeSize => simp at same

/-- A service always knows of a positive page size. -/
theorem size_of_settings (settings : Settings) :
    ¬ request.Refused settings.pageSize
      (.invalidArgument "page_size" "no positive page size") := by
  intro refused
  have hle := refused.no_size rfl settings.pageSize (by simp [sizes])
  exact Int32.not_le.2 settings.pageSize_pos hle

end PageRequest

/-- Every request is accepted or refused, as its range, its token and its page size say in that
order.  One that is accepted gets exactly the page it asks for.  The settings of a service always
hold a positive page size. -/
theorem page_request_exact (request : PageRequest) :
    (∀ fallback,
      ((∃ page, paginate request fallback = .ok page) ↔
        ∃ start size, request.Accepted fallback start size) ∧
      (∀ error, paginate request fallback = .error error ↔ request.Refused fallback error) ∧
      ∀ start size, request.Accepted fallback start size →
        ∃ page, paginate request fallback = .ok page ∧
          page.Exact start size request.maxResponse) ∧
    ∀ pageSize streamBuffer,
      paginate request (Settings.of pageSize streamBuffer).pageSize ≠
        .error (.invalidArgument "page_size" "no positive page size") := by
  refine ⟨fun fallback => ⟨request.exists_page_iff fallback,
    request.paginate_eq_error_iff fallback, fun start size accepted => ?_⟩,
    fun pageSize streamBuffer h => ?_⟩
  · exact ⟨_, accepted.paginate_eq, accepted.exact⟩
  · rw [request.paginate_eq_error_iff] at h
    exact request.size_of_settings _ h

/-- The largest range, a token with a leading zero that leaves one integer less than the page
could hold, and sizes of which the first is negative. -/
theorem page_request_exact_largest :
    let request : PageRequest :=
      { maxResponse := Int32.maxValue, pageSize := 3, pageToken := "02147483646"
        pageSizeOverride := -1 }
    request.Accepted 10 2147483646 3 ∧
      ∃ page, paginate request 10 = .ok page ∧ page.Exact 2147483646 3 Int32.maxValue ∧
        page.responses = [2147483646, 2147483647] := by
  intro request
  have accepted : request.Accepted 10 2147483646 3 :=
    { range := by decide
      token := by decide
      first := ⟨[-1], [10], rfl, by decide, List.forall_mem_singleton.2 (by decide)⟩
      fits := by decide }
  obtain ⟨page, hpage, exact⟩ := ((page_request_exact request).1 10).2.2 _ _ accepted
  exact ⟨accepted, page, hpage, exact, exact.responses.trans (by decide)⟩

end Rehearsal.Paging
