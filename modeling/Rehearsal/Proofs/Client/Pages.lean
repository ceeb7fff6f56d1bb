import Rehearsal.Command.Run
import Rehearsal.Proofs.Message.Pages
import Rehearsal.Proofs.Paging.Walk
import Rehearsal.Proofs.Rpc.Call

/-!
# Fetching all pages

A client that fetches all pages from a service gets every integer of the range once and in order
(`paginateAll_of_fits`), or the error that its first request meets (`fetchPage_first`).  Every token
that it sends is short, so its requests cross the wire unharmed; what comes back are the pages of a
walk of one size.
-/

namespace Rehearsal

open Client Message Paging Rpc
open Command (fetchPage)
open Time (Instant)
open Wire (encode)

/-! ## Tokens on the wire -/

/-- Tokens whose length is of no concern. -/
def Paging.Token.Short (token : String) : Prop := (Text.Utf8.encode token).length ≤ 40

theorem Paging.Token.short_empty : Token.Short "" := by
  unfold Token.Short
  decide

theorem Paging.Token.short_ofOffset {offset : Nat} (h : offset < 0x80000000) :
    Token.Short (Token.ofOffset offset) := by
  have hdigits := (Nat.length_toDigits_le_iff (show 1 < 10 by decide) (show 0 < 10 by decide)).2
    (Nat.lt_trans h (by decide))
  have hbytes := Text.Utf8.length_encode_ofList_le (Nat.toDigits 10 offset)
  unfold Token.Short Token.ofOffset
  rw [Nat.repr_eq_ofList_toDigits]
  omega

theorem Paging.toInt_toNat_le {size : Int32} (h : size ≤ maxPageSize) :
    size.toInt.toNat ≤ 10000 := by
  have hint := Int32.le_iff_toInt_le.1 h
  have hmax : maxPageSize.toInt = 10000 := by decide
  omega

/-! ## One page -/

section

variable {timeline : Timeline} {request : PaginationRequest}

/-- What a client reads of the answer to a request for a page. -/
theorem fetchPage_eq (hticket : timeline.calls.lookup timeline.ticket = none)
    (hshort : Token.Short request.pageToken) :
    fetchPage timeline request =
      readSingle PaginationResponse
        (.ofResult (pagination timeline.service timeline.now request).1) := by
  have htoken : (Text.Utf8.encode request.pageToken).length < UInt64.size :=
    Nat.lt_of_le_of_lt hshort (by decide)
  have hlength : (encode request).length ≤ maxMessageBytes :=
    Nat.le_trans (PaginationRequest.length_encode_le htoken)
      (Nat.le_trans (Nat.add_le_add_left hshort 80) (by decide))
  have hunary := unary_bodyOf (PaginationRequest.decode_encode htoken) hlength timeline.service
    (pagination timeline.service timeline.now)
  have hhandle : handle timeline.service timeline.moment timeline.candidates
      Method.pagination.path (bodyOf [request]) true =
      Rpc.unary timeline.service (bodyOf [request])
        (pagination timeline.service timeline.now) := by
    rw [handle, Method.ofPath?_path]
    rfl
  have hcall := (Timeline.call_of_answered hticket (hhandle.trans hunary)).1
  simp only [fetchPage, Client.unary, hcall, Option.map_some]

theorem pagination_of_ok {service : Service} {page : Page}
    (h : paginate (pageRequest request) service.settings.pageSize = .ok page) (now : Instant) :
    (pagination service now request).1 = .ok (pageResponse page) := by
  simp only [pagination, perform, Service.perform, h, Except.map]

theorem pagination_of_error {service : Service} {error : ServiceError}
    (h : paginate (pageRequest request) service.settings.pageSize = .error error) (now : Instant) :
    (pagination service now request).1 = .error error.toRpc := by
  simp only [pagination, perform, Service.perform, h, Except.map]

theorem fetchPage_of_error (hticket : timeline.calls.lookup timeline.ticket = none)
    (hshort : Token.Short request.pageToken) {error : ServiceError}
    (h : paginate (pageRequest request) timeline.service.settings.pageSize = .error error)
    (hplain : 37 ∉ Text.Utf8.encode error.message) :
    fetchPage timeline request = .error error.toRpc := by
  rw [fetchPage_eq hticket hshort, pagination_of_error h, readSingle_error,
    RpcError.delivered_of_plain hplain]

theorem fetchPage_of_ok (hticket : timeline.calls.lookup timeline.ticket = none)
    (hshort : Token.Short request.pageToken) {page : Page}
    (h : paginate (pageRequest request) timeline.service.settings.pageSize = .ok page)
    (hresponses : page.responses.length ≤ 10000) (hnext : Token.Short page.nextPageToken) :
    fetchPage timeline request = .ok (pageResponse page) := by
  rw [fetchPage_eq hticket hshort, pagination_of_ok h]
  refine readSingle_ok (PaginationResponse.decode_encode ?_ ?_)
  · rw [pageResponse, List.length_map]
    exact Nat.lt_of_le_of_lt hresponses (by decide)
  · exact Nat.lt_of_le_of_lt hnext (by decide)

end

/-! ## All pages -/

theorem length_pageFrom_le (start size last : Nat) :
    (pageFrom start size last).responses.length ≤ size := by
  rw [pageFrom, List.length_range']
  omega

theorem short_pageFrom {start size last : Nat} (h : last < 0x80000000) :
    Token.Short (pageFrom start size last).nextPageToken := by
  unfold pageFrom
  dsimp only
  split
  · exact Token.short_ofOffset (by omega)
  · exact Token.short_empty

/-- A client that is given the page of every short token gathers all integers from its token on. -/
theorem pagesFrom_eq {fetch : PaginationRequest → Except RpcError PaginationResponse}
    {maxResponse pageSize : Int32} {size last : Nat} (hsize : 0 < size) (hlast : last < 0x80000000)
    (hfetch : ∀ pageToken start, Token.Short pageToken → Token.parse pageToken last = .ok start →
      fetch { maxResponse, pageSize, pageToken } = .ok (pageResponse (pageFrom start size last)))
    {fuel start : Nat} {pageToken : String} (hshort : Token.Short pageToken)
    (hstart : Token.parse pageToken last = .ok start) (hfuel : last + 1 - start ≤ fuel) :
    pagesFrom fetch maxResponse pageSize fuel pageToken =
      some (.ok ((List.range' start (last + 1 - start)).map Int32.ofNat)) := by
  induction fuel generalizing start pageToken with
  | zero =>
      have hle := Token.le_of_parse hstart
      omega
  | succ fuel ih =>
      rw [pagesFrom, hfetch pageToken start hshort hstart]
      by_cases hle : start + size ≤ last
      · have hnext := ih (Token.short_ofOffset (by omega))
          (Token.parse_ofOffset hle (Nat.lt_trans hlast (by decide))) (by omega)
        have hcount : size + (last + 1 - (start + size)) = last + 1 - start := by omega
        simp only [pageFrom_of_le hle, pageResponse, Token.ofOffset_ne_empty, if_false, hnext,
          Option.map_some, Except.map]
        rw [← List.map_append, List.range'_append_1, hcount]
      · simp only [pageFrom_of_lt (Nat.lt_of_not_le hle), pageResponse, if_true]

/-- The sizes of every page that a client asks for without an override. -/
def clientSizes (service : Service) (pageSize : Int32) : Sizes where
  pageSize
  fallback := service.settings.pageSize

theorem exists_effective (service : Service) {pageSize : Int32} (h : pageSize ≤ maxPageSize) :
    ∃ size, (clientSizes service pageSize).effective? = some size ∧ size ≤ maxPageSize := by
  by_cases hpos : 0 < pageSize
  · exact ⟨pageSize, by simp [Sizes.effective?, clientSizes, hpos], h⟩
  · exact ⟨service.settings.pageSize,
      by simp [Sizes.effective?, clientSizes, hpos, service.settings.pageSize_pos],
      service.settings.pageSize_le⟩

section

variable {timeline : Timeline} {maxResponse pageSize : Int32}

theorem paginateAll_of_fits (hticket : timeline.calls.lookup timeline.ticket = none)
    (hmax : 0 ≤ maxResponse) (hsize : pageSize ≤ maxPageSize) :
    paginateAll (fetchPage timeline) maxResponse pageSize =
      some (.ok ((List.range (maxResponse.toInt.toNat + 1)).map Int32.ofNat)) := by
  obtain ⟨size, heffective, hfits⟩ := exists_effective timeline.service hsize
  have hpos := Sizes.toInt_pos heffective
  have hlast := toInt_toNat_lt maxResponse
  have hfetch (pageToken : String) (start : Nat) (hshort : Token.Short pageToken)
      (hstart : Token.parse pageToken maxResponse.toInt.toNat = .ok start) :
      fetchPage timeline { maxResponse, pageSize, pageToken } =
        .ok (pageResponse (pageFrom start size.toInt.toNat maxResponse.toInt.toNat)) := by
    have hpage := paginate_request hmax hstart heffective hfits
    have hlength := length_pageFrom_le start size.toInt.toNat maxResponse.toInt.toNat
    exact fetchPage_of_ok hticket hshort hpage (Nat.le_trans hlength (toInt_toNat_le hfits))
      (short_pageFrom hlast)
  have hall := pagesFrom_eq (by omega) hlast hfetch Token.short_empty (Token.parse_empty _)
    (Nat.le_refl _)
  rw [Nat.sub_zero] at hall
  rw [paginateAll, hall, List.range_eq_range']

theorem paginateAll_of_first {error : RpcError}
    (h : fetchPage timeline { maxResponse, pageSize } = .error error) :
    paginateAll (fetchPage timeline) maxResponse pageSize = some (.error error) := by
  rw [paginateAll, pagesFrom, h]

theorem fetchPage_first (hticket : timeline.calls.lookup timeline.ticket = none)
    (h : ¬ (0 ≤ maxResponse ∧ pageSize ≤ maxPageSize)) :
    ∃ error, error.code = .invalidArgument ∧
      fetchPage timeline { maxResponse, pageSize } = .error error := by
  by_cases hmax : 0 ≤ maxResponse
  · have hlarge : maxPageSize < pageSize := Int32.not_le.1 fun hle => h ⟨hmax, hle⟩
    have hpos : 0 < pageSize := Int32.lt_trans (by decide) hlarge
    have hsize : (clientSizes timeline.service pageSize).effective? = some pageSize := by
      simp [Sizes.effective?, clientSizes, hpos]
    exact ⟨_, rfl, fetchPage_of_error hticket Token.short_empty
      (paginate_of_large hmax (Token.parse_empty _) hsize hlarge) (by decide)⟩
  · exact ⟨_, rfl, fetchPage_of_error hticket Token.short_empty
      (paginate_of_neg _ (Int32.not_le.1 hmax)) (by decide)⟩

end

theorem lookup_calls_new (service : Service) (reading : Instant) :
    let timeline : Timeline := { service, reading }
    timeline.calls.lookup timeline.ticket = none := rfl

theorem map_toInt_ofNat {count : Nat} (h : count ≤ 0x80000000) :
    ((List.range count).map Int32.ofNat).map Int32.toInt = (List.range count).map Int.ofNat := by
  rw [List.map_map]
  refine List.map_congr_left fun n hmem => ?_
  have hlt := List.mem_range.1 hmem
  exact Int32.toInt_ofNat_of_lt (by omega)

/-- Following the tokens from an accepted one on, with any usable sizes, meets every integer of the
range from its offset on once and in order.  A client that fetches all pages from a service gets
the whole range, or the error of its first request if that cannot be served. -/
theorem pages_cover_range :
    (∀ (maxResponse : Int32) (sizes : Nat → Sizes) (token : String) (first : Nat),
      0 ≤ maxResponse → Token.parse token maxResponse.toInt.toNat = .ok first →
      (∀ i, ∃ size, (sizes i).effective? = some size ∧ size ≤ maxPageSize) →
        ∃ pages, Cover first maxResponse.toInt.toNat pages ∧
          (∀ limit, walkWith maxResponse limit sizes token = (pages.take limit, none)) ∧
          ∀ size, (∀ i, (sizes i).effective? = some size) →
            pages.length = (maxResponse.toInt.toNat + 1 - first) ⌈/⌉ size.toInt.toNat) ∧
    ∀ (defaultPageSize : Int32) (streamBuffer : Nat) (state : Service) (reading : Instant)
      (maxResponse pageSize : Int32),
      let service := { state with settings := .of defaultPageSize streamBuffer }
      let fetch := fetchPage { service, reading }
      (0 ≤ maxResponse → pageSize ≤ maxPageSize →
        ∃ responses, paginateAll fetch maxResponse pageSize = some (.ok responses) ∧
          responses.map Int32.toInt =
            (List.range (maxResponse.toInt.toNat + 1)).map Int.ofNat) ∧
      (¬ (0 ≤ maxResponse ∧ pageSize ≤ maxPageSize) →
        ∃ error, error.code = .invalidArgument ∧
          fetch { maxResponse, pageSize } = .error error ∧
          paginateAll fetch maxResponse pageSize = some (.error error)) := by
  refine ⟨fun maxResponse sizes token first hmax accepted fits =>
    walkWith_covers hmax fits accepted, ?_⟩
  intro defaultPageSize streamBuffer state reading maxResponse pageSize service fetch
  have hticket := lookup_calls_new service reading
  refine ⟨fun hmax hsize => ?_, fun hrefused => ?_⟩
  · exact ⟨_, paginateAll_of_fits hticket hmax hsize,
      map_toInt_ofNat (toInt_toNat_lt maxResponse)⟩
  · obtain ⟨error, hcode, hfirst⟩ := fetchPage_first hticket hrefused
    exact ⟨error, hcode, hfirst, paginateAll_of_first hfirst⟩

/-- Two full pages, the last of which ends at the end of the range; a client that names no size; and
one that asks for too much. -/
theorem pages_cover_range_seven :
    let service : Service := { settings := .of 4 1 }
    let fetch := fetchPage { service, reading := .ofSeconds 0 (by decide) }
    (∃ pages, Cover 2 7 pages ∧
      walkWith 7 5 (fun _ => ⟨0, 3, 10⟩) "2" = (pages.take 5, none) ∧ pages.length = 2) ∧
    (∃ responses, paginateAll fetch 7 0 = some (.ok responses) ∧
      responses.map Int32.toInt = [0, 1, 2, 3, 4, 5, 6, 7]) ∧
    ∃ error, error.code = .invalidArgument ∧ paginateAll fetch 7 10001 = some (.error error) := by
  intro service fetch
  obtain ⟨walks, fetches⟩ := pages_cover_range
  obtain ⟨pages, cover, hwalk, hlength⟩ :=
    walks 7 (fun _ => ⟨0, 3, 10⟩) "2" 2 (by decide) rfl fun _ => ⟨3, rfl, by decide⟩
  obtain ⟨responses, hall, hresponses⟩ :=
    (fetches 4 1 {} (.ofSeconds 0 (by decide)) 7 0).1 (by decide) (by decide)
  obtain ⟨error, hcode, -, hrefused⟩ :=
    (fetches 4 1 {} (.ofSeconds 0 (by decide)) 7 10001).2 (by decide)
  exact ⟨⟨pages, cover, hwalk 5, hlength 3 fun _ => rfl⟩, ⟨responses, hall, hresponses⟩, error,
    hcode, hrefused⟩

end Rehearsal
