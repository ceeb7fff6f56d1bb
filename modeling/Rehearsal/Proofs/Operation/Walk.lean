import Rehearsal.Proofs.Operation.Page

/-!
# A walk over the pages of operations

What a page shows depends on its token and the names there are (`Fetch.Accepted.mem_names`), and of
all calls only a start adds a name and only a deletion takes one away (`Service.names_visit`).  So a
walk goes on in one of three ways (`Service.WalkStep`): the page is refused since too few operations
are left, it is the last, or the walk goes on where the page has ended.
-/

namespace Rehearsal

open Time (Instant)
open Paging (Token.value Token.Valid Token.ofOffset Token.limit)

/-! ## The names that there are -/

namespace OperationBook

variable {book later : OperationBook}

theorem length_names (book : OperationBook) : book.operations.names.length = book.size :=
  book.operations.length_names

theorem names_list (book : OperationBook) (now : Instant) (pageSize : Int32) (pageToken : String)
    (later : List Instant) :
    (book.list now pageSize pageToken later).2.operations.names = book.operations.names := by
  cases hparse : Paging.Token.parse pageToken book.operations.names.length with
  | error refusal => rw [list_of_error now pageSize later hparse]
  | ok start =>
      rw [list_of_ok now pageSize later hparse]
      exact names_look _ _ _ _

theorem names_subset_start {now : Instant} {spec : OperationSpec} {candidates : List String}
    {snapshot : Snapshot} (h : book.start now spec candidates = some (snapshot, later)) :
    book.operations.names ⊆ later.operations.names := by
  cases hfresh : Ident.firstFresh? book.operations.contains
      (candidates.map (operationNamespace ++ ·)) with
  | none =>
      rw [start_of_not_fresh now spec hfresh] at h
      cases h
  | some found =>
      rw [start_of_fresh now spec hfresh] at h
      cases h
      intro name hname
      rw [Table.mem_names] at hname ⊢
      rw [Table.get?_insert]
      split
      · rfl
      · exact hname

theorem names_delete (book : OperationBook) (name : String) :
    (book.delete name).2.operations.names ⊆ book.operations.names ∧
      book.operations.names ⊆ name :: (book.delete name).2.operations.names := by
  cases hop : book.operations.get? name with
  | none =>
      rw [delete_of_none hop]
      exact ⟨List.Subset.refl _, List.subset_cons_self _ _⟩
  | some op =>
      rw [delete_of_some hop]
      refine ⟨fun other hother => ?_, fun other hother => ?_⟩
      · rw [Table.mem_names, Table.get?_erase] at hother
        split at hother
        · cases hother
        · exact Table.mem_names.2 hother
      · rw [List.mem_cons, Table.mem_names, Table.get?_erase]
        by_cases heq : other = name
        · exact .inl heq
        · rw [if_neg heq]
          exact .inr (Table.mem_names.1 hother)

end OperationBook

namespace Service

variable {service : Service}

/-- Only a start adds names, and only a deletion takes one away. -/
theorem names_visit (service : Service) (visit : Visit) :
    (visit.call.isStart = true ∧
      service.operations.operations.names ⊆
        (service.visit visit).2.operations.operations.names) ∨
    (∃ name, visit.call = .delete name ∧
      (service.visit visit).2.operations.operations.names ⊆
        service.operations.operations.names ∧
      service.operations.operations.names ⊆
        name :: (service.visit visit).2.operations.operations.names) ∨
    (service.visit visit).2.operations.operations.names = service.operations.operations.names := by
  unfold Service.visit perform
  cases visit.call with
  | setupRetry responses =>
      refine .inr (.inr ?_)
      dsimp only
      split <;> rfl
  | retry id => exact .inr (.inr rfl)
  | start spec =>
      refine .inl ⟨rfl, ?_⟩
      dsimp only
      split
      · rename_i hstart
        exact OperationBook.names_subset_start hstart
      · exact List.Subset.refl _
  | get name => exact .inr (.inr (OperationBook.names_update _ _ _))
  | list pageSize pageToken => exact .inr (.inr (OperationBook.names_list _ _ _ _ _))
  | cancel name => exact .inr (.inr (OperationBook.names_update _ _ _))
  | delete name => exact .inr (.inl ⟨name, rfl, OperationBook.names_delete _ name⟩)
  | paginate request => exact .inr (.inr rfl)

/-- Whatever goes away has been deleted. -/
theorem exists_delete_of_not_mem {visits : List Visit} {name : String}
    (hbefore : name ∈ service.operations.operations.names)
    (hafter : name ∉ (service.after visits).operations.operations.names) :
    ∃ visit ∈ visits, visit.call = .delete name := by
  induction visits generalizing service with
  | nil => exact absurd hbefore hafter
  | cons visit visits ih =>
      by_cases hmem : name ∈ (service.visit visit).2.operations.operations.names
      · obtain ⟨later, hlater, hcall⟩ := ih hmem hafter
        exact ⟨later, List.mem_cons_of_mem visit hlater, hcall⟩
      · refine ⟨visit, List.mem_cons_self, ?_⟩
        rcases names_visit service visit with ⟨-, hsubset⟩ | ⟨other, hcall, -, hsubset⟩ | heq
        · exact absurd (hsubset hbefore) hmem
        · rcases List.mem_cons.1 (hsubset hbefore) with rfl | hrest
          · exact hcall
          · exact absurd hrest hmem
        · rw [heq] at hmem
          exact absurd hbefore hmem

theorem names_subset_after (service : Service) {visits : List Visit}
    (h : ∀ visit ∈ visits, visit.call.isDelete = false) :
    service.operations.operations.names ⊆
      (service.after visits).operations.operations.names := by
  intro name hname
  refine Decidable.byContradiction fun hgone => ?_
  obtain ⟨visit, hvisit, hcall⟩ := exists_delete_of_not_mem hname hgone
  have hdelete := h visit hvisit
  rw [hcall] at hdelete
  cases hdelete

theorem names_after_subset (service : Service) {visits : List Visit}
    (h : ∀ visit ∈ visits, visit.call.isStart = false) :
    (service.after visits).operations.operations.names ⊆
      service.operations.operations.names := by
  induction visits generalizing service with
  | nil => exact List.Subset.refl _
  | cons visit visits ih =>
      obtain ⟨hvisit, hvisits⟩ := List.forall_mem_cons.1 h
      have hrest := ih (service.visit visit).2 hvisits
      rcases names_visit service visit with ⟨hstart, -⟩ | ⟨-, -, hsubset, -⟩ | heq
      · rw [hvisit] at hstart
        cases hstart
      · exact List.Subset.trans hrest hsubset
      · rwa [← heq]

end Service

/-! ## One page of a walk -/

namespace Fetch

variable {fetch : Fetch} {name : String}

/-- Where the window of the page ends. -/
def stop (fetch : Fetch) : Nat :=
  OperationBook.windowEnd fetch.book.size fetch.offset fetch.turn.pageSize

/-- The token is one that a page can hand out, and not beyond the operations there are. -/
structure Accepted (fetch : Fetch) : Prop where
  valid : Token.Valid fetch.pageToken
  offset_le : fetch.offset ≤ fetch.book.size

theorem Accepted.offset_le_stop (h : fetch.Accepted) : fetch.offset ≤ fetch.stop :=
  OperationBook.le_windowEnd h.offset_le fetch.turn.pageSize

theorem stop_le (fetch : Fetch) : fetch.stop ≤ fetch.book.size := OperationBook.windowEnd_le _ _ _

theorem names_left (fetch : Fetch) : fetch.left.operations.names = fetch.book.operations.names :=
  OperationBook.names_list _ _ _ _ _

theorem listed_of_lt (fetch : Fetch) (hvalid : Token.Valid fetch.pageToken)
    (h : fetch.book.size < fetch.offset) :
    fetch.listed =
      (.error (.invalidPageToken fetch.pageToken (Paging.Token.beyond fetch.book.size)),
        fetch.book) := by
  refine OperationBook.list_of_error _ _ _ ?_
  rw [OperationBook.length_names, Paging.Token.parse_of_valid hvalid]
  exact if_pos h

theorem names_of_lt (hvalid : Token.Valid fetch.pageToken) (h : fetch.book.size < fetch.offset) :
    fetch.names = [] := by
  have hresult := congrArg Prod.fst (fetch.listed_of_lt hvalid h)
  rw [← result] at hresult
  rw [names, hresult]

theorem accepted_of_mem_names (hvalid : Token.Valid fetch.pageToken) (h : name ∈ fetch.names) :
    fetch.Accepted := by
  refine ⟨hvalid, Nat.not_lt.1 fun hlt => ?_⟩
  rw [names_of_lt hvalid hlt] at h
  cases h

/-- The page to an accepted token: the names of the window, what `get` answers for each of them at
its reading of the clock, and a token if anything follows. -/
theorem Accepted.result_eq (h : fetch.Accepted) :
    ∃ page, fetch.result = .ok page ∧
      page.operations.map Snapshot.name =
        (fetch.book.operations.names.drop fetch.offset).take (fetch.stop - fetch.offset) ∧
      (∀ i snapshot, page.operations[i]? = some snapshot →
        (fetch.book.get (Visit.readingAt fetch.turn.now fetch.turn.later i) snapshot.name).1 =
          .ok snapshot) ∧
      page.nextPageToken =
        if fetch.stop < fetch.book.size then Token.ofOffset fetch.stop else "" := by
  have hparse : Paging.Token.parse fetch.pageToken fetch.book.operations.names.length =
      .ok fetch.offset := by
    rw [OperationBook.length_names, Paging.Token.parse_of_valid h.valid]
    exact if_neg (Nat.not_lt.2 h.offset_le)
  obtain ⟨hnames, hstates⟩ := OperationBook.look_of_mem
    (fetch.book.nodup_window fetch.offset fetch.turn.pageSize)
    (fun name hname => OperationBook.mem_of_mem_window hname) (fun name _ => rfl)
    fetch.turn.now fetch.turn.later
  have hpage := congrArg Prod.fst
    (OperationBook.list_of_ok fetch.turn.now fetch.turn.pageSize fetch.turn.later hparse)
  refine ⟨_, hpage, ?_, hstates, ?_⟩
  · rw [hnames, OperationBook.window_eq, OperationBook.length_names]
    rfl
  · rw [OperationBook.window_eq, OperationBook.length_names]
    rfl

/-- A page is refused if there are fewer operations than its offset, and only then. -/
theorem exists_error_iff (hvalid : Token.Valid fetch.pageToken) :
    (∃ error, fetch.result = .error error) ↔ fetch.book.size < fetch.offset := by
  constructor
  · rintro ⟨error, herror⟩
    refine Nat.not_le.1 fun hle => ?_
    obtain ⟨page, hpage, -⟩ := Accepted.result_eq ⟨hvalid, hle⟩
    rw [herror] at hpage
    cases hpage
  · intro hlt
    exact ⟨_, congrArg Prod.fst (fetch.listed_of_lt hvalid hlt)⟩

theorem listed_of_error (hvalid : Token.Valid fetch.pageToken) {error : ServiceError}
    (h : fetch.result = .error error) :
    error = .invalidPageToken fetch.pageToken (Paging.Token.beyond fetch.book.size) ∧
      fetch.left = fetch.book := by
  have hlisted := fetch.listed_of_lt hvalid ((exists_error_iff hvalid).1 ⟨error, h⟩)
  exact ⟨Except.error.inj (h.symm.trans (congrArg Prod.fst hlisted)), congrArg Prod.snd hlisted⟩

theorem Accepted.names_eq (h : fetch.Accepted) :
    fetch.names =
      (fetch.book.operations.names.drop fetch.offset).take (fetch.stop - fetch.offset) := by
  obtain ⟨page, hpage, hnames, -⟩ := h.result_eq
  rw [names, hpage]
  exact hnames

theorem Accepted.names_pairwise (h : fetch.Accepted) : fetch.names.Pairwise (· < ·) := by
  rw [h.names_eq]
  exact (fetch.book.operations.names_pairwise.sublist (List.drop_sublist _ _)).sublist
    (List.take_sublist _ _)

/-- An accepted page shows the names whose ranks its window spans. -/
theorem Accepted.mem_names (h : fetch.Accepted) :
    name ∈ fetch.names ↔ name ∈ fetch.book.operations.names ∧
      fetch.offset ≤ fetch.book.operations.rank name ∧
      fetch.book.operations.rank name < fetch.stop := by
  rw [h.names_eq]
  exact mem_take_drop_iff fetch.book.operations.names_pairwise

end Fetch

/-! ## How a walk goes on -/

/-- Nothing is started before the next page. -/
def Turn.NoStart (turn : Turn) : Prop := ∀ visit ∈ turn.meanwhile, visit.call.isStart = false

/-- Nothing is deleted before the next page. -/
def Turn.NoDelete (turn : Turn) : Prop := ∀ visit ∈ turn.meanwhile, visit.call.isDelete = false

section

variable {fetch : Fetch} {walk : List Fetch} {page : OperationPage}

theorem not_complete_nil : ¬ Complete [] := by
  rintro ⟨last, page, hlast, -⟩
  cases hlast

theorem complete_singleton_iff :
    Complete [fetch] ↔ ∃ page, fetch.result = .ok page ∧ page.nextPageToken = "" := by
  constructor
  · rintro ⟨last, page, hlast, hpage⟩
    rw [List.getLast?_singleton] at hlast
    cases hlast
    exact ⟨page, hpage⟩
  · rintro ⟨page, hpage⟩
    exact ⟨fetch, page, rfl, hpage⟩

theorem complete_cons_iff (h : fetch.result = .ok page) (hnext : page.nextPageToken ≠ "") :
    Complete (fetch :: walk) ↔ Complete walk := by
  cases walk with
  | nil =>
      refine iff_of_false ?_ not_complete_nil
      rw [complete_singleton_iff]
      rintro ⟨other, hother, htoken⟩
      rw [h] at hother
      cases hother
      exact hnext htoken
  | cons next rest => rw [Complete, Complete, List.getLast?_cons_cons]

end

namespace Service

variable {turn : Turn} {turns : List Turn} {pageToken : String}

theorem names_subset_afterTurn (h : turn.NoDelete) (service : Service) (pageToken : String) :
    service.operations.operations.names ⊆
      (service.afterTurn turn pageToken).operations.operations.names := by
  have hafter : (service.fetch turn pageToken).left.operations.names ⊆
      (service.afterTurn turn pageToken).operations.operations.names :=
    names_subset_after { service with operations := (service.fetch turn pageToken).left } h
  rwa [Fetch.names_left] at hafter

theorem names_afterTurn_subset (h : turn.NoStart) (service : Service) (pageToken : String) :
    (service.afterTurn turn pageToken).operations.operations.names ⊆
      service.operations.operations.names := by
  have hafter : (service.afterTurn turn pageToken).operations.operations.names ⊆
      (service.fetch turn pageToken).left.operations.names :=
    names_after_subset { service with operations := (service.fetch turn pageToken).left } h
  rwa [Fetch.names_left] at hafter

/-- What comes of asking for the next page of a walk. -/
inductive WalkStep (service : Service) (turn : Turn) (turns : List Turn) (pageToken : String)
    (walk : List Fetch) : Prop where
  | refused (beyond : service.operations.size < Token.value pageToken)
      (walk_eq : walk = [service.fetch turn pageToken]) (incomplete : ¬ Complete walk)
  | last (accepted : (service.fetch turn pageToken).Accepted)
      (stop_eq : (service.fetch turn pageToken).stop = service.operations.size)
      (walk_eq : walk = [service.fetch turn pageToken]) (complete : Complete walk)
  | next (accepted : (service.fetch turn pageToken).Accepted)
      (stop_lt : (service.fetch turn pageToken).stop < service.operations.size)
      (walk_eq : walk = service.fetch turn pageToken ::
        walkAmid turns (service.afterTurn turn pageToken)
          (Token.ofOffset (service.fetch turn pageToken).stop))
      (complete_iff : Complete walk ↔
        Complete (walkAmid turns (service.afterTurn turn pageToken)
          (Token.ofOffset (service.fetch turn pageToken).stop)))

theorem walkAmid_of_error {error : ServiceError}
    (h : (service.fetch turn pageToken).result = .error error) :
    walkAmid (turn :: turns) service pageToken = [service.fetch turn pageToken] := by
  rw [walkAmid]
  simp only [h]

theorem walkAmid_of_ok {page : OperationPage}
    (h : (service.fetch turn pageToken).result = .ok page) :
    walkAmid (turn :: turns) service pageToken =
      if page.nextPageToken = "" then [service.fetch turn pageToken]
      else service.fetch turn pageToken ::
        walkAmid turns (service.afterTurn turn pageToken) page.nextPageToken := by
  rw [walkAmid]
  simp only [h]

theorem walkStep (hvalid : Token.Valid pageToken) (turn : Turn) (turns : List Turn)
    (service : Service) :
    WalkStep service turn turns pageToken (walkAmid (turn :: turns) service pageToken) := by
  by_cases hle : Token.value pageToken ≤ service.operations.size
  · have accepted : (service.fetch turn pageToken).Accepted := ⟨hvalid, hle⟩
    obtain ⟨page, hpage, -, -, htoken⟩ := accepted.result_eq
    have hwalk : walkAmid (turn :: turns) service pageToken = _ := walkAmid_of_ok hpage
    by_cases hstop : (service.fetch turn pageToken).stop < service.operations.size
    · have htoken : page.nextPageToken = Token.ofOffset (service.fetch turn pageToken).stop :=
        htoken.trans (if_pos hstop)
      have hnext : page.nextPageToken ≠ "" := by
        rw [htoken]
        exact Paging.Token.ofOffset_ne_empty _
      rw [if_neg hnext, htoken] at hwalk
      refine .next accepted hstop hwalk ?_
      rw [hwalk]
      exact complete_cons_iff hpage hnext
    · have hlast : page.nextPageToken = "" := htoken.trans (if_neg hstop)
      have hstop_eq : (service.fetch turn pageToken).stop = service.operations.size :=
        Nat.le_antisymm (service.fetch turn pageToken).stop_le (Nat.not_lt.1 hstop)
      rw [if_pos hlast] at hwalk
      refine .last accepted hstop_eq hwalk ?_
      rw [hwalk]
      exact complete_singleton_iff.2 ⟨page, hpage, hlast⟩
  · have hlt := Nat.not_le.1 hle
    have hresult := congrArg Prod.fst
      (Fetch.listed_of_lt (service.fetch turn pageToken) hvalid hlt)
    have hwalk : walkAmid (turn :: turns) service pageToken = _ := walkAmid_of_error hresult
    refine .refused hlt hwalk ?_
    rw [hwalk, complete_singleton_iff]
    rintro ⟨page, hpage, -⟩
    cases hpage.symm.trans hresult

end Service

end Rehearsal
