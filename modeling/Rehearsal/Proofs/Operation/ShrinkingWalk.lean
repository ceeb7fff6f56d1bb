import Rehearsal.Proofs.Operation.Walk

/-!
# Nothing is repeated while operations are only removed

Names that are taken away move the others down only.  So what a walk shows from a token on stands at
its offset or later already now (`Service.Shrinking.rank_of_mem`), and after all that the pages
before have shown.  A name that is there all the time is left out only if it has been moved from
beyond the offset of a token to before it (`Service.Skipped`).
-/

namespace Rehearsal

open Time (Instant)
open Paging (Token.value Token.Valid Token.ofOffset Token.limit)

namespace Service

/-- A walk from a token on during which operations are only removed. -/
structure Shrinking (turns : List Turn) (service : Service) (pageToken : String) : Prop where
  fixed : ∀ turn ∈ turns, turn.NoStart
  valid : Token.Valid pageToken
  /-- A machine word can count the operations. -/
  fits : service.operations.size < Token.limit

/-- Between two pages deletions of smaller names have moved a name below the offset of the token
that the first has handed out. -/
structure Skipped (name : String) (earlier later : Fetch) : Prop where
  handed_out : ∃ page, earlier.result = .ok page ∧ page.nextPageToken = later.pageToken
  ahead : later.offset ≤ earlier.book.operations.rank name
  behind : later.book.operations.rank name < later.offset
  deleted : ∃ visit ∈ earlier.turn.meanwhile, ∃ smaller, visit.call = .delete smaller ∧
    smaller < name ∧ smaller ∈ earlier.book.operations.names ∧
    smaller ∉ later.book.operations.names

section

variable {service : Service} {turn : Turn} {turns : List Turn} {pageToken : String}

theorem Shrinking.next (h : Shrinking (turn :: turns) service pageToken)
    (stop_lt : (service.fetch turn pageToken).stop < service.operations.size) :
    Shrinking turns (service.afterTurn turn pageToken)
      (Token.ofOffset (service.fetch turn pageToken).stop) := by
  obtain ⟨hturn, hturns⟩ := List.forall_mem_cons.1 h.fixed
  have hmono := Table.size_mono (names_afterTurn_subset hturn service pageToken)
  refine ⟨hturns, Paging.Token.valid_ofOffset (Nat.lt_trans stop_lt h.fits), ?_⟩
  exact Nat.lt_of_le_of_lt hmono h.fits

theorem Shrinking.valid_of_mem (h : Shrinking turns service pageToken) :
    ∀ fetch ∈ walkAmid turns service pageToken, Token.Valid fetch.pageToken := by
  induction turns generalizing service pageToken with
  | nil =>
      intro fetch hmem
      cases hmem
  | cons turn turns ih =>
      cases walkStep h.valid turn turns service with
      | refused beyond walk_eq =>
          rw [walk_eq]
          exact List.forall_mem_singleton.2 h.valid
      | last accepted stop_eq walk_eq =>
          rw [walk_eq]
          exact List.forall_mem_singleton.2 h.valid
      | next accepted stop_lt walk_eq =>
          rw [walk_eq]
          exact List.forall_mem_cons.2 ⟨h.valid, ih (h.next stop_lt)⟩

/-- Whatever a walk shows stands at its offset or later when it begins. -/
theorem Shrinking.rank_of_mem (h : Shrinking turns service pageToken) :
    ∀ name ∈ (walkAmid turns service pageToken).flatMap Fetch.names,
      name ∈ service.operations.operations.names ∧
        Token.value pageToken ≤ service.operations.operations.rank name := by
  induction turns generalizing service pageToken with
  | nil =>
      intro name hmem
      cases hmem
  | cons turn turns ih =>
      obtain ⟨hturn, -⟩ := List.forall_mem_cons.1 h.fixed
      intro name hname
      cases walkStep h.valid turn turns service with
      | refused beyond walk_eq =>
          rw [walk_eq, List.flatMap_singleton, Fetch.names_of_lt h.valid beyond] at hname
          cases hname
      | last accepted stop_eq walk_eq =>
          rw [walk_eq, List.flatMap_singleton] at hname
          obtain ⟨hmem, hrank, -⟩ := accepted.mem_names.1 hname
          exact ⟨hmem, hrank⟩
      | next accepted stop_lt walk_eq =>
          rw [walk_eq, List.flatMap_cons, List.mem_append] at hname
          rcases hname with hname | hname
          · obtain ⟨hmem, hrank, -⟩ := accepted.mem_names.1 hname
            exact ⟨hmem, hrank⟩
          · -- Names are only moved down, so what stands beyond the page later does so now.
            obtain ⟨hmem, hrank⟩ := ih (h.next stop_lt) name hname
            have hsubset := names_afterTurn_subset hturn service pageToken
            have hle : Token.value pageToken ≤ (service.fetch turn pageToken).stop :=
              accepted.offset_le_stop
            have hmono := Table.rank_mono hsubset name
            rw [Paging.Token.value_ofOffset] at hrank
            exact ⟨hsubset hmem, by omega⟩

theorem Shrinking.names_pairwise (h : Shrinking turns service pageToken) :
    ((walkAmid turns service pageToken).flatMap Fetch.names).Pairwise (· < ·) := by
  induction turns generalizing service pageToken with
  | nil => exact List.Pairwise.nil
  | cons turn turns ih =>
      obtain ⟨hturn, -⟩ := List.forall_mem_cons.1 h.fixed
      cases walkStep h.valid turn turns service with
      | refused beyond walk_eq =>
          rw [walk_eq, List.flatMap_singleton, Fetch.names_of_lt h.valid beyond]
          exact List.Pairwise.nil
      | last accepted stop_eq walk_eq =>
          rw [walk_eq, List.flatMap_singleton]
          exact accepted.names_pairwise
      | next accepted stop_lt walk_eq =>
          rw [walk_eq, List.flatMap_cons]
          refine List.pairwise_append.2 ⟨accepted.names_pairwise, ih (h.next stop_lt), ?_⟩
          intro name hname other hother
          obtain ⟨-, -, hbefore⟩ := accepted.mem_names.1 hname
          obtain ⟨-, hafter⟩ := (h.next stop_lt).rank_of_mem other hother
          have hmono := Table.rank_mono (names_afterTurn_subset hturn service pageToken) other
          rw [Paging.Token.value_ofOffset] at hafter
          refine Table.lt_of_rank_lt (Nat.lt_of_lt_of_le hbefore ?_)
          exact Nat.le_trans hafter hmono

/-- A name that has been moved to before the offset that a page has handed out. -/
theorem skipped (accepted : (service.fetch turn pageToken).Accepted) {name : String}
    {later : Fetch} (stop_lt : (service.fetch turn pageToken).stop < service.operations.size)
    (hbook : later.book = (service.afterTurn turn pageToken).operations)
    (htoken : later.pageToken = Token.ofOffset (service.fetch turn pageToken).stop)
    (hahead : (service.fetch turn pageToken).stop ≤ service.operations.operations.rank name)
    (hbehind : (service.afterTurn turn pageToken).operations.operations.rank name <
      (service.fetch turn pageToken).stop) :
    Skipped name (service.fetch turn pageToken) later := by
  have hoffset : later.offset = (service.fetch turn pageToken).stop := by
    rw [Fetch.offset, htoken, Paging.Token.value_ofOffset]
  refine ⟨?_, ?_, ?_, ?_⟩
  · obtain ⟨page, hpage, -, -, hnext⟩ := accepted.result_eq
    refine ⟨page, hpage, ?_⟩
    rw [hnext, htoken]
    exact if_pos stop_lt
  · rw [hoffset]
    exact hahead
  · rw [hoffset, hbook]
    exact hbehind
  · obtain ⟨smaller, hlt, hmem, hgone⟩ :=
      Table.exists_lt_of_rank_lt (Nat.lt_of_lt_of_le hbehind hahead)
    have hleft : smaller ∈ (service.fetch turn pageToken).left.operations.names := by
      rw [Fetch.names_left]
      exact hmem
    obtain ⟨visit, hvisit, hcall⟩ := exists_delete_of_not_mem hleft hgone
    refine ⟨visit, hvisit, smaller, hcall, hlt, hmem, ?_⟩
    rw [hbook]
    exact hgone

/-- A complete walk begins with the page that is asked for. -/
theorem walkAmid_eq_cons (complete : Complete (walkAmid turns service pageToken)) :
    ∃ first rest, walkAmid turns service pageToken = first :: rest ∧
      first.book = service.operations ∧ first.pageToken = pageToken := by
  cases turns with
  | nil => exact absurd complete not_complete_nil
  | cons turn turns =>
      cases hresult : (service.fetch turn pageToken).result with
      | error error => exact ⟨_, _, walkAmid_of_error hresult, rfl, rfl⟩
      | ok page =>
          rw [walkAmid_of_ok hresult]
          split
          · exact ⟨_, _, rfl, rfl, rfl⟩
          · exact ⟨_, _, rfl, rfl, rfl⟩

/-- A name that a complete walk leaves out, though it is always there and was ahead of the walk when
that began, has been skipped. -/
theorem Shrinking.exists_skipped (h : Shrinking turns service pageToken)
    (complete : Complete (walkAmid turns service pageToken)) {name : String}
    (always : ∀ fetch ∈ walkAmid turns service pageToken, name ∈ fetch.book.operations.names)
    (missing : ∀ fetch ∈ walkAmid turns service pageToken, name ∉ fetch.names)
    (hrank : Token.value pageToken ≤ service.operations.operations.rank name) :
    ∃ earlier later, [earlier, later] <:+: walkAmid turns service pageToken ∧
      Skipped name earlier later := by
  induction turns generalizing service pageToken with
  | nil => exact absurd complete not_complete_nil
  | cons turn turns ih =>
      cases walkStep h.valid turn turns service with
      | refused beyond walk_eq incomplete => exact absurd complete incomplete
      | last accepted stop_eq walk_eq =>
          rw [walk_eq] at always missing
          have hmem := always _ (List.mem_singleton_self _)
          have hlt := Table.rank_lt_size hmem
          refine absurd (accepted.mem_names.2 ⟨hmem, hrank, ?_⟩)
            (missing _ (List.mem_singleton_self _))
          rw [stop_eq]
          exact hlt
      | next accepted stop_lt walk_eq complete_iff =>
          rw [walk_eq] at always missing ⊢
          obtain ⟨hmem, always⟩ := List.forall_mem_cons.1 always
          obtain ⟨hnot, missing⟩ := List.forall_mem_cons.1 missing
          have hahead : (service.fetch turn pageToken).stop ≤
              service.operations.operations.rank name :=
            Nat.not_lt.1 fun hlt => hnot (accepted.mem_names.2 ⟨hmem, hrank, hlt⟩)
          -- The name is beyond the page.  Unless it has been moved before the next, it still is.
          by_cases hbehind : (service.afterTurn turn pageToken).operations.operations.rank name <
              (service.fetch turn pageToken).stop
          · obtain ⟨later, rest, hrest, hbook, htoken⟩ :=
              walkAmid_eq_cons (complete_iff.1 complete)
            refine ⟨service.fetch turn pageToken, later, ⟨[], rest, ?_⟩,
              skipped accepted stop_lt hbook htoken hahead hbehind⟩
            rw [hrest]
            rfl
          · have hoffset : Token.value (Token.ofOffset (service.fetch turn pageToken).stop) ≤
                (service.afterTurn turn pageToken).operations.operations.rank name := by
              rw [Paging.Token.value_ofOffset]
              exact Nat.not_lt.1 hbehind
            obtain ⟨earlier, later, hinfix, hskipped⟩ := ih (h.next stop_lt)
              (complete_iff.1 complete) always missing hoffset
            exact ⟨earlier, later, List.infix_cons hinfix, hskipped⟩

end

/-- A walk over the pages repeats nothing while operations are only removed: all that it shows, page
after page, is ascending and was there at the time, and a page is refused only if there are fewer
operations left than its offset.  What a complete walk leaves out, though it was there all the
time, deletions of smaller names have moved below an offset that had been handed out.  (An offset is
a machine word, so the operations are assumed to be few enough for one to count them.) -/
theorem walk_repeats_nothing {service : Service} {turns : List Turn}
    (fixed : ∀ turn ∈ turns, turn.NoStart) (fits : service.operations.size < Token.limit) :
    ((walkAmid turns service "").flatMap Fetch.names).Pairwise (· < ·) ∧
    (∀ fetch ∈ walkAmid turns service "",
      (∀ name ∈ fetch.names, name ∈ fetch.book.operations.names) ∧
      ((∃ error, fetch.result = .error error) ↔ fetch.book.size < fetch.offset) ∧
      ∀ error, fetch.result = .error error →
        error = .invalidPageToken fetch.pageToken (Paging.Token.beyond fetch.book.size) ∧
        fetch.left = fetch.book) ∧
    (Complete (walkAmid turns service "") → ∀ name,
      (∀ fetch ∈ walkAmid turns service "", name ∈ fetch.book.operations.names) →
      (∀ fetch ∈ walkAmid turns service "", name ∉ fetch.names) →
      ∃ earlier later, [earlier, later] <:+: walkAmid turns service "" ∧
        Skipped name earlier later) := by
  have h : Shrinking turns service "" := ⟨fixed, Paging.Token.valid_empty, fits⟩
  refine ⟨h.names_pairwise, ?_, ?_⟩
  · intro fetch hfetch
    have hvalid := h.valid_of_mem fetch hfetch
    refine ⟨?_, Fetch.exists_error_iff hvalid, ?_⟩
    · intro name hname
      have accepted := Fetch.accepted_of_mem_names hvalid hname
      exact (accepted.mem_names.1 hname).1
    · intro error herror
      exact Fetch.listed_of_error hvalid herror
  · intro complete name always missing
    exact h.exists_skipped complete always missing (Nat.zero_le _)

/-- Four operations. -/
def four : Service :=
  after default
    [{ now := .ofSeconds 70 (by decide), call := .start {}, candidates := ["a"] },
      { now := .ofSeconds 70 (by decide), call := .start {}, candidates := ["b"] },
      { now := .ofSeconds 70 (by decide), call := .start {}, candidates := ["c"] },
      { now := .ofSeconds 70 (by decide), call := .start {}, candidates := ["d"] }]

/-- Pages of two operations; before the second the first operation is deleted. -/
def thinned : List Turn :=
  [{ now := .ofSeconds 71 (by decide)
     pageSize := 2
     meanwhile := [{ now := .ofSeconds 71 (by decide), call := .delete "operations/a" }] },
    { now := .ofSeconds 72 (by decide), pageSize := 2 }]

/-- When the first of four operations is deleted, the third moves to where the walk has been. -/
theorem walk_repeats_nothing_thinned :
    (walkAmid thinned four "").map Fetch.names =
      [["operations/a", "operations/b"], ["operations/d"]] ∧
    ∃ earlier later, [earlier, later] <:+: walkAmid thinned four "" ∧
      Skipped "operations/c" earlier later := by
  have fixed : ∀ turn ∈ thinned, turn.NoStart := by
    unfold Turn.NoStart
    decide
  have complete : Complete (walkAmid thinned four "") := ⟨_, _, rfl, rfl, rfl⟩
  have always : ∀ fetch ∈ walkAmid thinned four "",
      "operations/c" ∈ fetch.book.operations.names := by
    decide
  have missing : ∀ fetch ∈ walkAmid thinned four "", "operations/c" ∉ fetch.names := by
    decide
  exact ⟨by decide,
    (walk_repeats_nothing fixed (by decide)).2.2 complete _ always missing⟩

end Service

end Rehearsal
