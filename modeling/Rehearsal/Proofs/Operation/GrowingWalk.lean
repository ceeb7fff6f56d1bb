import Rehearsal.Proofs.Operation.Walk
import Rehearsal.Proofs.Paging.Walk

/-!
# Nothing is lost while operations are only added

A name that is not on a page stands where the page has ended or later.  Names that are added move it
up only, so it is still ahead of the walk at the next page (`Service.Growing.exists_fetch`).
The tokens handed out stay within the operations there are, since these do not get fewer
(`Service.Growing.next`).
-/

namespace Rehearsal

open Time (Instant)
open Paging (Token.value Token.Valid Token.ofOffset Token.limit)

namespace Service

/-- A walk from a token on during which operations are only added. -/
structure Growing (turns : List Turn) (service : Service) (pageToken : String) : Prop where
  kept : ∀ turn ∈ turns, turn.NoDelete
  valid : Token.Valid pageToken
  offset_le : Token.value pageToken ≤ service.operations.size
  /-- A machine word can count the operations. -/
  fits : ∀ fetch ∈ walkAmid turns service pageToken, fetch.book.size < Token.limit

section

variable {service : Service} {turn : Turn} {turns : List Turn} {pageToken : String}

theorem Growing.next (h : Growing (turn :: turns) service pageToken)
    (stop_lt : (service.fetch turn pageToken).stop < service.operations.size)
    (walk_eq : walkAmid (turn :: turns) service pageToken =
      service.fetch turn pageToken :: walkAmid turns (service.afterTurn turn pageToken)
        (Token.ofOffset (service.fetch turn pageToken).stop)) :
    Growing turns (service.afterTurn turn pageToken)
      (Token.ofOffset (service.fetch turn pageToken).stop) := by
  obtain ⟨hturn, hturns⟩ := List.forall_mem_cons.1 h.kept
  have hfits := h.fits
  rw [walk_eq] at hfits
  obtain ⟨hsize, hrest⟩ := List.forall_mem_cons.1 hfits
  have hmono := Table.size_mono (names_subset_afterTurn hturn service pageToken)
  refine ⟨hturns, Paging.Token.valid_ofOffset (Nat.lt_trans stop_lt hsize), ?_, hrest⟩
  rw [Paging.Token.value_ofOffset]
  exact Nat.le_trans (Nat.le_of_lt stop_lt) hmono

theorem Growing.accepted (h : Growing turns service pageToken) :
    ∀ fetch ∈ walkAmid turns service pageToken, fetch.Accepted := by
  induction turns generalizing service pageToken with
  | nil =>
      intro fetch hmem
      cases hmem
  | cons turn turns ih =>
      cases walkStep h.valid turn turns service with
      | refused beyond => exact absurd beyond (Nat.not_lt.2 h.offset_le)
      | last accepted stop_eq walk_eq =>
          rw [walk_eq]
          exact List.forall_mem_singleton.2 accepted
      | next accepted stop_lt walk_eq =>
          have hrest := ih (h.next stop_lt walk_eq)
          rw [walk_eq]
          exact List.forall_mem_cons.2 ⟨accepted, hrest⟩

/-- A complete walk has shown every name that was not behind it at its start. -/
theorem Growing.exists_fetch (h : Growing turns service pageToken)
    (complete : Complete (walkAmid turns service pageToken)) {name : String}
    (hname : name ∈ service.operations.operations.names)
    (hrank : Token.value pageToken ≤ service.operations.operations.rank name) :
    ∃ fetch ∈ walkAmid turns service pageToken, name ∈ fetch.names := by
  induction turns generalizing service pageToken with
  | nil => exact absurd complete not_complete_nil
  | cons turn turns ih =>
      obtain ⟨hturn, hturns⟩ := List.forall_mem_cons.1 h.kept
      cases walkStep h.valid turn turns service with
      | refused beyond => exact absurd beyond (Nat.not_lt.2 h.offset_le)
      | last accepted stop_eq walk_eq =>
          rw [walk_eq]
          refine ⟨_, List.mem_singleton_self _, accepted.mem_names.2 ⟨hname, hrank, ?_⟩⟩
          rw [stop_eq]
          exact Table.rank_lt_size hname
      | next accepted stop_lt walk_eq complete_iff =>
          -- A name beyond the page is still ahead at the next: what is added only moves it up.
          by_cases hstop : service.operations.operations.rank name <
              (service.fetch turn pageToken).stop
          · rw [walk_eq]
            exact ⟨_, List.mem_cons_self, accepted.mem_names.2 ⟨hname, hrank, hstop⟩⟩
          · have hsubset := names_subset_afterTurn hturn service pageToken
            have hahead := Table.rank_mono hsubset name
            have hoffset : Token.value (Token.ofOffset (service.fetch turn pageToken).stop) ≤
                (service.afterTurn turn pageToken).operations.operations.rank name := by
              rw [Paging.Token.value_ofOffset]
              omega
            obtain ⟨fetch, hfetch, hshown⟩ := ih (h.next stop_lt walk_eq)
              (complete_iff.1 complete) (hsubset hname) hoffset
            rw [walk_eq]
            exact ⟨fetch, List.mem_cons_of_mem _ hfetch, hshown⟩

/-! ## Walks during which nothing changes -/

theorem names_afterTurn_eq (kept : turn.NoDelete) (fixed : turn.NoStart) (service : Service)
    (pageToken : String) :
    (service.afterTurn turn pageToken).operations.operations.names =
      service.operations.operations.names :=
  Table.names_eq_of_subset (names_afterTurn_subset fixed service pageToken)
    (names_subset_afterTurn kept service pageToken)

theorem size_afterTurn_eq (kept : turn.NoDelete) (fixed : turn.NoStart) (service : Service)
    (pageToken : String) :
    (service.afterTurn turn pageToken).operations.size = service.operations.size := by
  rw [← OperationBook.length_names, names_afterTurn_eq kept fixed, OperationBook.length_names]

theorem Growing.flatMap_names (h : Growing turns service pageToken)
    (fixed : ∀ turn ∈ turns, turn.NoStart)
    (complete : Complete (walkAmid turns service pageToken)) :
    (walkAmid turns service pageToken).flatMap Fetch.names =
      service.operations.operations.names.drop (Token.value pageToken) := by
  induction turns generalizing service pageToken with
  | nil => exact absurd complete not_complete_nil
  | cons turn turns ih =>
      obtain ⟨hkept, -⟩ := List.forall_mem_cons.1 h.kept
      obtain ⟨hfixed, hrest⟩ := List.forall_mem_cons.1 fixed
      cases walkStep h.valid turn turns service with
      | refused beyond => exact absurd beyond (Nat.not_lt.2 h.offset_le)
      | last accepted stop_eq walk_eq =>
          rw [walk_eq, List.flatMap_singleton, accepted.names_eq, stop_eq]
          refine List.take_of_length_le ?_
          rw [List.length_drop, OperationBook.length_names]
          exact Nat.le_refl _
      | next accepted stop_lt walk_eq complete_iff =>
          have hlater := ih (h.next stop_lt walk_eq) hrest (complete_iff.1 complete)
          have hle : Token.value pageToken ≤ (service.fetch turn pageToken).stop :=
            accepted.offset_le_stop
          rw [walk_eq, List.flatMap_cons, hlater, accepted.names_eq,
            names_afterTurn_eq hkept hfixed, Paging.Token.value_ofOffset]
          have hsplit := List.take_append_drop
            ((service.fetch turn pageToken).stop - Token.value pageToken)
            (service.operations.operations.names.drop (Token.value pageToken))
          rw [List.drop_drop, Nat.add_sub_cancel' hle] at hsplit
          exact hsplit

/-- A walk with a turn for each name that is left is complete, whatever its sizes. -/
theorem Growing.complete (h : Growing turns service pageToken)
    (fixed : ∀ turn ∈ turns, turn.NoStart) (hne : turns ≠ [])
    (hlength : service.operations.size - Token.value pageToken ≤ turns.length) :
    Complete (walkAmid turns service pageToken) := by
  induction turns generalizing service pageToken with
  | nil => exact absurd rfl hne
  | cons turn turns ih =>
      obtain ⟨hkept, -⟩ := List.forall_mem_cons.1 h.kept
      obtain ⟨hfixed, hrest⟩ := List.forall_mem_cons.1 fixed
      cases walkStep h.valid turn turns service with
      | refused beyond => exact absurd beyond (Nat.not_lt.2 h.offset_le)
      | last accepted stop_eq walk_eq complete => exact complete
      | next accepted stop_lt walk_eq complete_iff =>
          have hleft := Nat.lt_of_le_of_lt accepted.offset_le_stop stop_lt
          have hlt : Token.value pageToken < (service.fetch turn pageToken).stop :=
            OperationBook.lt_windowEnd hleft turn.pageSize
          rw [List.length_cons] at hlength
          refine complete_iff.2 (ih (h.next stop_lt walk_eq) hrest ?_ ?_)
          · rintro rfl
            rw [List.length_nil] at hlength
            omega
          · rw [size_afterTurn_eq hkept hfixed, Paging.Token.value_ofOffset]
            omega

theorem Growing.length_eq (h : Growing turns service pageToken)
    (fixed : ∀ turn ∈ turns, turn.NoStart) {size : Int32} (hsize : 0 < size)
    (same : ∀ turn ∈ turns, turn.pageSize = size)
    (hlt : Token.value pageToken < service.operations.size) :
    (walkAmid turns service pageToken).length =
        min turns.length
          ((service.operations.size - Token.value pageToken) ⌈/⌉ size.toInt.toNat) ∧
      (Complete (walkAmid turns service pageToken) ↔
        (service.operations.size - Token.value pageToken) ⌈/⌉ size.toInt.toNat ≤
          turns.length) := by
  have hpos := OperationBook.toNat_pos hsize
  induction turns generalizing service pageToken with
  | nil =>
      have hceil := Paging.ceilDiv_pos hpos (Nat.sub_pos_of_lt hlt)
      exact ⟨(Nat.zero_min _).symm, iff_of_false not_complete_nil (Nat.not_le.2 hceil)⟩
  | cons turn turns ih =>
      obtain ⟨hkept, -⟩ := List.forall_mem_cons.1 h.kept
      obtain ⟨hfixed, hrest⟩ := List.forall_mem_cons.1 fixed
      obtain ⟨hturn, hturns⟩ := List.forall_mem_cons.1 same
      have hstop : (service.fetch turn pageToken).stop =
          min (Token.value pageToken + size.toInt.toNat) service.operations.size := by
        rw [← OperationBook.windowEnd_of_pos hsize, ← hturn]
        rfl
      cases walkStep h.valid turn turns service with
      | refused beyond => exact absurd beyond (Nat.not_lt.2 h.offset_le)
      | last accepted stop_eq walk_eq complete =>
          rw [stop_eq] at hstop
          have hfits : service.operations.size - Token.value pageToken ≤ size.toInt.toNat := by
            omega
          rw [Paging.ceilDiv_eq_one (Nat.sub_pos_of_lt hlt) hfits]
          refine ⟨?_, iff_of_true complete (Nat.le_add_left 1 turns.length)⟩
          rw [walk_eq, List.length_singleton, List.length_cons]
          omega
      | next accepted stop_lt walk_eq complete_iff =>
          have hnext : (service.fetch turn pageToken).stop =
              Token.value pageToken + size.toInt.toNat := by omega
          have hleft : service.operations.size - (Token.value pageToken + size.toInt.toNat) =
              service.operations.size - Token.value pageToken - size.toInt.toNat := by omega
          have hmore : size.toInt.toNat ≤ service.operations.size - Token.value pageToken := by
            omega
          have hahead : Token.value (Token.ofOffset (service.fetch turn pageToken).stop) <
              (service.afterTurn turn pageToken).operations.size := by
            rwa [size_afterTurn_eq hkept hfixed, Paging.Token.value_ofOffset]
          obtain ⟨hlength, hcomplete⟩ := ih (h.next stop_lt walk_eq) hrest hturns hahead
          rw [size_afterTurn_eq hkept hfixed, Paging.Token.value_ofOffset, hnext, hleft]
            at hlength hcomplete
          rw [← Paging.ceilDiv_succ hpos hmore, complete_iff, walk_eq, List.length_cons,
            List.length_cons, hnext, hlength, hcomplete]
          omega

end

/-- A walk over the pages loses nothing while operations are only added: no page fails, each is
ascending and shows what `get` answers, and a complete walk has shown every operation that there
was at its start.  If nothing is started either, it shows each operation once and in order, on as
many pages as they fill.  (An offset is a machine word, so the operations are assumed to be few
enough for one to count them.) -/
theorem walk_loses_nothing {service : Service} {turns : List Turn}
    (kept : ∀ turn ∈ turns, turn.NoDelete)
    (fits : ∀ fetch ∈ walkAmid turns service "", fetch.book.size < Token.limit) :
    (∀ fetch ∈ walkAmid turns service "", ∃ page, fetch.result = .ok page ∧
      (page.operations.map Snapshot.name).Pairwise (· < ·) ∧
      (∀ i snapshot, page.operations[i]? = some snapshot →
        (fetch.book.get (Visit.readingAt fetch.turn.now fetch.turn.later i) snapshot.name).1 =
          .ok snapshot) ∧
      (¬ 0 < fetch.turn.pageSize → page.nextPageToken = "")) ∧
    (Complete (walkAmid turns service "") →
      ∀ name ∈ service.operations.operations.names,
        ∃ fetch ∈ walkAmid turns service "", name ∈ fetch.names) ∧
    ((∀ turn ∈ turns, turn.NoStart) →
      (Complete (walkAmid turns service "") →
        (walkAmid turns service "").flatMap Fetch.names = service.operations.operations.names ∧
        ((walkAmid turns service "").flatMap Fetch.names).Pairwise (· < ·)) ∧
      (turns ≠ [] → service.operations.size ≤ turns.length →
        Complete (walkAmid turns service "")) ∧
      ∀ size : Int32, 0 < size → (∀ turn ∈ turns, turn.pageSize = size) →
        0 < service.operations.size →
        (walkAmid turns service "").length =
            min turns.length (service.operations.size ⌈/⌉ size.toInt.toNat) ∧
          (Complete (walkAmid turns service "") ↔
            service.operations.size ⌈/⌉ size.toInt.toNat ≤ turns.length)) := by
  have h : Growing turns service "" := ⟨kept, Paging.Token.valid_empty, Nat.zero_le _, fits⟩
  refine ⟨?_, ?_, ?_⟩
  · intro fetch hfetch
    have accepted := h.accepted fetch hfetch
    obtain ⟨page, hpage, hnames, hstates, htoken⟩ := accepted.result_eq
    refine ⟨page, hpage, ?_, hstates, ?_⟩
    · rw [hnames, ← accepted.names_eq]
      exact accepted.names_pairwise
    · intro hsize
      have hstop : fetch.stop = fetch.book.size := OperationBook.windowEnd_of_not_pos hsize _ _
      rw [htoken, hstop]
      exact if_neg (Nat.lt_irrefl _)
  · intro complete name hname
    exact h.exists_fetch complete hname (Nat.zero_le _)
  · intro fixed
    refine ⟨?_, ?_, ?_⟩
    · intro complete
      have hnames := h.flatMap_names fixed complete
      rw [Paging.Token.value_empty, List.drop_zero] at hnames
      refine ⟨hnames, ?_⟩
      rw [hnames]
      exact service.operations.operations.names_pairwise
    · intro hne hlength
      exact h.complete fixed hne (Nat.le_trans (Nat.sub_le _ _) hlength)
    · intro size hsize same hpos
      exact h.length_eq fixed hsize same hpos

/-- Two operations. -/
def pair : Service :=
  after default
    [{ now := .ofSeconds 60 (by decide), call := .start {}, candidates := ["b"] },
      { now := .ofSeconds 60 (by decide), call := .start {}, candidates := ["d"] }]

/-- Pages of one operation; before the second another operation is started that comes first. -/
def overtaken : List Turn :=
  [{ now := .ofSeconds 61 (by decide)
     pageSize := 1
     meanwhile :=
      [{ now := .ofSeconds 61 (by decide), call := .start {}, candidates := ["a"] }] },
    { now := .ofSeconds 62 (by decide), pageSize := 1 },
    { now := .ofSeconds 63 (by decide) }]

/-- An operation that is started before those shown so far moves them up, so one is shown again, but
none is left out. -/
theorem walk_loses_nothing_overtaken :
    (walkAmid overtaken pair "").map Fetch.names =
      [["operations/b"], ["operations/b"], ["operations/d"]] ∧
    ∀ name ∈ pair.operations.operations.names,
      ∃ fetch ∈ walkAmid overtaken pair "", name ∈ fetch.names := by
  have kept : ∀ turn ∈ overtaken, turn.NoDelete := by
    unfold Turn.NoDelete
    decide
  have fits : ∀ fetch ∈ walkAmid overtaken pair "", fetch.book.size < Token.limit := by
    decide
  have complete : Complete (walkAmid overtaken pair "") := ⟨_, _, rfl, rfl, rfl⟩
  exact ⟨by decide, (walk_loses_nothing kept fits).2.1 complete⟩

end Service

end Rehearsal
