import Mathlib.Data.List.Perm.Subperm
import Rehearsal.Operation.Listing

/-!
# One page of operations

A page shows the names of a window in the order of all names.  Where a name stands in that order is
how many names come before it (`Table.rank`), so a name is on the page if its rank lies between the
offset of the page and the end of the window (`mem_take_drop_iff`).  Taking names away moves the
others down and adding some moves them up (`Table.rank_mono`).
-/

namespace Rehearsal

open Time (Instant)
open Paging (Token.value Token.parse Token.ofOffset Token.limit)

/-! ## Ranks -/

/-- How many names of a table come before a name. -/
def Table.rank {α : Type} (table : Table α) (name : String) : Nat :=
  table.names.countP (· < name)

theorem countP_lt_of_getElem? {names : List String} (h : names.Pairwise (· < ·)) {i : Nat}
    {name : String} (hname : names[i]? = some name) : names.countP (· < name) = i := by
  induction names generalizing i with
  | nil => cases hname
  | cons first rest ih =>
      cases i with
      | zero =>
          cases hname
          refine List.countP_eq_zero.2 ?_
          intro other hother
          rw [decide_eq_true_iff]
          rcases List.mem_cons.1 hother with rfl | hrest
          · exact String.lt_irrefl _
          · exact String.lt_asymm (List.rel_of_pairwise_cons h hrest)
      | succ i =>
          have hrest : rest[i]? = some name := hname
          have hlt := List.rel_of_pairwise_cons h (List.mem_of_getElem? hrest)
          simp only [List.countP_cons, hlt, decide_true, if_true, ih h.of_cons hrest]

theorem getElem?_eq_some_iff_countP {names : List String} (h : names.Pairwise (· < ·)) {i : Nat}
    {name : String} : names[i]? = some name ↔ name ∈ names ∧ names.countP (· < name) = i := by
  constructor
  · intro hname
    exact ⟨List.mem_of_getElem? hname, countP_lt_of_getElem? h hname⟩
  · rintro ⟨hmem, rfl⟩
    obtain ⟨i, hi⟩ := List.mem_iff_getElem?.1 hmem
    rwa [countP_lt_of_getElem? h hi]

/-- A stretch of ascending names holds those whose ranks it spans. -/
theorem mem_take_drop_iff {names : List String} (h : names.Pairwise (· < ·)) {start stop : Nat}
    {name : String} :
    name ∈ (names.drop start).take (stop - start) ↔
      name ∈ names ∧ start ≤ names.countP (· < name) ∧ names.countP (· < name) < stop := by
  constructor
  · intro hmem
    obtain ⟨i, hi⟩ := List.mem_iff_getElem?.1 hmem
    rw [List.getElem?_take] at hi
    split at hi
    · rw [List.getElem?_drop] at hi
      obtain ⟨hname, hrank⟩ := (getElem?_eq_some_iff_countP h).1 hi
      exact ⟨hname, by omega, by omega⟩
    · cases hi
  · rintro ⟨hname, hstart, hstop⟩
    have hi := (getElem?_eq_some_iff_countP h).2 ⟨hname, rfl⟩
    refine List.mem_iff_getElem?.2 ⟨names.countP (· < name) - start, ?_⟩
    rw [List.getElem?_take_of_lt (by omega), List.getElem?_drop, Nat.add_sub_cancel' hstart]
    exact hi

namespace Table

variable {α : Type} {first second : Table α} {name other : String}

theorem rank_lt_size (h : name ∈ first.names) : first.rank name < first.size := by
  have hname := (getElem?_eq_some_iff_countP first.names_pairwise).2 ⟨h, rfl⟩
  have hlength : first.names.length = first.size := List.length_map _
  rw [← hlength]
  exact (List.getElem?_eq_some_iff.1 hname).1

theorem subperm_of_subset (h : first.names ⊆ second.names) : first.names.Subperm second.names :=
  List.subperm_of_subset first.names_nodup h

/-- A name stands no lower where there are more names. -/
theorem rank_mono (h : first.names ⊆ second.names) (name : String) :
    first.rank name ≤ second.rank name :=
  (subperm_of_subset h).countP_le _

theorem size_mono (h : first.names ⊆ second.names) : first.size ≤ second.size := by
  have hlength := (subperm_of_subset h).length_le
  rwa [names, names, List.length_map, List.length_map] at hlength

theorem names_eq_of_subset (h : first.names ⊆ second.names) (hback : second.names ⊆ first.names) :
    first.names = second.names := by
  refine names_eq fun name => ?_
  rw [Bool.eq_iff_iff, ← mem_names, ← mem_names]
  exact ⟨fun hname => h hname, fun hname => hback hname⟩

/-- The name of lower rank is the smaller one. -/
theorem lt_of_rank_lt (h : first.rank name < first.rank other) : name < other := by
  refine Decidable.byContradiction fun hle => ?_
  have hrank : first.rank other ≤ first.rank name := by
    refine List.countP_mono_left fun smaller _ hsmaller => ?_
    rw [decide_eq_true_iff] at hsmaller ⊢
    exact Std.lt_of_lt_of_le hsmaller (String.not_lt.1 hle)
  omega

/-- A name that stands lower in a second table has lost a smaller one. -/
theorem exists_lt_of_rank_lt (h : second.rank name < first.rank name) :
    ∃ smaller, smaller < name ∧ smaller ∈ first.names ∧ smaller ∉ second.names := by
  refine Classical.byContradiction fun hnone => ?_
  have hsubset : first.names.filter (· < name) ⊆ second.names.filter (· < name) := by
    intro smaller hsmaller
    obtain ⟨hmem, hlt⟩ := List.mem_filter.1 hsmaller
    refine List.mem_filter.2 ⟨Decidable.byContradiction fun hgone => ?_, hlt⟩
    exact hnone ⟨smaller, of_decide_eq_true hlt, hmem, hgone⟩
  have hlength := (List.subperm_of_subset (first.names_nodup.filter _) hsubset).length_le
  rw [← List.countP_eq_length_filter, ← List.countP_eq_length_filter] at hlength
  exact Nat.not_le.2 h hlength

theorem length_names (table : Table α) : table.names.length = table.size := List.length_map _

end Table

namespace OperationBook

/-! ## Windows -/

/-- Where the window of a page ends. -/
def windowEnd (total start : Nat) (pageSize : Int32) : Nat :=
  min (start + if 0 < pageSize then pageSize.toInt.toNat else total) total

theorem window_eq (names : List String) (start : Nat) (pageSize : Int32) :
    window names start pageSize =
      ((names.drop start).take (windowEnd names.length start pageSize - start),
        if windowEnd names.length start pageSize < names.length then
          Token.ofOffset (windowEnd names.length start pageSize) else "") := rfl

theorem windowEnd_le (total start : Nat) (pageSize : Int32) :
    windowEnd total start pageSize ≤ total := Nat.min_le_right _ _

theorem le_windowEnd {total start : Nat} (h : start ≤ total) (pageSize : Int32) :
    start ≤ windowEnd total start pageSize := by
  unfold windowEnd
  omega

theorem windowEnd_of_pos {pageSize : Int32} (h : 0 < pageSize) (total start : Nat) :
    windowEnd total start pageSize = min (start + pageSize.toInt.toNat) total := by
  rw [windowEnd, if_pos h]

theorem windowEnd_of_not_pos {pageSize : Int32} (h : ¬ 0 < pageSize) (total start : Nat) :
    windowEnd total start pageSize = total := by
  rw [windowEnd, if_neg h]
  omega

theorem toNat_pos {pageSize : Int32} (h : 0 < pageSize) : 0 < pageSize.toInt.toNat := by
  have hpos : 0 < pageSize.toInt := Int32.lt_iff_toInt_lt.1 h
  omega

/-- A window that does not start at the end is not empty. -/
theorem lt_windowEnd {total start : Nat} (h : start < total) (pageSize : Int32) :
    start < windowEnd total start pageSize := by
  by_cases hsize : 0 < pageSize
  · have hpos := toNat_pos hsize
    rw [windowEnd_of_pos hsize]
    omega
  · rwa [windowEnd_of_not_pos hsize]

/-! ## Looks -/

variable {book first : OperationBook} {name : String}

theorem contains_update (book : OperationBook) (name other : String)
    (act : Operation → OperationState × Operation) :
    (book.update name act).2.operations.contains other = book.operations.contains other := by
  rw [Table.contains, Table.contains]
  by_cases hother : other = name
  · subst hother
    cases hop : book.operations.get? other with
    | none => rw [update_of_none act hop, hop]
    | some op =>
        rw [update_of_some act hop, Table.get?_insert_self]
        rfl
  · rw [get?_update_of_ne hother]

theorem names_update (book : OperationBook) (name : String)
    (act : Operation → OperationState × Operation) :
    (book.update name act).2.operations.names = book.operations.names :=
  Table.names_eq fun other => contains_update book name other act

/-- Asking for an operation that is there. -/
theorem get_of_mem (h : name ∈ book.operations.names) (now : Instant) :
    ∃ state, (book.get now name).1 = .ok ⟨name, state⟩ ∧
      ∀ other, other ≠ name →
        (book.get now name).2.operations.get? other = book.operations.get? other := by
  obtain ⟨op, hop⟩ := Option.isSome_iff_exists.1 (Table.mem_names.1 h)
  unfold get
  rw [update_of_some _ hop]
  exact ⟨_, rfl, fun other hother => Table.get?_insert_of_ne _ _ hother⟩

theorem get_congr (h : book.operations.get? name = first.operations.get? name) (now : Instant) :
    (book.get now name).1 = (first.get now name).1 := (update_congr h _).1

theorem names_look (now : Instant) (later : List Instant) (names : List String)
    (book : OperationBook) :
    (look now later names book).2.operations.names = book.operations.names := by
  induction names generalizing now later book with
  | nil => rfl
  | cons name names ih =>
      have hnames : (book.get now name).2.operations.names = book.operations.names :=
        names_update book name _
      unfold look
      split
      · rename_i last heq
        rw [heq] at hnames
        exact (ih _ _ last).trans hnames
      · rename_i last heq
        rw [heq] at hnames
        exact (ih _ _ last).trans hnames

/-- A look at operations that are there shows each as it was before the look, at its own reading of
the clock. -/
theorem look_of_mem {names : List String} (nodup : names.Nodup)
    (hmem : ∀ name ∈ names, name ∈ book.operations.names)
    (hsame : ∀ name ∈ names, book.operations.get? name = first.operations.get? name)
    (now : Instant) (later : List Instant) :
    (look now later names book).1.map Snapshot.name = names ∧
      ∀ i snapshot, (look now later names book).1[i]? = some snapshot →
        (first.get (Visit.readingAt now later i) snapshot.name).1 = .ok snapshot := by
  -- Each name is read once, so what has been read before it has not touched it.
  induction names generalizing now later book with
  | nil =>
      refine ⟨rfl, ?_⟩
      intro i snapshot hsnapshot
      cases hsnapshot
  | cons name names ih =>
      obtain ⟨hname, nodup⟩ := List.nodup_cons.1 nodup
      obtain ⟨state, hstate, hothers⟩ := get_of_mem (hmem name List.mem_cons_self) now
      have hne (other : String) (hother : other ∈ names) : other ≠ name := by
        rintro rfl
        exact hname hother
      have hmem' : ∀ other ∈ names, other ∈ (book.get now name).2.operations.names := by
        intro other hother
        rw [get, names_update]
        exact hmem other (List.mem_cons_of_mem name hother)
      have hsame' : ∀ other ∈ names,
          (book.get now name).2.operations.get? other = first.operations.get? other := by
        intro other hother
        rw [hothers other (hne other hother)]
        exact hsame other (List.mem_cons_of_mem name hother)
      obtain ⟨hnames, hstates⟩ := ih nodup hmem' hsame' (later.headD now) later.tail
      rw [look_cons_of_ok (Prod.ext hstate rfl)]
      refine ⟨congrArg (name :: ·) hnames, ?_⟩
      intro i snapshot hsnapshot
      cases i with
      | zero =>
          cases hsnapshot
          rw [← hstate, get_congr (hsame name List.mem_cons_self)]
          rfl
      | succ i => exact hstates i snapshot hsnapshot

/-! ## Pages -/

theorem nodup_window (book : OperationBook) (start : Nat) (pageSize : Int32) :
    (window book.operations.names start pageSize).1.Nodup :=
  (book.operations.names_nodup.sublist (List.drop_sublist _ _)).sublist (List.take_sublist _ _)

/-- What a page shows of an operation is what asking for it shows, at the reading of its place. -/
theorem get_of_listed {now : Instant} {later : List Instant} {pageSize : Int32}
    {pageToken : String} {page : OperationPage}
    (h : (book.list now pageSize pageToken later).1 = .ok page) {i : Nat} {snapshot : Snapshot}
    (listed : page.operations[i]? = some snapshot) :
    (book.get (Visit.readingAt now later i) snapshot.name).1 = .ok snapshot := by
  cases hparse : Token.parse pageToken book.operations.names.length with
  | error error =>
      rw [list_of_error now pageSize later hparse] at h
      cases h
  | ok start =>
      rw [list_of_ok now pageSize later hparse] at h
      cases h
      obtain ⟨-, hstates⟩ := look_of_mem (book.nodup_window start pageSize)
        (fun _ => mem_of_mem_window) (fun _ _ => rfl) now later
      exact hstates i snapshot listed

end OperationBook

end Rehearsal
