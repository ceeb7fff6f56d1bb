import Rehearsal.Proofs.Operation.Page

/-!
# Lists that others disturb

Between the reads of one list others may do anything, so each name of the window is shown or left
out as it is found when it is read (`Reading`).  No read adds or removes a name, and none changes an
operation that is not in the window: outside of the window a service that is listed cannot be told
from one that is not (`Service.AlikeOutside`).
-/

namespace Rehearsal

open OperationBook (windowEnd look_cons_of_ok)
open Paging (Token.parse Token.ofOffset)
open Time (Instant)

/-! ## Operations outside of a window -/

/-- Books with the same names, and the same operations outside of a window. -/
structure OperationBook.AlikeOutside (window : List String) (first second : OperationBook) :
    Prop where
  present (name : String) : first.operations.contains name = second.operations.contains name
  values (name : String) :
    name ∉ window → first.operations.get? name = second.operations.get? name

namespace OperationBook.AlikeOutside

variable {window : List String} {first second : OperationBook} {name : String}

theorem refl (book : OperationBook) : book.AlikeOutside window book :=
  ⟨fun _ => rfl, fun _ _ => rfl⟩

theorem names_eq (h : first.AlikeOutside window second) :
    first.operations.names = second.operations.names := Table.names_eq h.present

theorem update (h : first.AlikeOutside window second) (name : String)
    (act : Operation → OperationState × Operation) :
    (first.update name act).2.AlikeOutside window (second.update name act).2 where
  present other := by rw [contains_update, contains_update, h.present]
  values other hother := by
    by_cases heq : other = name
    · subst heq
      exact (update_congr (h.values other hother) act).2
    · rw [get?_update_of_ne heq, get?_update_of_ne heq, h.values other hother]

/-- What is done to an operation in the window is not seen outside. -/
theorem update_left (h : first.AlikeOutside window second) (hname : name ∈ window)
    (act : Operation → OperationState × Operation) :
    (first.update name act).2.AlikeOutside window second where
  present other := by rw [contains_update, h.present]
  values other hother := by
    have hne : other ≠ name := by
      rintro rfl
      exact hother hname
    rw [get?_update_of_ne hne, h.values other hother]

theorem delete (h : first.AlikeOutside window second) (name : String) :
    (first.delete name).2.AlikeOutside window (second.delete name).2 where
  present other := by
    rw [Table.contains, Table.contains, get?_delete, get?_delete]
    split
    · rfl
    · exact h.present other
  values other hother := by rw [get?_delete, get?_delete, h.values other hother]

theorem insert (h : first.AlikeOutside window second) (name : String) (op : Operation) :
    AlikeOutside window ⟨first.operations.insert name op⟩ ⟨second.operations.insert name op⟩ where
  present other := by
    rw [Table.contains, Table.contains, Table.get?_insert, Table.get?_insert]
    split
    · rfl
    · exact h.present other
  values other hother := by rw [Table.get?_insert, Table.get?_insert, h.values other hother]

theorem look (h : first.AlikeOutside window second) (now : Instant) (later : List Instant)
    (names : List String) :
    (OperationBook.look now later names first).2.AlikeOutside window
      (OperationBook.look now later names second).2 := by
  induction names generalizing first second now later with
  | nil => exact h
  | cons name names ih =>
      have hget : (first.get now name).2.AlikeOutside window (second.get now name).2 :=
        h.update name _
      have hpresent := h.present name
      cases hop : first.operations.get? name with
      | none =>
          rw [Table.contains, Table.contains, hop] at hpresent
          have hother : second.operations.get? name = none :=
            Option.isNone_iff_eq_none.1 (by rw [← Option.not_isSome, ← hpresent]; rfl)
          simp only [OperationBook.look, get_of_none hop, get_of_none hother]
          exact ih h _ _
      | some op =>
          rw [Table.contains, Table.contains, hop] at hpresent
          obtain ⟨other, hother⟩ := Option.isSome_iff_exists.1 hpresent.symm
          rw [get_of_some hop, get_of_some hother] at hget
          rw [look_cons_of_ok (get_of_some hop now), look_cons_of_ok (get_of_some hother now)]
          exact ih hget _ _

theorem list (h : first.AlikeOutside window second) (now : Instant) (pageSize : Int32)
    (pageToken : String) (later : List Instant) :
    (first.list now pageSize pageToken later).2.AlikeOutside window
      (second.list now pageSize pageToken later).2 := by
  have hnames := h.names_eq
  cases hparse : Token.parse pageToken first.operations.names.length with
  | error error =>
      rw [list_of_error now pageSize later hparse,
        list_of_error now pageSize later (hnames ▸ hparse)]
      exact h
  | ok start =>
      rw [list_of_ok now pageSize later hparse, list_of_ok now pageSize later (hnames ▸ hparse),
        hnames]
      exact h.look now later _

end OperationBook.AlikeOutside

/-- Services that are the same but for the operations in a window. -/
structure Service.AlikeOutside (window : List String) (first second : Service) : Prop where
  settings : first.settings = second.settings
  retries : first.retries = second.retries
  operations : first.operations.AlikeOutside window second.operations

namespace Service.AlikeOutside

variable {window : List String} {first second : Service}

theorem refl (service : Service) : service.AlikeOutside window service := ⟨rfl, rfl, .refl _⟩

theorem visit (h : first.AlikeOutside window second) (visit : Visit) :
    (first.visit visit).2.AlikeOutside window (second.visit visit).2 where
  settings := by rw [settings_visit, settings_visit, h.settings]
  retries := by rw [retries_visit, retries_visit, h.retries]
  operations := by
    obtain ⟨now, call, candidates, later⟩ := visit
    cases call with
    | setupRetry responses =>
        simp only [Service.visit, perform, h.retries]
        split <;> exact h.operations
    | retry id => exact h.operations
    | start spec =>
        have hcontains : first.operations.operations.contains =
            second.operations.operations.contains := funext h.operations.present
        simp only [Service.visit, perform]
        cases hfresh : Ident.firstFresh? first.operations.operations.contains
            (candidates.map (operationNamespace ++ ·)) with
        | none =>
            rw [OperationBook.start_of_not_fresh now spec hfresh,
              OperationBook.start_of_not_fresh now spec (hcontains ▸ hfresh)]
            exact h.operations
        | some fresh =>
            rw [OperationBook.start_of_fresh now spec hfresh,
              OperationBook.start_of_fresh now spec (hcontains ▸ hfresh)]
            exact h.operations.insert _ _
    | get name => exact h.operations.update name _
    | list pageSize pageToken => exact h.operations.list now pageSize pageToken later
    | cancel name => exact h.operations.update name _
    | delete name => exact h.operations.delete name
    | paginate request => exact h.operations

theorem after (h : first.AlikeOutside window second) (visits : List Visit) :
    (first.after visits).AlikeOutside window (second.after visits) := by
  induction visits generalizing first second with
  | nil => exact h
  | cons visit rest ih => exact ih (h.visit visit)

theorem read {read : Read} (h : read.service.AlikeOutside window second)
    (hname : read.name ∈ window) : read.left.AlikeOutside window second :=
  ⟨h.settings, h.retries, h.operations.update_left hname _⟩

end Service.AlikeOutside

/-! ## Reads -/

namespace Read

/-- The state of an operation that is there. -/
def found? (read : Read) : Option Snapshot :=
  (read.service.operations.operations.get? read.name).map fun op =>
    ⟨read.name, (op.evaluate read.now).1⟩

theorem result_eq (read : Read) :
    read.result =
      match read.found? with
      | some snapshot => .ok snapshot
      | none => .error (.operationNotFound read.name) := by
  unfold result look found?
  cases hop : read.service.operations.operations.get? read.name with
  | none => rw [OperationBook.get_of_none hop]; rfl
  | some op => rw [OperationBook.get_of_some hop]; rfl

theorem names_sublist (reads : List Read) :
    ((reads.filterMap found?).map Snapshot.name).Sublist (reads.map Read.name) := by
  induction reads with
  | nil => exact .slnil
  | cons read reads ih =>
      rw [List.filterMap_cons, List.map_cons]
      cases hop : read.service.operations.operations.get? read.name with
      | none =>
        rw [found?, hop]
        exact ih.cons _
      | some op =>
        rw [found?, hop]
        exact ih.cons_cons _

end Read

namespace Service

theorem readAmid_cons (pauses : Nat → Pause) (name : String) (names : List String)
    (service : Service) :
    service.readAmid pauses (name :: names) =
      let read : Read := ⟨name, service.after (pauses 0).visits, (pauses 0).now⟩
      let later := read.left.readAmid (fun i => pauses (i + 1)) names
      { result := later.result.map (read.found?.toList ++ ·), reads := read :: later.reads
        left := later.left } := by
  have hresult := Read.result_eq ⟨name, service.after (pauses 0).visits, (pauses 0).now⟩
  rw [readAmid]
  cases hfound : Read.found? ⟨name, service.after (pauses 0).visits, (pauses 0).now⟩ with
  | none =>
      rw [hfound] at hresult
      have hsame (result : Except ServiceError (List Snapshot)) :
          result.map (([] : List Snapshot) ++ ·) = result := by
        cases result <;> rfl
      simp only [hresult, hfound, Option.toList_none, hsame]
  | some snapshot =>
      rw [hfound] at hresult
      simp only [hresult, hfound]
      rfl

/-- The reads of some names from a state on, one after another with a pause before each. -/
structure Reading (pauses : Nat → Pause) (names : List String) (service : Service)
    (reads : List Read) (left : Service) : Prop where
  names : reads.map Read.name = names
  step (i : Nat) (read : Read) : reads[i]? = some read →
    read.now = (pauses i).now ∧
      read.service = (Read.leftBy service (reads.take i)).after (pauses i).visits
  left : left = Read.leftBy service reads

theorem reading_readAmid (pauses : Nat → Pause) (names : List String) (service : Service) :
    let listing := service.readAmid pauses names
    Reading pauses names service listing.reads listing.left := by
  induction names generalizing pauses service with
  | nil =>
      refine ⟨rfl, ?_, rfl⟩
      intro i read hread
      cases hread
  | cons name names ih =>
      rw [readAmid_cons]
      have later := ih (fun i => pauses (i + 1))
        (Read.left ⟨name, service.after (pauses 0).visits, (pauses 0).now⟩)
      refine ⟨congrArg (name :: ·) later.names, ?_, later.left⟩
      intro i read hread
      cases i with
      | zero =>
          cases hread
          exact ⟨rfl, rfl⟩
      | succ i => exact later.step i read hread

/-- Whatever others do, reading does not fail: it shows what is found. -/
theorem result_readAmid (pauses : Nat → Pause) (names : List String) (service : Service) :
    (service.readAmid pauses names).result =
      .ok ((service.readAmid pauses names).reads.filterMap Read.found?) := by
  induction names generalizing pauses service with
  | nil => rfl
  | cons name names ih =>
      simp only [readAmid_cons, ih, List.filterMap_cons]
      cases Read.found? _ <;> rfl

/-- Reads leave no trace outside of their window. -/
theorem readAmid_alikeOutside {window names : List String} (hnames : names ⊆ window)
    {service other : Service} (h : service.AlikeOutside window other) (pauses : Nat → Pause) :
    (service.readAmid pauses names).left.AlikeOutside window
      (other.after ((List.range names.length).flatMap fun i => (pauses i).visits)) := by
  induction names generalizing pauses service other with
  | nil => exact h
  | cons name names ih =>
      rw [readAmid_cons, List.length_cons, List.range_succ_eq_map, List.flatMap_cons,
        List.flatMap_map, after_append]
      refine ih (fun _ hmem => hnames (List.mem_cons_of_mem _ hmem)) ?_ fun i => pauses (i + 1)
      exact (h.after (pauses 0).visits).read (hnames List.mem_cons_self)

/-- Reads with nobody in between are a look. -/
theorem readAmid_undisturbed (service : Service) {names : List String}
    (hmem : ∀ name ∈ names, name ∈ service.operations.operations.names) (now : Instant)
    (later : List Instant) :
    let listing := service.readAmid (fun i => ⟨[], Visit.readingAt now later i⟩) names
    listing.result = .ok (OperationBook.look now later names service.operations).1 ∧
      listing.left = { service with
        operations := (OperationBook.look now later names service.operations).2 } := by
  induction names generalizing service now later with
  | nil => exact ⟨rfl, rfl⟩
  | cons name names ih =>
      obtain ⟨op, hop⟩ :=
        Option.isSome_iff_exists.1 (Table.mem_names.1 (hmem name List.mem_cons_self))
      have hget : service.operations.get now name =
          (.ok ⟨name, (op.evaluate now).1⟩, (service.operations.get now name).2) :=
        Prod.ext (by rw [OperationBook.get_of_some hop]) rfl
      have hrest : ∀ other ∈ names,
          other ∈ (service.operations.get now name).2.operations.names := by
        intro other hother
        rw [OperationBook.get, OperationBook.names_update]
        exact hmem other (List.mem_cons_of_mem _ hother)
      obtain ⟨hresult, hleft⟩ := ih
        { service with operations := (service.operations.get now name).2 } hrest
        (later.headD now) later.tail
      have hfound : Read.found? ⟨name, service, now⟩ = some ⟨name, (op.evaluate now).1⟩ := by
        rw [Read.found?, hop]
        rfl
      rw [readAmid_cons, look_cons_of_ok hget]
      refine ⟨?_, hleft⟩
      show Except.map ((Read.found? ⟨name, service, now⟩).toList ++ ·) _ = _
      rw [hfound]
      exact congrArg (Except.map _) hresult

/-! ## The list -/

theorem listAmid_of_error {service : Service} {pageSize : Int32} {pageToken : String}
    {error : ServiceError} (pauses : Nat → Pause)
    (h : Token.parse pageToken service.operations.operations.names.length = .error error) :
    service.listAmid pauses pageSize pageToken = { result := .error error, left := service } := by
  rw [listAmid]
  simp only [h]

theorem listAmid_of_ok {service : Service} {pageToken : String} {start : Nat}
    (pauses : Nat → Pause) (pageSize : Int32)
    (h : Token.parse pageToken service.operations.operations.names.length = .ok start) :
    let window := OperationBook.window service.operations.operations.names start pageSize
    service.listAmid pauses pageSize pageToken =
      let reading := service.readAmid pauses window.1
      { reading with result := .ok ⟨reading.reads.filterMap Read.found?, window.2⟩ } := by
  rw [listAmid]
  simp only [h, result_readAmid]
  rfl

/-- A list with nobody in between is the list that the service runs. -/
theorem listAmid_undisturbed (service : Service) (now : Instant) (candidates : List String)
    (later : List Instant) (pageSize : Int32) (pageToken : String) :
    let listing :=
      service.listAmid (fun i => ⟨[], Visit.readingAt now later i⟩) pageSize pageToken
    service.perform now candidates (.list pageSize pageToken) later =
      (listing.result.map .operations, listing.left) := by
  cases hparse : Token.parse pageToken service.operations.operations.names.length with
  | error error =>
      rw [listAmid_of_error _ hparse, perform,
        OperationBook.list_of_error now pageSize later hparse]
  | ok start =>
      have hmem : ∀ name ∈ (OperationBook.window service.operations.operations.names start
          pageSize).1, name ∈ service.operations.operations.names :=
        fun name hname => OperationBook.mem_of_mem_window hname
      obtain ⟨hresult, hleft⟩ := readAmid_undisturbed service hmem now later
      rw [result_readAmid] at hresult
      rw [listAmid_of_ok _ pageSize hparse, perform,
        OperationBook.list_of_ok now pageSize later hparse]
      simp only [hleft, Except.ok.inj hresult]

/-- A list fails only if the number of names it has collected does not allow its token.  Otherwise
it reads the names of its window one by one, and shows those that are there when they are read,
each in its state at that moment; the next token is fixed from the beginning.  Operations outside
of the window are not touched.  With nobody in between it is the list that the service runs. -/
theorem list_tolerates_change (service : Service) (pauses : Nat → Pause) (pageSize : Int32)
    (pageToken : String) :
    let names := service.operations.operations.names
    let listing := service.listAmid pauses pageSize pageToken
    (∀ error, Token.parse pageToken names.length = .error error →
      (∃ reason, error = .invalidPageToken pageToken reason) ∧
        listing = { result := .error error, left := service }) ∧
    (∀ start, Token.parse pageToken names.length = .ok start →
      let stop := windowEnd names.length start pageSize
      let window := (names.drop start).take (stop - start)
      start ≤ stop ∧ stop ≤ names.length ∧ window.length = stop - start ∧
      Reading pauses window service listing.reads listing.left ∧
      listing.left.AlikeOutside window
        (service.after ((List.range window.length).flatMap fun i => (pauses i).visits)) ∧
      ∃ page, listing.result = .ok page ∧
        page.operations = listing.reads.filterMap Read.found? ∧
        page.nextPageToken = (if stop < names.length then Token.ofOffset stop else "") ∧
        (page.operations.map Snapshot.name).Sublist window ∧
        (page.operations.map Snapshot.name).Pairwise (· < ·) ∧
        (0 < pageSize → page.operations.length ≤ pageSize.toInt.toNat)) ∧
    ∀ now candidates later, (∀ i, pauses i = ⟨[], Visit.readingAt now later i⟩) →
      service.perform now candidates (.list pageSize pageToken) later =
        (listing.result.map .operations, listing.left) := by
  intro names listing
  refine ⟨fun error h => ⟨Paging.Token.eq_invalidPageToken_of_parse h, listAmid_of_error _ h⟩,
    fun start h => ?_, fun now candidates later hpauses => ?_⟩
  · intro stop window
    have hstart := OperationBook.le_windowEnd (Paging.Token.le_of_parse h) pageSize
    have hstop := OperationBook.windowEnd_le names.length start pageSize
    have hlength : window.length = stop - start := by
      rw [List.length_take, List.length_drop]
      omega
    have hlisting : listing = { service.readAmid pauses window with
        result := .ok ⟨(service.readAmid pauses window).reads.filterMap Read.found?,
          (OperationBook.window names start pageSize).2⟩ } :=
      listAmid_of_ok pauses pageSize h
    have reading := reading_readAmid pauses window service
    have sublist := Read.names_sublist (service.readAmid pauses window).reads
    rw [reading.names] at sublist
    rw [hlisting]
    refine ⟨hstart, hstop, hlength, reading,
      readAmid_alikeOutside (List.Subset.refl window) (.refl service) pauses, _, rfl, rfl, rfl,
      sublist, ?_, fun hsize => ?_⟩
    · exact ((Table.names_pairwise _).sublist
        ((List.take_sublist _ _).trans (List.drop_sublist _ _))).sublist sublist
    · have hshort := sublist.length_le
      rw [List.length_map, hlength] at hshort
      have hend : stop = min (start + pageSize.toInt.toNat) names.length :=
        OperationBook.windowEnd_of_pos hsize names.length start
      exact Nat.le_trans hshort (by omega)
  · have hsame : pauses = fun i => ⟨[], Visit.readingAt now later i⟩ := funext hpauses
    simp only [listing, hsame]
    exact listAmid_undisturbed service now candidates later pageSize pageToken

/-- A service with operations `a`, `b`, `c` and `d`, pending until the second 96. -/
def fourOperations : Service :=
  ({ settings := default } : Service).after <| ["a", "b", "c", "d"].map fun candidate =>
    { now := .ofSeconds 95 (by decide)
      call := .start { completion := some (.ofSeconds 96 (by decide)), success := some candidate }
      candidates := [candidate] }

/-- Somebody deletes `b` after `a` has been read, and then `c`, whose name is given again. -/
def deletions : Nat → Pause
  | 1 => ⟨[{ now := .ofSeconds 95 (by decide), call := .delete "operations/b" }],
      .ofSeconds 95 (by decide)⟩
  | 2 => ⟨[{ now := .ofSeconds 95 (by decide), call := .delete "operations/c" },
      { now := .ofSeconds 96 (by decide), call := .start { success := some "again" }
        candidates := ["c"] }], .ofSeconds 97 (by decide)⟩
  | _ => ⟨[], .ofSeconds 95 (by decide)⟩

theorem list_tolerates_change_deletions :
    let listing := fourOperations.listAmid deletions 3 ""
    ∃ page, listing.result = .ok page ∧
      page.operations.map Snapshot.name = ["operations/a", "operations/c"] ∧
      page.operations.getLast? = some ⟨"operations/c", .done (.succeeded "again")⟩ ∧
      page.nextPageToken = "3" ∧ page.operations.length ≤ 3 := by
  intro listing
  obtain ⟨-, haccepted, -⟩ := list_tolerates_change fourOperations deletions 3 ""
  obtain ⟨-, -, -, -, -, page, hpage, hoperations, htoken, -, -, hlength⟩ :=
    haccepted 0 (Paging.Token.parse_empty _)
  refine ⟨page, hpage, ?_, ?_, htoken.trans (by decide), hlength (by decide)⟩
  · rw [hoperations]
    decide
  · rw [hoperations]
    decide

end Service

end Rehearsal
