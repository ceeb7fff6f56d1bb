import Rehearsal.Ident
import Rehearsal.Operation.Entry
import Rehearsal.Paging.Token
import Rehearsal.Table

/-!
# The operations of a service

Operations by name.  Every call is given the readings of the clock it sees: a list takes one for
each operation it reads, all others take one at most.  A look at one operation (`get`) or at a page
of them (`list`) may record outcomes, but only of the operations it shows.
-/

namespace Rehearsal

open Time (Instant)
open Paging (Token.parse Token.ofOffset)

/-- What the names of operations begin with. -/
def operationNamespace : String := "operations/"

/-- A page of operations. -/
structure OperationPage where
  operations : List Snapshot
  /-- The token of the next page, empty on the last. -/
  nextPageToken : String
  deriving DecidableEq, Repr

/-- The operations of a service, by name. -/
structure OperationBook where
  operations : Table Operation := {}
  deriving Inhabited

namespace OperationBook

/-- Starts an operation under the first candidate that is not in use.  Without such a candidate
nothing happens. -/
def start (book : OperationBook) (now : Instant) (spec : OperationSpec)
    (candidates : List String) : Option (Snapshot × OperationBook) := do
  let names := candidates.map (operationNamespace ++ ·)
  let (name, _) ← Ident.firstFresh? book.operations.contains names
  let (state, op) := (Operation.ofSpec spec now).evaluate now
  return (⟨name, state⟩, ⟨book.operations.insert name op⟩)

theorem start_of_fresh {book : OperationBook} {candidates later : List String} {name : String}
    (now : Instant) (spec : OperationSpec)
    (h : Ident.firstFresh? book.operations.contains (candidates.map (operationNamespace ++ ·)) =
      some (name, later)) :
    book.start now spec candidates =
      some (⟨name, ((Operation.ofSpec spec now).evaluate now).1⟩,
        ⟨book.operations.insert name ((Operation.ofSpec spec now).evaluate now).2⟩) := by
  simp [start, h]

theorem start_of_not_fresh {book : OperationBook} {candidates : List String} (now : Instant)
    (spec : OperationSpec)
    (h : Ident.firstFresh? book.operations.contains (candidates.map (operationNamespace ++ ·)) =
      none) : book.start now spec candidates = none := by
  simp [start, h]

/-- Lets `act` see one operation, and keeps what becomes of it. -/
def update (book : OperationBook) (name : String)
    (act : Operation → OperationState × Operation) :
    Except ServiceError Snapshot × OperationBook :=
  match book.operations.get? name with
  | none => (.error (.operationNotFound name), book)
  | some op =>
      let (state, later) := act op
      (.ok ⟨name, state⟩, ⟨book.operations.insert name later⟩)

theorem update_of_none {book : OperationBook} {name : String}
    (act : Operation → OperationState × Operation) (h : book.operations.get? name = none) :
    book.update name act = (.error (.operationNotFound name), book) := by
  simp [update, h]

theorem update_of_some {book : OperationBook} {name : String} {op : Operation}
    (act : Operation → OperationState × Operation) (h : book.operations.get? name = some op) :
    book.update name act =
      (.ok ⟨name, (act op).1⟩, ⟨book.operations.insert name (act op).2⟩) := by
  simp [update, h]

section

variable {book first second : OperationBook} {name other : String}

theorem get?_update_of_ne (h : other ≠ name) (act : Operation → OperationState × Operation) :
    (book.update name act).2.operations.get? other = book.operations.get? other := by
  cases hop : book.operations.get? name with
  | none => rw [update_of_none act hop]
  | some op => rw [update_of_some act hop, Table.get?_insert_of_ne _ _ h]

theorem update_congr (h : first.operations.get? name = second.operations.get? name)
    (act : Operation → OperationState × Operation) :
    (first.update name act).1 = (second.update name act).1 ∧
      (first.update name act).2.operations.get? name =
        (second.update name act).2.operations.get? name := by
  cases hop : second.operations.get? name with
  | none =>
      rw [update_of_none act (h.trans hop), update_of_none act hop]
      exact ⟨rfl, h⟩
  | some op =>
      rw [update_of_some act (h.trans hop), update_of_some act hop]
      refine ⟨rfl, ?_⟩
      rw [Table.get?_insert_self, Table.get?_insert_self]

end

/-- A look at one operation. -/
def get (book : OperationBook) (now : Instant) (name : String) :
    Except ServiceError Snapshot × OperationBook := book.update name (·.evaluate now)

theorem get_of_none {book : OperationBook} {name : String} (h : book.operations.get? name = none)
    (now : Instant) : book.get now name = (.error (.operationNotFound name), book) :=
  update_of_none _ h

theorem get_of_some {book : OperationBook} {name : String} {op : Operation}
    (h : book.operations.get? name = some op) (now : Instant) :
    book.get now name = (.ok ⟨name, (op.evaluate now).1⟩,
      ⟨book.operations.insert name (op.evaluate now).2⟩) := update_of_some _ h

section

variable {book : OperationBook} {now : Instant} {name : String} {op : Operation}
  (hop : book.operations.get? name = some op)
include hop

theorem get_of_recorded {outcome : Outcome} (hr : op.recorded = some outcome) :
    book.get now name = (.ok ⟨name, .done outcome⟩, book) := by
  rw [get_of_some hop, Operation.evaluate_of_recorded hr, Table.insert_of_get? hop]

theorem get_of_due (hr : op.recorded = none) (hdue : op.due ≤ now) :
    book.get now name = (.ok ⟨name, .done op.planned⟩,
      ⟨book.operations.insert name { op with recorded := some op.planned }⟩) := by
  rw [get_of_some hop, Operation.evaluate_of_due hr hdue]

theorem get_of_not_due (hr : op.recorded = none) (hdue : ¬ op.due ≤ now) :
    book.get now name = (.ok ⟨name, .pending (op.due.since now)⟩, book) := by
  rw [get_of_some hop, Operation.evaluate_of_not_due hr hdue, Table.insert_of_get? hop]

end

/-- Cancels one operation if it is pending. -/
def cancel (book : OperationBook) (now : Instant) (name : String) :
    Except ServiceError Snapshot × OperationBook := book.update name (·.cancel now)

/-- Forgets one operation. -/
def delete (book : OperationBook) (name : String) : Except ServiceError Unit × OperationBook :=
  if book.operations.contains name then (.ok (), ⟨book.operations.erase name⟩)
  else (.error (.operationNotFound name), book)

theorem delete_of_none {book : OperationBook} {name : String}
    (h : book.operations.get? name = none) :
    book.delete name = (.error (.operationNotFound name), book) := by
  simp [delete, Table.contains, h]

theorem delete_of_some {book : OperationBook} {name : String} {op : Operation}
    (h : book.operations.get? name = some op) :
    book.delete name = (.ok (), ⟨book.operations.erase name⟩) := by
  simp [delete, Table.contains, h]

theorem get?_delete (book : OperationBook) (name other : String) :
    (book.delete name).2.operations.get? other =
      if other = name then none else book.operations.get? other := by
  cases hop : book.operations.get? name with
  | none =>
      rw [delete_of_none hop]
      split
      · rename_i heq
        rw [heq, hop]
      · rfl
  | some op => rw [delete_of_some hop, Table.get?_erase]

theorem delete_congr {first second : OperationBook} {name : String}
    (h : first.operations.get? name = second.operations.get? name) :
    (first.delete name).1 = (second.delete name).1 := by
  cases hop : second.operations.get? name with
  | none => rw [delete_of_none (h.trans hop), delete_of_none hop]
  | some op => rw [delete_of_some (h.trans hop), delete_of_some hop]

/-- A look at several operations, one after another: the first is read at `now`, each further one
at the next of the `later` readings, and the clock stands still when there are no more of these.
Names without an operation are passed over. -/
def look : (now : Instant) → (later : List Instant) → List String → OperationBook →
    List Snapshot × OperationBook
  | _, _, [], book => ([], book)
  | now, later, name :: names, book =>
      match book.get now name with
      | (.ok snapshot, book) =>
          let (snapshots, last) := look (later.headD now) later.tail names book
          (snapshot :: snapshots, last)
      | (.error _, book) => look now later names book

theorem look_cons_of_ok {book last : OperationBook} {now : Instant} {later : List Instant}
    {name : String} {names : List String} {snapshot : Snapshot}
    (h : book.get now name = (.ok snapshot, last)) :
    look now later (name :: names) book =
      (snapshot :: (look (later.headD now) later.tail names last).1,
        (look (later.headD now) later.tail names last).2) := by
  simp [look, h]

/-- The window of a page on a list of names: the names in it and the token of what follows. -/
def window (names : List String) (start : Nat) (pageSize : Int32) : List String × String :=
  let size := if 0 < pageSize then pageSize.toInt.toNat else names.length
  let stop := min (start + size) names.length
  ((names.drop start).take (stop - start),
    if stop < names.length then Token.ofOffset stop else "")

theorem mem_of_mem_window {names : List String} {start : Nat} {pageSize : Int32} {name : String}
    (h : name ∈ (window names start pageSize).1) : name ∈ names :=
  List.mem_of_mem_drop (List.mem_of_mem_take h)

/-- One page of operations in the order of their names.  A size that is not positive asks for all
of them. -/
def list (book : OperationBook) (now : Instant) (pageSize : Int32) (pageToken : String)
    (later : List Instant := []) : Except ServiceError OperationPage × OperationBook :=
  let names := book.operations.names
  match Token.parse pageToken names.length with
  | .error error => (.error error, book)
  | .ok start =>
      let (shown, nextPageToken) := window names start pageSize
      let (snapshots, last) := look now later shown book
      (.ok ⟨snapshots, nextPageToken⟩, last)

section

variable {book : OperationBook} (now : Instant) (pageSize : Int32) {pageToken : String}
  (later : List Instant)

theorem list_of_error {error : ServiceError}
    (h : Token.parse pageToken book.operations.names.length = .error error) :
    book.list now pageSize pageToken later = (.error error, book) := by
  simp [list, h]

theorem list_of_ok {start : Nat}
    (h : Token.parse pageToken book.operations.names.length = .ok start) :
    book.list now pageSize pageToken later =
      (.ok ⟨(look now later (window book.operations.names start pageSize).1 book).1,
          (window book.operations.names start pageSize).2⟩,
        (look now later (window book.operations.names start pageSize).1 book).2) := by
  simp [list, h]

end

def size (book : OperationBook) : Nat := book.operations.size

def isEmpty (book : OperationBook) : Bool := book.operations.isEmpty

end OperationBook

end Rehearsal
