import Rehearsal.Visit

/-!
# Operations by their history

What is to be answered about an operation, read off from what has been done to operations so far
and from nothing else.  `History.life?` looks for the start of the operation and for the
cancellations after it that came in time; `Life.stateAt` is what such an operation shows at a
reading of the clock, and `History.tell?` the answer to a whole visit.  Looks at operations leave no
trace in a history.
-/

namespace Rehearsal

open Time (Instant)

/-- Something done to an operation that can matter later. -/
inductive Deed where
  | started (name : String) (spec : OperationSpec)
  /-- A cancellation was asked for, in time or not. -/
  | cancelled (name : String)
  | deleted (name : String)
  deriving DecidableEq, Repr

/-- Deeds with the readings of the clock they were done at, the latest first. -/
abbrev History := List (Instant × Deed)

/-- What a history tells about an operation that exists. -/
structure Life where
  due : Instant
  planned : Outcome
  /-- Whether it was cancelled before it was due. -/
  cancelled : Bool := false
  deriving DecidableEq, Repr

namespace Life

def begin (now : Instant) (spec : OperationSpec) : Life where
  due := spec.completion.getD now
  planned := spec.outcome

/-- A cancellation counts if it comes before the operation is due. -/
def cancelAt (life : Life) (now : Instant) : Life :=
  { life with cancelled := life.cancelled || decide (now < life.due) }

def stateAt (life : Life) (now : Instant) : OperationState :=
  if life.cancelled then .done .cancelled
  else if life.due ≤ now then .done life.planned
  else .pending (life.due.since now)

end Life

namespace History

/-- The life of the operation of a name, if there is one. -/
def life? (name : String) : History → Option Life
  | [] => none
  | (now, .started started spec) :: earlier =>
      if started = name then some (.begin now spec) else life? name earlier
  | (now, .cancelled cancelled) :: earlier =>
      if cancelled = name then (life? name earlier).map (·.cancelAt now) else life? name earlier
  | (_, .deleted deleted) :: earlier => if deleted = name then none else life? name earlier

/-- The names of the operations that exist. -/
def names : History → Table Unit
  | [] => {}
  | (_, .started name _) :: earlier => (names earlier).insert name ()
  | (_, .cancelled _) :: earlier => names earlier
  | (_, .deleted name) :: earlier => (names earlier).erase name

/-- What is to be seen of the operation of a name. -/
def see (history : History) (now : Instant) (name : String) : Except ServiceError Snapshot :=
  match history.life? name with
  | none => .error (.operationNotFound name)
  | some life => .ok ⟨name, life.stateAt now⟩

/-- What is to be seen of several operations, each at its reading of the clock. -/
def seeAll (history : History) (visit : Visit) (names : List String) : List Snapshot :=
  (names.mapIdx fun i name =>
    history.see (Visit.readingAt visit.now visit.later i) name).filterMap Except.toOption

/-- What is to be seen on a page of operations. -/
def page (history : History) (visit : Visit) (pageSize : Int32) (pageToken : String) :
    Except ServiceError OperationPage :=
  let names := history.names.names
  match Paging.Token.parse pageToken names.length with
  | .error error => .error error
  | .ok start =>
      let (shown, nextPageToken) := OperationBook.window names start pageSize
      .ok ⟨history.seeAll visit shown, nextPageToken⟩

section

variable {history : History} (visit : Visit) (pageSize : Int32) {pageToken : String}

theorem page_of_error {error : ServiceError}
    (h : Paging.Token.parse pageToken history.names.names.length = .error error) :
    history.page visit pageSize pageToken = .error error := by
  simp [page, h]

theorem page_of_ok {start : Nat}
    (h : Paging.Token.parse pageToken history.names.names.length = .ok start) :
    history.page visit pageSize pageToken =
      .ok ⟨history.seeAll visit (OperationBook.window history.names.names start pageSize).1,
        (OperationBook.window history.names.names start pageSize).2⟩ := by
  simp [page, h]

end

/-- The name of the next operation: the first candidate that no operation has. -/
def nextName? (history : History) (candidates : List String) : Option String :=
  (Ident.firstFresh? (fun name => (history.life? name).isSome)
    (candidates.map (operationNamespace ++ ·))).map Prod.fst

/-- What a visit does to operations. -/
def deed? (history : History) (visit : Visit) : Option Deed :=
  match visit.call with
  | .start spec => (history.nextName? visit.candidates).map (.started · spec)
  | .cancel name => some (.cancelled name)
  | .delete name => some (.deleted name)
  | _ => none

def add (history : History) (visit : Visit) : History :=
  match history.deed? visit with
  | some deed => (visit.now, deed) :: history
  | none => history

def ofRun (visits : List Visit) : History := visits.foldl add []

/-- The answer to a visit, if its call is about operations. -/
def tell? (history : History) (visit : Visit) : Option (Except ServiceError Answer) :=
  let later := history.add visit
  match visit.call with
  | .start _ =>
      match history.nextName? visit.candidates with
      | some name => some ((later.see visit.now name).map .operation)
      | none => some (.ok .noName)
  | .get name | .cancel name => some ((later.see visit.now name).map .operation)
  | .list pageSize pageToken => some ((later.page visit pageSize pageToken).map .operations)
  | .delete name =>
      match history.life? name with
      | some _ => some (.ok .done)
      | none => some (.error (.operationNotFound name))
  | _ => none

end History

end Rehearsal
