import Rehearsal.Visit

/-!
# Lists that others disturb

A page of operations is read name by name, and several pages are fetched one after another; in
between others may visit the service.  `Service.listAmid` collects the names and reads one page of
them with a pause before each name, `Service.walkAmid` fetches pages and lets others in between any
two.
-/

namespace Rehearsal

open Time (Instant)

/-- What others do, and the reading of the clock when they have done it. -/
structure Pause where
  visits : List Visit := []
  now : Instant

/-- One name of a page, with the service as it was when the name was read. -/
structure Read where
  name : String
  service : Service
  now : Instant

namespace Read

def look (read : Read) : Except ServiceError Snapshot × OperationBook :=
  read.service.operations.get read.now read.name

/-- What was found. -/
def result (read : Read) : Except ServiceError Snapshot := read.look.1

/-- The service afterwards. -/
def left (read : Read) : Service := { read.service with operations := read.look.2 }

/-- The service after the last of some reads. -/
def leftBy (service : Service) (reads : List Read) : Service :=
  reads.foldl (fun _ read => read.left) service

end Read

/-- What a list comes to that others disturb: its result, the reads it has made and the service
afterwards. -/
structure Listing (α : Type) where
  result : Except ServiceError α
  reads : List Read := []
  left : Service

/-- One request of a walk over pages, and what others do before the next. -/
structure Turn where
  now : Instant
  /-- The further readings of the clock: one for each operation after the first. -/
  later : List Instant := []
  pageSize : Int32 := 0
  meanwhile : List Visit := []

/-- A page that was asked for, with the operations as they were then. -/
structure Fetch where
  book : OperationBook
  turn : Turn
  pageToken : String

namespace Fetch

/-- The offset that the token stands for. -/
def offset (fetch : Fetch) : Nat := Paging.Token.value fetch.pageToken

def listed (fetch : Fetch) : Except ServiceError OperationPage × OperationBook :=
  fetch.book.list fetch.turn.now fetch.turn.pageSize fetch.pageToken fetch.turn.later

def result (fetch : Fetch) : Except ServiceError OperationPage := fetch.listed.1

/-- The operations afterwards. -/
def left (fetch : Fetch) : OperationBook := fetch.listed.2

/-- The names on the page. -/
def names (fetch : Fetch) : List String :=
  match fetch.result with
  | .error _ => []
  | .ok page => page.operations.map Snapshot.name

end Fetch

/-- The pages of a walk that has reached the last one. -/
def Complete (walk : List Fetch) : Prop :=
  ∃ last page, walk.getLast? = some last ∧ last.result = .ok page ∧ page.nextPageToken = ""

namespace Service

/-- Reads names one after another, with a pause before each.  An operation that is gone by then is
left out; any other error ends the reading. -/
def readAmid : (pauses : Nat → Pause) → List String → Service → Listing (List Snapshot)
  | _, [], service => { result := .ok [], left := service }
  | pauses, name :: names, service =>
      let read : Read := ⟨name, service.after (pauses 0).visits, (pauses 0).now⟩
      let later := readAmid (fun i => pauses (i + 1)) names read.left
      match read.result with
      | .ok snapshot =>
          { later with result := later.result.map (snapshot :: ·), reads := read :: later.reads }
      | .error (.operationNotFound _) => { later with reads := read :: later.reads }
      | .error error => { result := .error error, reads := [read], left := read.left }

/-- One page of operations.  The names are collected at once, and then read one by one. -/
def listAmid (service : Service) (pauses : Nat → Pause) (pageSize : Int32) (pageToken : String) :
    Listing OperationPage :=
  let names := service.operations.operations.names
  match Paging.Token.parse pageToken names.length with
  | .error error => { result := .error error, left := service }
  | .ok start =>
      let (shown, nextPageToken) := OperationBook.window names start pageSize
      let reading := readAmid pauses shown service
      { reading with result := reading.result.map (⟨·, nextPageToken⟩) }

/-- Asks for a page. -/
def fetch (service : Service) (turn : Turn) (pageToken : String) : Fetch :=
  ⟨service.operations, turn, pageToken⟩

/-- The service when a page has been read and others have done what they do before the next. -/
def afterTurn (service : Service) (turn : Turn) (pageToken : String) : Service :=
  { service with operations := (service.fetch turn pageToken).left }.after turn.meanwhile

/-- Fetches pages one after another from a token on until the last page or an error. -/
def walkAmid : List Turn → Service → (pageToken : String) → List Fetch
  | [], _, _ => []
  | turn :: turns, service, pageToken =>
      let fetch := service.fetch turn pageToken
      match fetch.result with
      | .error _ => [fetch]
      | .ok page =>
          if page.nextPageToken = "" then [fetch]
          else fetch :: walkAmid turns (service.afterTurn turn pageToken) page.nextPageToken

end Service

end Rehearsal
