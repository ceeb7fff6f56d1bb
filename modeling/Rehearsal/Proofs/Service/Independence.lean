import Mathlib.Data.List.Find
import Rehearsal.Service

/-!
# Independent calls

A service keeps nothing but a script for each identifier and an operation for each name.  A call
depends on what there is under the keys that it concerns, and changes nothing under any other
(`Service.Confined`); a call that creates something concerns the name that it draws.  So two calls
that concern no key in common can be made in either order (`Confined.commute`).
-/

namespace Rehearsal

open Paging (PageRequest)
open Time (Instant)

/-! ## Acts on tables -/

namespace Table

variable {α β : Type}

/-- An act on a table that depends on the values of some names only, and changes no others. -/
structure Confined (names : String → Prop) (act : Table α → β × Table α) : Prop where
  outside (table : Table α) (name : String) :
    ¬ names name → (act table).2.get? name = table.get? name
  inside (first second : Table α) : (∀ name, names name → first.get? name = second.get? name) →
    (act first).1 = (act second).1 ∧
      ∀ name, names name → (act first).2.get? name = (act second).2.get? name

theorem confined_at (name : String) {act : Table α → β × Table α}
    (outside : ∀ table other, other ≠ name → (act table).2.get? other = table.get? other)
    (inside : ∀ first second, first.get? name = second.get? name →
      (act first).1 = (act second).1 ∧ (act first).2.get? name = (act second).2.get? name) :
    Confined (· = name) act where
  outside := outside
  inside first second h := by
    obtain ⟨hanswer, hvalue⟩ := inside first second (h name rfl)
    refine ⟨hanswer, ?_⟩
    rintro _ rfl
    exact hvalue

theorem confined_all (act : Table α → β × Table α) : Confined (fun _ => True) act where
  outside _ _ h := absurd trivial h
  inside first second h := by
    rw [ext_get? fun name => h name trivial]
    exact ⟨rfl, fun _ _ => rfl⟩

/-- The first of some names that has no value. -/
def free? (table : Table α) (names : List String) : Option String :=
  names.find? fun name => !table.contains name

/-- Gives a value to the first of some names that has none. -/
def claim (names : List String) (value : α) (table : Table α) : Option String × Table α :=
  match table.free? names with
  | none => (none, table)
  | some name => (some name, table.insert name value)

theorem claim_confined (names : List String) (value : α) :
    Confined (· ∈ names) (claim names value) where
  outside table name hname := by
    unfold claim
    split
    · rfl
    · rename_i claimed hfree
      apply get?_insert_of_ne
      rintro rfl
      exact hname (List.mem_of_find?_eq_some hfree)
  inside first second h := by
    have hfree : first.free? names = second.free? names :=
      List.find?_congr fun name hmem => congrArg (!Option.isSome ·) (h name hmem)
    unfold claim
    rw [hfree]
    split
    · exact ⟨rfl, h⟩
    · refine ⟨rfl, fun name hmem => ?_⟩
      rw [get?_insert, get?_insert, h name hmem]

/-- Only the name that is claimed need be offered. -/
theorem claim_free? (names : List String) (value : α) (table : Table α) :
    claim (table.free? names).toList value table = claim names value table := by
  cases hfree : table.free? names with
  | none =>
      have hnil : table.free? [] = none := rfl
      simp [claim, hfree, hnil]
  | some name =>
      have hself : table.free? [name] = some name := by
        rw [free?, List.find?_singleton, if_pos (List.find?_some hfree)]
      simp [claim, hfree, hself]

theorem contains_of_mem_free? {table : Table α} {names : List String} {name : String}
    (h : name ∈ (table.free? names).toList) : table.contains name = false := by
  have hfree := List.find?_some (Option.mem_toList.1 h)
  simpa using hfree

theorem contains_claim {table : Table α} {names : List String} {name : String}
    (h : name ∈ (table.free? names).toList) (value : α) :
    (claim names value table).2.contains name = true := by
  have hfree : table.free? names = some name := Option.mem_toList.1 h
  simp [claim, hfree, contains]

end Table

namespace RetryBook

theorem attempt_confined (id : String) :
    Table.Confined (· = id) fun scripts =>
      let met := RetryBook.attempt ⟨scripts⟩ id
      (met.1, met.2.scripts) :=
  Table.confined_at id (fun _ _ h => get?_attempt_of_ne _ h) fun _ _ h => attempt_congr h

end RetryBook

namespace OperationBook

theorem update_confined (name : String) (act : Operation → OperationState × Operation) :
    Table.Confined (· = name) fun operations =>
      let seen := OperationBook.update ⟨operations⟩ name act
      (seen.1, seen.2.operations) :=
  Table.confined_at name (fun _ _ h => get?_update_of_ne h act) fun _ _ h => update_congr h act

theorem delete_confined (name : String) :
    Table.Confined (· = name) fun operations =>
      let seen := OperationBook.delete ⟨operations⟩ name
      (seen.1, seen.2.operations) := by
  refine Table.confined_at name (fun table other h => ?_) fun first second h => ?_
  · exact (get?_delete ⟨table⟩ name other).trans (if_neg h)
  · have hfirst := get?_delete ⟨first⟩ name name
    have hsecond := get?_delete ⟨second⟩ name name
    rw [if_pos rfl] at hfirst hsecond
    exact ⟨delete_congr h, hfirst.trans hsecond.symm⟩

theorem list_confined (now : Instant) (pageSize : Int32) (pageToken : String) :
    Table.Confined (fun _ => True) fun operations =>
      let seen := OperationBook.list ⟨operations⟩ now pageSize pageToken
      (seen.1, seen.2.operations) :=
  Table.confined_all _

end OperationBook

/-! ## Keys -/

/-- What a service keeps something under. -/
inductive Key where
  | script (id : String)
  | operation (name : String)
  deriving DecidableEq

namespace Key

/-- What is kept under a key. -/
def Value : Key → Type
  | .script _ => Script
  | .operation _ => Operation

def scripts (ids : String → Prop) : Key → Prop
  | .script id => ids id
  | .operation _ => False

def operations (names : String → Prop) : Key → Prop
  | .script _ => False
  | .operation name => names name

end Key

namespace Service

def value? (service : Service) : (key : Key) → Option key.Value
  | .script id => service.retries.scripts.get? id
  | .operation name => service.operations.operations.get? name

theorem ext_value? {first second : Service} (hsettings : first.settings = second.settings)
    (h : ∀ key, first.value? key = second.value? key) : first = second := by
  obtain ⟨settings, ⟨scripts⟩, ⟨operations⟩⟩ := first
  obtain ⟨_, ⟨others⟩, ⟨otherOperations⟩⟩ := second
  cases hsettings
  have hscripts : scripts = others := Table.ext_get? fun id => h (.script id)
  have hoperations : operations = otherOperations :=
    Table.ext_get? fun name => h (.operation name)
  rw [hscripts, hoperations]

/-- Services that cannot be told apart by some keys. -/
structure Agree (keys : Key → Prop) (first second : Service) : Prop where
  settings : first.settings = second.settings
  values (key : Key) : keys key → first.value? key = second.value? key

/-- A run that depends on what there is under some keys only, and changes nothing else. -/
structure Confined (keys : Key → Prop) (run : Service → Except ServiceError Answer × Service) :
    Prop where
  settings (service : Service) : (run service).2.settings = service.settings
  outside (service : Service) (key : Key) :
    ¬ keys key → (run service).2.value? key = service.value? key
  inside (first second : Service) : first.Agree keys second →
    (run first).1 = (run second).1 ∧ (run first).2.Agree keys (run second).2

/-- Runs that have no key in common can be made in either order. -/
theorem Confined.commute {keys others : Key → Prop}
    {first second : Service → Except ServiceError Answer × Service} (hfirst : Confined keys first)
    (hsecond : Confined others second) (apart : ∀ key, keys key → ¬ others key)
    (service : Service) :
    (second service).1 = (second (first service).2).1 ∧
      (first (second service).2).1 = (first service).1 ∧
      (first (second service).2).2 = (second (first service).2).2 := by
  have hbefore : (second service).2.Agree keys service :=
    ⟨hsecond.settings service, fun key h => hsecond.outside service key (apart key h)⟩
  have hafter : service.Agree others (first service).2 :=
    ⟨(hfirst.settings service).symm,
      fun key h => (hfirst.outside service key fun hkey => apart key hkey h).symm⟩
  obtain ⟨hanswer, hvalues⟩ := hfirst.inside _ _ hbefore
  obtain ⟨hother, hothers⟩ := hsecond.inside _ _ hafter
  refine ⟨hother, hanswer, ext_value? ?_ fun key => ?_⟩
  · rw [hvalues.settings, hfirst.settings, hsecond.settings, hfirst.settings]
  · by_cases hkey : keys key
    · rw [hvalues.values key hkey, hsecond.outside _ key (apart key hkey)]
    · rw [hfirst.outside _ key hkey]
      by_cases hkey' : others key
      · exact hothers.values key hkey'
      · rw [hsecond.outside _ key hkey', hsecond.outside _ key hkey', hfirst.outside _ key hkey]

variable {α : Type}

/-- An act on the scripts. -/
theorem confined_scripts {ids : String → Prop} {act : Table Script → α × Table Script}
    (h : Table.Confined ids act) (answer : α → Except ServiceError Answer) :
    Confined (Key.scripts ids) fun service =>
      (answer (act service.retries.scripts).1,
        { service with retries := ⟨(act service.retries.scripts).2⟩ }) where
  settings _ := rfl
  outside service key hkey := by
    cases key with
    | script id => exact h.outside _ id hkey
    | operation name => rfl
  inside first second agree := by
    obtain ⟨hanswer, hvalues⟩ := h.inside _ _ fun id => agree.values (.script id)
    refine ⟨congrArg answer hanswer, agree.settings, fun key hkey => ?_⟩
    cases key with
    | script id => exact hvalues id hkey
    | operation name => exact hkey.elim

/-- An act on the operations. -/
theorem confined_operations {names : String → Prop}
    {act : Table Operation → α × Table Operation} (h : Table.Confined names act)
    (answer : α → Except ServiceError Answer) :
    Confined (Key.operations names) fun service =>
      (answer (act service.operations.operations).1,
        { service with operations := ⟨(act service.operations.operations).2⟩ }) where
  settings _ := rfl
  outside service key hkey := by
    cases key with
    | script id => rfl
    | operation name => exact h.outside _ name hkey
  inside first second agree := by
    obtain ⟨hanswer, hvalues⟩ := h.inside _ _ fun name => agree.values (.operation name)
    refine ⟨congrArg answer hanswer, agree.settings, fun key hkey => ?_⟩
    cases key with
    | script id => exact hkey.elim
    | operation name => exact hvalues name hkey

end Service

/-! ## Calls -/

/-- The keys that a call is about that draws its name from some candidates. -/
def Call.Concerns (candidates : List String) : Call → Key → Prop
  | .setupRetry _ => Key.scripts (· ∈ candidates)
  | .retry id => Key.scripts (· = id)
  | .start _ => Key.operations (· ∈ candidates.map (operationNamespace ++ ·))
  | .get name | .cancel name | .delete name => Key.operations (· = name)
  | .list .. => Key.operations fun _ => True
  | .paginate _ => fun _ => False

namespace Service

theorem perform_setupRetry (service : Service) (now : Instant) (candidates : List String)
    (responses : List Status) :
    service.perform now candidates (.setupRetry responses) =
      let claimed := service.retries.scripts.claim candidates ⟨responses, 0⟩
      (.ok (claimed.1.elim .noName .script), { service with retries := ⟨claimed.2⟩ }) := by
  have hfirst : _ = service.retries.scripts.free? candidates :=
    Ident.map_fst_firstFresh? service.retries.scripts.contains candidates
  cases hfresh : Ident.firstFresh? service.retries.scripts.contains candidates with
  | none =>
      rw [hfresh] at hfirst
      simp [perform, RetryBook.setup_of_not_fresh responses hfresh, Table.claim, ← hfirst]
  | some fresh =>
      rw [hfresh] at hfirst
      simp [perform, RetryBook.setup_of_fresh responses hfresh, Table.claim, ← hfirst]

theorem perform_start (service : Service) (now : Instant) (candidates : List String)
    (spec : OperationSpec) :
    service.perform now candidates (.start spec) =
      let started := (Operation.ofSpec spec now).evaluate now
      let claimed := service.operations.operations.claim
        (candidates.map (operationNamespace ++ ·)) started.2
      (.ok (claimed.1.elim .noName fun name => .operation ⟨name, started.1⟩),
        { service with operations := ⟨claimed.2⟩ }) := by
  have hfirst : _ = service.operations.operations.free?
      (candidates.map (operationNamespace ++ ·)) :=
    Ident.map_fst_firstFresh? service.operations.operations.contains _
  cases hfresh : Ident.firstFresh? service.operations.operations.contains
      (candidates.map (operationNamespace ++ ·)) with
  | none =>
      rw [hfresh] at hfirst
      simp [perform, OperationBook.start_of_not_fresh now spec hfresh, Table.claim, ← hfirst]
  | some fresh =>
      rw [hfresh] at hfirst
      simp [perform, OperationBook.start_of_fresh now spec hfresh, Table.claim, ← hfirst]

theorem perform_confined (call : Call) (now : Instant) (candidates : List String) :
    Confined (call.Concerns candidates) fun service => service.perform now candidates call := by
  cases call with
  | setupRetry responses =>
      simp only [perform_setupRetry]
      exact confined_scripts (Table.claim_confined _ _) fun id => .ok (id.elim .noName .script)
  | retry id =>
      exact confined_scripts (RetryBook.attempt_confined id) (·.map fun _ => .done)
  | start spec =>
      simp only [perform_start]
      exact confined_operations (Table.claim_confined _ _) fun name =>
        .ok (name.elim .noName fun name => .operation ⟨name, _⟩)
  | get name =>
      exact confined_operations (OperationBook.update_confined name (·.evaluate now))
        (·.map .operation)
  | cancel name =>
      exact confined_operations (OperationBook.update_confined name (·.cancel now))
        (·.map .operation)
  | delete name =>
      exact confined_operations (OperationBook.delete_confined name) (·.map fun _ => .done)
  | list pageSize pageToken =>
      exact confined_operations (OperationBook.list_confined now pageSize pageToken)
        (·.map .operations)
  | paginate request =>
      refine ⟨fun _ => rfl, fun _ _ _ => rfl, fun first second agree => ⟨?_, agree⟩⟩
      rw [perform, perform, agree.settings]

/-- Of the candidates that a call is offered, the one that it draws if it creates something. -/
def drawn (service : Service) (candidates : List String) : Call → List String
  | .setupRetry _ => (service.retries.scripts.free? candidates).toList
  | .start _ =>
      (candidates.find? fun candidate =>
        !service.operations.operations.contains (operationNamespace ++ candidate)).toList
  | _ => []

/-- The names of operations that a start draws. -/
theorem map_drawn_start (service : Service) (candidates : List String) (spec : OperationSpec) :
    (service.drawn candidates (.start spec)).map (operationNamespace ++ ·) =
      (service.operations.operations.free?
        (candidates.map (operationNamespace ++ ·))).toList := by
  rw [Table.free?, List.find?_map, Option.toList_map]
  rfl

/-- Candidates that a call does not draw make no difference to it. -/
theorem perform_drawn (service : Service) (now : Instant) (candidates : List String)
    (call : Call) :
    service.perform now (service.drawn candidates call) call =
      service.perform now candidates call := by
  cases call with
  | setupRetry responses =>
      rw [perform_setupRetry, perform_setupRetry, drawn, Table.claim_free?]
  | start spec => simp only [perform_start, map_drawn_start, Table.claim_free?]
  | retry | get | list | cancel | delete | paginate => rfl

end Service

/-! ## Independent calls -/

namespace Call

/-- Whether a call creates something, under a name that it draws. -/
def isCreation : Call → Bool
  | .setupRetry _ | .start _ => true
  | _ => false

def isAboutScripts : Call → Bool
  | .setupRetry _ | .retry _ => true
  | _ => false

def isAboutOperations : Call → Bool
  | .start _ | .get _ | .list .. | .cancel _ | .delete _ => true
  | _ => false

/-- The operation that a call names. -/
def name? : Call → Option String
  | .get name | .cancel name | .delete name => some name
  | _ => none

/-- Calls that have nothing to do with each other, the first of which draws its name from some
candidates. -/
inductive Independent (candidates : List String) : Call → Call → Prop where
  | pagination (request : PageRequest) (other : Call) :
      Independent candidates (.paginate request) other
  | kinds {first second : Call} (hfirst : first.isAboutScripts = true)
      (hsecond : second.isAboutOperations = true) : Independent candidates first second
  | retries {id other : String} (h : id ≠ other) :
      Independent candidates (.retry id) (.retry other)
  | names {first second : Call} {name other : String} (hfirst : first.name? = some name)
      (hsecond : second.name? = some other) (h : name ≠ other) :
      Independent candidates first second
  | start {second : Call} {name : String} (spec : OperationSpec)
      (hsecond : second.name? = some name)
      (h : name ∉ candidates.map (operationNamespace ++ ·)) :
      Independent candidates (.start spec) second

variable {call : Call} {candidates : List String} {key : Key}

theorem eq_script_of_concerns (hcall : call.isAboutScripts = true)
    (h : call.Concerns candidates key) : ∃ id, key = .script id := by
  cases key with
  | script id => exact ⟨id, rfl⟩
  | operation name => cases call <;> first | exact h.elim | cases hcall

theorem eq_operation_of_concerns (hcall : call.isAboutOperations = true)
    (h : call.Concerns candidates key) : ∃ name, key = .operation name := by
  cases key with
  | script id => cases call <;> first | exact h.elim | cases hcall
  | operation name => exact ⟨name, rfl⟩

theorem eq_of_concerns {name : String} (hcall : call.name? = some name)
    (h : call.Concerns candidates key) : key = .operation name := by
  cases key with
  | script id => cases call <;> first | exact h.elim | cases hcall
  | operation other =>
      cases call with
      | get | cancel | delete =>
          cases hcall
          cases (show other = name from h)
          rfl
      | _ => cases hcall

/-- Independent calls concern no key in common. -/
theorem Independent.apart {first second : Call} {others : List String}
    (independent : Independent candidates first second) (h : first.Concerns candidates key) :
    ¬ second.Concerns others key := by
  intro hkey
  cases independent with
  | pagination => exact h
  | kinds hfirst hsecond =>
      obtain ⟨id, rfl⟩ := eq_script_of_concerns hfirst h
      obtain ⟨name, hname⟩ := eq_operation_of_concerns hsecond hkey
      cases hname
  | retries hne =>
      cases key with
      | script id => exact hne ((show id = _ from h).symm.trans hkey)
      | operation name => exact h
  | names hfirst hsecond hne =>
      cases (eq_of_concerns hfirst h).symm.trans (eq_of_concerns hsecond hkey)
      exact hne rfl
  | start spec hsecond hname =>
      cases eq_of_concerns hsecond hkey
      exact hname h

end Call

namespace Service

/-- What has been created once is not created again. -/
theorem creations_apart (service : Service) (now : Instant) {first second : Call}
    (hfirst : first.isCreation = true) (hsecond : second.isCreation = true)
    (candidates others : List String) (key : Key)
    (h : first.Concerns (service.drawn candidates first) key) :
    ¬ second.Concerns ((service.perform now candidates first).2.drawn others second) key := by
  intro hkey
  cases first with
  | setupRetry responses =>
      cases second with
      | setupRetry others =>
          cases key with
          | script id =>
              have hused := Table.contains_claim h (⟨responses, 0⟩ : Script)
              have hfree := Table.contains_of_mem_free? hkey
              rw [perform_setupRetry] at hfree
              exact Bool.false_ne_true (hfree.symm.trans hused)
          | operation name => exact h
      | start spec => cases key <;> assumption
      | _ => cases hsecond
  | start spec =>
      cases second with
      | setupRetry responses => cases key <;> assumption
      | start other =>
          cases key with
          | script id => exact h
          | operation name =>
              simp only [Call.Concerns, Key.operations, map_drawn_start] at h hkey
              have hused := Table.contains_claim h ((Operation.ofSpec spec now).evaluate now).2
              have hfree := Table.contains_of_mem_free? hkey
              rw [perform_start] at hfree
              exact Bool.false_ne_true (hfree.symm.trans hused)
      | _ => cases hsecond
  | _ => cases hfirst

/-- Two calls at the same reading of the clock that concern no key in common, each taken together
with the name that it draws, can be made in either order: both orders give the same two answers and
the same state.  Calls that are independent concern no key in common, and no more do two calls that
create something. -/
theorem independent_calls_commute (service : Service) (now : Instant) (first second : Call)
    (candidates others : List String) :
    let one := service.perform now candidates first
    let two := one.2.perform now others second
    let name := service.drawn candidates first
    let other := one.2.drawn others second
    service.perform now name first = one ∧ one.2.perform now other second = two ∧
    (Call.Independent name first second ∨ Call.Independent other second first ∨
        (first.isCreation = true ∧ second.isCreation = true) →
      ∀ key, first.Concerns name key → ¬ second.Concerns other key) ∧
    ((∀ key, first.Concerns name key → ¬ second.Concerns other key) →
      let alone := service.perform now other second
      let both := alone.2.perform now name first
      alone.1 = two.1 ∧ both.1 = one.1 ∧ both.2 = two.2) := by
  intro one two name other
  have hone : service.perform now name first = one := perform_drawn _ _ _ _
  have htwo : one.2.perform now other second = two := perform_drawn _ _ _ _
  refine ⟨hone, htwo, ?_, fun apart => ?_⟩
  · rintro (independent | independent | ⟨hfirst, hsecond⟩) key h
    · exact independent.apart h
    · exact fun hkey => independent.apart hkey h
    · exact creations_apart service now hfirst hsecond candidates others key h
  · rw [← htwo, ← hone]
    exact (perform_confined first now name).commute (perform_confined second now other) apart
      service

/-- A service with one operation. -/
def withOneOperation : Service where
  settings := default
  operations := ⟨Table.empty.insert "operations/a"
    { due := .ofSeconds 90 (by decide), planned := .succeeded "" }⟩

/-- A start is offered the name of an operation that is deleted at the same reading of the clock.
The two commute because the start has drawn another name; offered both names again after the
deletion, it would draw the first. -/
theorem independent_calls_commute_offered :
    let service := withOneOperation
    let now := Instant.ofSeconds 91 (by decide)
    let start := Call.start { success := some "new" }
    let delete := Call.delete "operations/a"
    let one := service.perform now ["a", "b"] start
    let two := one.2.perform now [] delete
    let alone := service.perform now [] delete
    let both := alone.2.perform now ["b"] start
    alone.1 = two.1 ∧ both.1 = one.1 ∧ both.2 = two.2 ∧
      one.1 = .ok (.operation ⟨"operations/b", .done (.succeeded "new")⟩) ∧
      (alone.2.perform now ["a", "b"] start).1 =
        .ok (.operation ⟨"operations/a", .done (.succeeded "new")⟩) := by
  intro service now start delete one two alone both
  obtain ⟨-, -, hapart, hcommute⟩ :=
    independent_calls_commute service now start delete ["a", "b"] []
  have hdrawn : service.drawn ["a", "b"] start = ["b"] := by decide
  have hboth := hcommute (hapart (.inl (.start _ rfl (by rw [hdrawn]; decide))))
  rw [hdrawn] at hboth
  exact ⟨hboth.1, hboth.2.1, hboth.2.2, by decide, by decide⟩

end Service

end Rehearsal
