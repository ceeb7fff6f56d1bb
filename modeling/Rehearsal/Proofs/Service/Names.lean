import Rehearsal.Proofs.Operation.Plan
import Rehearsal.Proofs.Operation.Walk

/-!
# Names that are given once

What is created gets the first of its candidates that is not in use, and nothing that is there
changes.  One visit does one of three things to the operations that there are (`Service.Change`): it
adds one under a free name, it takes one away, or it leaves all their names.  So the names there
are, and those that were taken away, are at any time all that were given
(`Service.names_operations_after`).
-/

namespace Rehearsal

open Time (Instant)

/-! ## The first free name -/

namespace Ident

/-- The candidate is not in use, and all those before it are. -/
def FirstFree (inUse candidates : List String) (candidate : String) : Prop :=
  ∃ before after, candidates = before ++ candidate :: after ∧
    (∀ earlier ∈ before, earlier ∈ inUse) ∧ candidate ∉ inUse

variable {α : Type} {table : Table α} {candidates later : List String} {candidate : String}

theorem firstFree_of_firstFresh?
    (h : firstFresh? table.contains candidates = some (candidate, later)) :
    FirstFree table.names candidates candidate := by
  induction candidates with
  | nil => cases h
  | cons first rest ih =>
      unfold firstFresh? at h
      by_cases hfirst : table.contains first = true
      · rw [if_pos hfirst] at h
        obtain ⟨before, after, rfl, hbefore, hfree⟩ := ih h
        exact ⟨first :: before, after, rfl,
          List.forall_mem_cons.2 ⟨Table.mem_names.2 hfirst, hbefore⟩, hfree⟩
      · rw [if_neg hfirst] at h
        cases h
        exact ⟨[], later, rfl, by simp, fun hmem => hfirst (Table.mem_names.1 hmem)⟩

theorem exists_firstFresh? (h : ∃ candidate ∈ candidates, candidate ∉ table.names) :
    ∃ candidate later, firstFresh? table.contains candidates = some (candidate, later) := by
  induction candidates with
  | nil => simp at h
  | cons first rest ih =>
      unfold firstFresh?
      by_cases hfirst : table.contains first = true
      · rw [if_pos hfirst]
        apply ih
        obtain ⟨candidate, hcandidate, hfree⟩ := h
        rcases List.mem_cons.1 hcandidate with rfl | hrest
        · exact absurd (Table.mem_names.2 hfirst) hfree
        · exact ⟨candidate, hrest, hfree⟩
      · rw [if_neg hfirst]
        exact ⟨first, rest, rfl⟩

end Ident

/-! ## Names of a table -/

namespace Table

variable {α : Type} {table : Table α} {name : String}

theorem names_insert_of_isSome (h : (table.get? name).isSome) (value : α) :
    (table.insert name value).names = table.names := by
  apply names_eq
  intro other
  rw [get?_insert]
  by_cases hother : other = name
  · rw [if_pos hother, hother, h]
    rfl
  · rw [if_neg hother]

theorem names_insert_perm (h : name ∉ table.names) (value : α) :
    (table.insert name value).names.Perm (name :: table.names) := by
  rw [List.perm_ext_iff_of_nodup (names_nodup _) (List.nodup_cons.2 ⟨h, names_nodup _⟩)]
  intro other
  rw [List.mem_cons, mem_names, mem_names, get?_insert]
  by_cases hother : other = name <;> simp [hother]

theorem names_erase_perm (h : name ∈ table.names) :
    table.names.Perm (name :: (table.erase name).names) := by
  have hgone : name ∉ (table.erase name).names := by
    rw [mem_names, get?_erase, if_pos rfl]
    exact Bool.false_ne_true
  rw [List.perm_ext_iff_of_nodup (names_nodup _) (List.nodup_cons.2 ⟨hgone, names_nodup _⟩)]
  intro other
  rw [List.mem_cons, mem_names, mem_names, get?_erase]
  by_cases hother : other = name
  · simp [hother, mem_names.1 h]
  · simp [hother]

end Table

/-! ## Plans -/

namespace Operation

variable {op : Operation} {spec : OperationSpec} {started : Instant}

/-- The operation is due, and is to end, as its caller has asked for when it was started. -/
structure Planned (op : Operation) (spec : OperationSpec) (started : Instant) : Prop where
  due : op.due = spec.completion.getD started
  outcome : op.planned = spec.outcome

theorem planned_ofSpec (spec : OperationSpec) (started : Instant) :
    (ofSpec spec started).Planned spec started := ⟨rfl, rfl⟩

theorem Planned.evaluate (h : op.Planned spec started) (now : Instant) :
    (op.evaluate now).2.Planned spec started := by
  unfold Operation.evaluate
  split
  · exact h
  · split <;> exact ⟨h.due, h.outcome⟩

theorem Planned.cancel (h : op.Planned spec started) (now : Instant) :
    (op.cancel now).2.Planned spec started := by
  have hseen := h.evaluate now
  unfold Operation.cancel
  split
  · rename_i hpending
    rw [hpending] at hseen
    exact ⟨hseen.due, hseen.outcome⟩
  · exact hseen

end Operation

/-! ## One visit -/

/-- The name that a visit has given to an operation. -/
def Visit.started? (entry : Visit × Except ServiceError Answer) : Option String :=
  match entry.1.call, entry.2 with
  | .start _, .ok (.operation snapshot) => some snapshot.name
  | _, _ => none

/-- The name of the operation that a visit has deleted. -/
def Visit.deleted? (entry : Visit × Except ServiceError Answer) : Option String :=
  match entry.1.call, entry.2 with
  | .delete name, .ok _ => some name
  | _, _ => none

/-- The identifier that a visit has given to a script. -/
def Visit.bound? (entry : Visit × Except ServiceError Answer) : Option String :=
  match entry.1.call, entry.2 with
  | .setupRetry _, .ok (.script id) => some id
  | _, _ => none

namespace Service

variable {service : Service} {visit : Visit}

/-- What a visit does to the operations that there are. -/
inductive Change (visit : Visit) (answer : Except ServiceError Answer)
    (before after : OperationBook) : Prop where
  | started {spec : OperationSpec} {name : String} (call : visit.call = .start spec)
      (free : Ident.FirstFree before.operations.names
        (visit.candidates.map (operationNamespace ++ ·)) name)
      (answered : answer =
        .ok (.operation ⟨name, ((Operation.ofSpec spec visit.now).evaluate visit.now).1⟩))
      (later : after.operations =
        before.operations.insert name ((Operation.ofSpec spec visit.now).evaluate visit.now).2)
  | deleted {name : String} (call : visit.call = .delete name)
      (present : name ∈ before.operations.names) (answered : answer = .ok .done)
      (later : after.operations = before.operations.erase name)
  | kept (same : after.operations.names = before.operations.names)
      (unstarted : Visit.started? (visit, answer) = none)
      (undeleted : Visit.deleted? (visit, answer) = none)

theorem change_start (service : Service) {spec : OperationSpec} (hcall : visit.call = .start spec) :
    Change visit (service.visit visit).1 service.operations (service.visit visit).2.operations := by
  obtain ⟨now, call, candidates, later⟩ := visit
  subst hcall
  cases hfresh : Ident.firstFresh? service.operations.operations.contains
      (candidates.map (operationNamespace ++ ·)) with
  | none =>
      have hstart := OperationBook.start_of_not_fresh now spec hfresh
      simp only [Service.visit, perform, hstart]
      exact .kept rfl rfl rfl
  | some fresh =>
      obtain ⟨name, rest⟩ := fresh
      have hstart := OperationBook.start_of_fresh now spec hfresh
      simp only [Service.visit, perform, hstart]
      exact .started rfl (Ident.firstFree_of_firstFresh? hfresh) rfl rfl

theorem change_delete (service : Service) {name : String} (hcall : visit.call = .delete name) :
    Change visit (service.visit visit).1 service.operations (service.visit visit).2.operations := by
  obtain ⟨now, call, candidates, later⟩ := visit
  subst hcall
  cases hop : service.operations.operations.get? name with
  | none =>
      simp only [Service.visit, perform, OperationBook.delete_of_none hop]
      exact .kept rfl rfl rfl
  | some op =>
      simp only [Service.visit, perform, OperationBook.delete_of_some hop]
      exact .deleted rfl (Table.mem_names.2 (by rw [hop]; rfl)) rfl rfl

theorem change_visit (service : Service) (visit : Visit) :
    Change visit (service.visit visit).1 service.operations (service.visit visit).2.operations := by
  obtain ⟨now, call, candidates, later⟩ := visit
  cases call with
  | start spec => exact change_start service rfl
  | delete name => exact change_delete service rfl
  | setupRetry responses =>
      refine .kept ?_ rfl rfl
      unfold Service.visit perform
      dsimp only
      split <;> rfl
  | retry id => exact .kept rfl rfl rfl
  | get name => exact .kept (OperationBook.names_update _ _ _) rfl rfl
  | list pageSize pageToken => exact .kept (OperationBook.names_list _ _ _ _ _) rfl rfl
  | cancel name => exact .kept (OperationBook.names_update _ _ _) rfl rfl
  | paginate request => exact .kept rfl rfl rfl

theorem names_attempt (book : RetryBook) (id : String) :
    (book.attempt id).2.scripts.names = book.scripts.names := by
  cases hscript : book.scripts.get? id with
  | none => rw [RetryBook.attempt_of_none hscript]
  | some script =>
      cases hclaim : script.claim with
      | none => rw [RetryBook.attempt_of_claimed hscript hclaim]
      | some claimed =>
          obtain ⟨status, later⟩ := claimed
          rw [RetryBook.attempt_of_claim hscript hclaim]
          exact Table.names_insert_of_isSome (by rw [hscript]; rfl) later

/-- A visit adds the identifier that it gives to a script, and no other. -/
theorem names_scripts_visit (service : Service) (visit : Visit) :
    (service.visit visit).2.retries.scripts.names.Perm
      (service.retries.scripts.names ++
        (Visit.bound? (visit, (service.visit visit).1)).toList) := by
  obtain ⟨now, call, candidates, later⟩ := visit
  cases call with
  | setupRetry responses =>
      cases hfresh : Ident.firstFresh? service.retries.scripts.contains candidates with
      | none =>
          have hsetup := RetryBook.setup_of_not_fresh responses hfresh
          simp only [Service.visit, perform, hsetup]
          simp [Visit.bound?]
      | some fresh =>
          obtain ⟨id, rest⟩ := fresh
          obtain ⟨before, after, -, -, hfree⟩ := Ident.firstFree_of_firstFresh? hfresh
          have hsetup := RetryBook.setup_of_fresh responses hfresh
          simp only [Service.visit, perform, hsetup]
          exact (Table.names_insert_perm hfree _).trans (List.perm_append_singleton _ _).symm
  | retry id =>
      have hnames := names_attempt service.retries id
      rw [retries_visit, hnames]
      simp [Visit.bound?]
  | _ =>
      rw [retries_visit]
      simp [Visit.bound?]

/-- The names there are and the one taken away are those there were and the one given. -/
theorem names_operations_visit (service : Service) (visit : Visit) :
    ((service.visit visit).2.operations.operations.names ++
        (Visit.deleted? (visit, (service.visit visit).1)).toList).Perm
      (service.operations.operations.names ++
        (Visit.started? (visit, (service.visit visit).1)).toList) := by
  have hchange := change_visit service visit
  generalize (service.visit visit).1 = answer at hchange ⊢
  cases hchange with
  | @started spec name call free answered later =>
      obtain ⟨before, after, -, -, hfree⟩ := free
      have hstarted : Visit.started? (visit, answer) = some name := by
        simp [Visit.started?, call, answered]
      have hdeleted : Visit.deleted? (visit, answer) = none := by
        simp [Visit.deleted?, call]
      rw [hstarted, hdeleted, later, Option.toList_none, List.append_nil]
      exact (Table.names_insert_perm hfree _).trans (List.perm_append_singleton _ _).symm
  | @deleted name call present answered later =>
      have hstarted : Visit.started? (visit, answer) = none := by
        simp [Visit.started?, call]
      have hdeleted : Visit.deleted? (visit, answer) = some name := by
        simp [Visit.deleted?, call, answered]
      rw [hstarted, hdeleted, later, Option.toList_none, List.append_nil]
      exact (List.perm_append_singleton _ _).trans (Table.names_erase_perm present).symm
  | kept same unstarted undeleted => rw [unstarted, undeleted, same]

/-! ## Runs -/

theorem filterMap_transcript_cons (f : Visit × Except ServiceError Answer → Option String)
    (service : Service) (visit : Visit) (rest : List Visit) :
    (service.transcript (visit :: rest)).filterMap f =
      (f (visit, (service.visit visit).1)).toList ++
        ((service.visit visit).2.transcript rest).filterMap f := by
  rw [transcript_cons, List.filterMap_cons]
  cases f (visit, (service.visit visit).1) <;> rfl

theorem names_operations_after (service : Service) (visits : List Visit) :
    ((service.after visits).operations.operations.names ++
        (service.transcript visits).filterMap Visit.deleted?).Perm
      (service.operations.operations.names ++
        (service.transcript visits).filterMap Visit.started?) := by
  induction visits generalizing service with
  | nil => exact .refl _
  | cons visit rest ih =>
      -- name by name, the counts of the first visit and of the rest of the run add up
      rw [filterMap_transcript_cons, filterMap_transcript_cons, List.perm_iff_count]
      intro name
      have hvisit := (names_operations_visit service visit).count_eq name
      have hrest := (ih (service.visit visit).2).count_eq name
      simp only [after, List.count_append] at hvisit hrest ⊢
      omega

theorem names_scripts_after (service : Service) (visits : List Visit) :
    (service.after visits).retries.scripts.names.Perm
      (service.retries.scripts.names ++
        (service.transcript visits).filterMap Visit.bound?) := by
  induction visits generalizing service with
  | nil =>
      show service.retries.scripts.names.Perm (service.retries.scripts.names ++ [])
      rw [List.append_nil]
  | cons visit rest ih =>
      rw [filterMap_transcript_cons, ← List.append_assoc]
      exact (ih (service.visit visit).2).trans ((names_scripts_visit service visit).append_right _)

theorem planned_after {name : String} {spec : OperationSpec} {started : Instant}
    {visits : List Visit} (h : service.operations.Has name (·.Planned spec started))
    (hcalls : ∀ visit ∈ visits, visit.call ≠ .delete name) :
    (service.after visits).operations.Has name (·.Planned spec started) :=
  h.after (fun _ _ reading _ _ hplanned => hplanned.evaluate reading)
    (fun visit _ _ _ hplanned => hplanned.cancel visit.now) hcalls

/-- An operation that a start has answered with is there, and has been looked at once. -/
theorem get?_of_started {spec : OperationSpec} {snapshot : Snapshot}
    (hcall : visit.call = .start spec)
    (hanswer : (service.visit visit).1 = .ok (.operation snapshot)) :
    (service.visit visit).2.operations.operations.get? snapshot.name =
      some ((Operation.ofSpec spec visit.now).evaluate visit.now).2 := by
  have hchange := change_visit service visit
  rw [hanswer] at hchange
  cases hchange with
  | @started asked name call free answered later =>
      rw [hcall] at call
      cases call
      cases answered
      rw [later, Table.get?_insert_self]
  | @deleted name call present answered later => cases answered
  | kept same unstarted undeleted => simp [Visit.started?, hcall] at unstarted

theorem planned_of_started {spec : OperationSpec} {snapshot : Snapshot}
    (hcall : visit.call = .start spec)
    (hanswer : (service.visit visit).1 = .ok (.operation snapshot)) :
    (service.visit visit).2.operations.Has snapshot.name (·.Planned spec visit.now) :=
  ⟨_, get?_of_started hcall hanswer,
    (Operation.planned_ofSpec spec visit.now).evaluate visit.now⟩

/-! ## Giving and taking away -/

/-- A start that is offered a free name takes the first and leaves everything else alone. -/
theorem visit_of_start {spec : OperationSpec} (hcall : visit.call = .start spec)
    (hfree : ∃ candidate ∈ visit.candidates,
      operationNamespace ++ candidate ∉ service.operations.operations.names) :
    ∃ name, Ident.FirstFree service.operations.operations.names
        (visit.candidates.map (operationNamespace ++ ·)) name ∧
      service.visit visit =
        (.ok (.operation ⟨name, ((Operation.ofSpec spec visit.now).evaluate visit.now).1⟩),
          { service with
            operations := ⟨service.operations.operations.insert name
              ((Operation.ofSpec spec visit.now).evaluate visit.now).2⟩ }) := by
  obtain ⟨now, call, candidates, later⟩ := visit
  subst hcall
  obtain ⟨candidate, hcandidate, hunused⟩ := hfree
  obtain ⟨name, rest, hfresh⟩ :=
    Ident.exists_firstFresh? ⟨_, List.mem_map_of_mem hcandidate, hunused⟩
  refine ⟨name, Ident.firstFree_of_firstFresh? hfresh, ?_⟩
  simp only [Service.visit, perform, OperationBook.start_of_fresh now spec hfresh]

/-- A setup that is offered a free identifier takes the first and leaves everything else alone. -/
theorem visit_of_setupRetry {responses : List Status} (hcall : visit.call = .setupRetry responses)
    (hfree : ∃ candidate ∈ visit.candidates, candidate ∉ service.retries.scripts.names) :
    ∃ id, Ident.FirstFree service.retries.scripts.names visit.candidates id ∧
      service.visit visit =
        (.ok (.script id),
          { service with retries := ⟨service.retries.scripts.insert id ⟨responses, 0⟩⟩ }) := by
  obtain ⟨now, call, candidates, later⟩ := visit
  subst hcall
  obtain ⟨id, rest, hfresh⟩ := Ident.exists_firstFresh? hfree
  refine ⟨id, Ident.firstFree_of_firstFresh? hfresh, ?_⟩
  simp only [Service.visit, perform, RetryBook.setup_of_fresh responses hfresh]

/-- A deletion takes its own operation away if there is one, and nothing else. -/
theorem visit_of_delete {name : String} (hcall : visit.call = .delete name) :
    ((service.visit visit).1 = .ok .done ↔ name ∈ service.operations.operations.names) ∧
      (∀ other, (service.visit visit).2.operations.operations.get? other =
        if other = name then none else service.operations.operations.get? other) ∧
      (service.visit visit).2.retries = service.retries := by
  obtain ⟨now, call, candidates, later⟩ := visit
  subst hcall
  refine ⟨?_, OperationBook.get?_delete service.operations name, rfl⟩
  rw [Table.mem_names]
  cases hop : service.operations.operations.get? name with
  | none => simp [Service.visit, perform, OperationBook.delete_of_none hop, Except.map]
  | some op => simp [Service.visit, perform, OperationBook.delete_of_some hop, Except.map]

/-- What is created gets the first candidate that is not in use, and every entry that is there stays
as it is.  So in every run all names in use are different.  With those of the deleted operations
they are all that starts have given, an operation that nobody deletes keeps the plan it was started
with, and there are as many scripts as setups. -/
theorem fresh_names_never_clobber :
    (∀ (service : Service) (visit : Visit) (spec : OperationSpec), visit.call = .start spec →
      (∃ candidate ∈ visit.candidates,
        operationNamespace ++ candidate ∉ service.operations.operations.names) →
      ∃ name op, Ident.FirstFree service.operations.operations.names
          (visit.candidates.map (operationNamespace ++ ·)) name ∧
        op = Operation.evaluate (.ofSpec spec visit.now) visit.now ∧
        (service.visit visit).1 = .ok (.operation ⟨name, op.1⟩) ∧
        (∀ other, (service.visit visit).2.operations.operations.get? other =
          if other = name then some op.2 else service.operations.operations.get? other) ∧
        (service.visit visit).2.retries = service.retries) ∧
    (∀ (service : Service) (visit : Visit) (responses : List Status),
      visit.call = .setupRetry responses →
      (∃ candidate ∈ visit.candidates, candidate ∉ service.retries.scripts.names) →
      ∃ id, Ident.FirstFree service.retries.scripts.names visit.candidates id ∧
        (service.visit visit).1 = .ok (.script id) ∧
        (∀ other, (service.visit visit).2.retries.scripts.get? other =
          if other = id then some ⟨responses, 0⟩ else service.retries.scripts.get? other) ∧
        (service.visit visit).2.operations = service.operations) ∧
    (∀ (service : Service) (visit : Visit) (name : String), visit.call = .delete name →
      ((service.visit visit).1 = .ok .done ↔ name ∈ service.operations.operations.names) ∧
        (∀ other, (service.visit visit).2.operations.operations.get? other =
          if other = name then none else service.operations.operations.get? other) ∧
        (service.visit visit).2.retries = service.retries) ∧
    ∀ (settings : Settings) (visits : List Visit),
      let first : Service := { settings }
      let service := first.after visits
      let started := (first.transcript visits).filterMap Visit.started?
      let deleted := (first.transcript visits).filterMap Visit.deleted?
      let bound := (first.transcript visits).filterMap Visit.bound?
      service.operations.operations.names.Nodup ∧
        (service.operations.operations.names ++ deleted).Perm started ∧
        service.operations.size + deleted.length = started.length ∧
        bound.Nodup ∧ service.retries.scripts.names.Perm bound ∧
        service.retries.size = bound.length ∧
        ∀ earlier visit later spec snapshot, visits = earlier ++ visit :: later →
          visit.call = .start spec →
          ((first.after earlier).visit visit).1 = .ok (.operation snapshot) →
          (∀ other ∈ later, other.call ≠ .delete snapshot.name) →
          ∃ op, service.operations.operations.get? snapshot.name = some op ∧
            op.due = spec.completion.getD visit.now ∧ op.planned = spec.outcome := by
  refine ⟨?_, ?_, fun service visit name hcall => visit_of_delete hcall, ?_⟩
  · intro service visit spec hcall hfree
    obtain ⟨name, hname, hvisit⟩ := visit_of_start hcall hfree
    rw [hvisit]
    exact ⟨name, _, hname, rfl, rfl, fun other => Table.get?_insert _ _ _ _, rfl⟩
  · intro service visit responses hcall hfree
    obtain ⟨id, hid, hvisit⟩ := visit_of_setupRetry hcall hfree
    rw [hvisit]
    exact ⟨id, hid, rfl, fun other => Table.get?_insert _ _ _ _, rfl⟩
  · intro settings visits first service started deleted bound
    have hnames := names_operations_after first visits
    have hscripts := names_scripts_after first visits
    have hsize := hnames.length_eq
    have hcount := hscripts.length_eq
    rw [List.length_append, Table.length_names] at hsize
    rw [Table.length_names] at hcount
    refine ⟨Table.names_nodup _, hnames, hsize, ?_, hscripts, hcount, ?_⟩
    · exact hscripts.nodup_iff.1 (Table.names_nodup _)
    · intro earlier visit later spec snapshot hvisits hcall hanswer hspared
      have hplanned := planned_after (planned_of_started hcall hanswer) hspared
      have hservice : service = ((first.after earlier).visit visit).2.after later := by
        show first.after visits = _
        rw [hvisits, after_append]
        rfl
      rw [← hservice] at hplanned
      obtain ⟨op, hop, hdue, houtcome⟩ := hplanned
      exact ⟨op, hop, hdue, houtcome⟩

/-- Two starts and two setups are offered the same candidates, and the name of the operation that is
deleted is given again. -/
def contestedNames : List Visit :=
  let now := Instant.ofSeconds 80 (by decide)
  [{ now, call := .start { success := some "first" }, candidates := ["a"] },
    { now, call := .start { success := some "second" }, candidates := ["a", "a", "b"] },
    { now, call := .setupRetry [], candidates := ["a"] },
    { now, call := .setupRetry [], candidates := ["a", "c"] },
    { now, call := .delete "operations/a" },
    { now, call := .start { success := some "third" }, candidates := ["b", "a"] }]

theorem fresh_names_never_clobber_contested :
    let first : Service := { settings := default }
    let service := first.after contestedNames
    let visit : Visit :=
      { now := .ofSeconds 81 (by decide), call := .start {}, candidates := ["b", "a", "d", "e"] }
    (first.transcript contestedNames).filterMap Visit.started? =
        ["operations/a", "operations/b", "operations/a"] ∧
      service.operations.size + 1 = 3 ∧ service.retries.size = 2 ∧
      (∃ op, service.operations.operations.get? "operations/b" = some op ∧
        op.planned = .succeeded "second") ∧
      ∃ name state, (service.visit visit).1 = .ok (.operation ⟨name, state⟩) ∧
        name ∉ ["operations/a", "operations/b"] := by
  intro first service visit
  obtain ⟨hstart, -, -, hruns⟩ := fresh_names_never_clobber
  obtain ⟨-, -, hsize, -, -, hcount, hplans⟩ := hruns default contestedNames
  refine ⟨by decide, hsize, hcount, ?_, ?_⟩
  · obtain ⟨op, hop, -, hplanned⟩ := hplans (contestedNames.take 1) _ (contestedNames.drop 2) _ _
      rfl rfl rfl (by decide)
    exact ⟨op, hop, hplanned⟩
  · obtain ⟨name, op, ⟨before, after, -, -, hfree⟩, -, hanswer, -⟩ :=
      hstart service visit {} rfl ⟨"d", by decide, by decide⟩
    have hnames : service.operations.operations.names = ["operations/a", "operations/b"] := by
      decide
    rw [hnames] at hfree
    exact ⟨name, op.1, hanswer, hfree⟩

end Service

end Rehearsal
