import Rehearsal.Retry.Tally

/-!
# Scripts are replayed exactly

The script bound to an identifier stands where the tally of the identifier says
(`Service.get?_after`), and each attempt meets what the tally says, whatever else is done in between
(`Service.answer_retry`).  The tally of an identifier changes only by calls made with it, so a run
from which all others are taken out is answered alike (`Service.answers_with`).
-/

namespace Rehearsal

/-! ## One script -/

namespace Tally

theorem claim_script_of_lt {tally : Tally} (h : tally.attempts < tally.responses.length) :
    tally.script.claim = some (tally.responses[tally.attempts],
      script { tally with attempts := tally.attempts + 1 }) := by
  have hcursor : min tally.attempts tally.responses.length = tally.attempts := by omega
  have hnext : min (tally.attempts + 1) tally.responses.length = tally.attempts + 1 := by omega
  simp only [Script.claim, script, hcursor, hnext, List.getElem?_eq_getElem h, Option.map_some]

theorem claim_script_of_le {tally : Tally} (h : tally.responses.length ≤ tally.attempts) :
    tally.script.claim = none ∧
      script { tally with attempts := tally.attempts + 1 } = tally.script := by
  have hcursor : min tally.attempts tally.responses.length = tally.responses.length := by omega
  have hnext : min (tally.attempts + 1) tally.responses.length = tally.responses.length := by omega
  simp only [Script.claim, script, hcursor, hnext, List.getElem?_eq_none (Nat.le_refl _),
    Option.map_none, and_self]

theorem next_of_lt {tally : Tally} (id : String) (h : tally.attempts < tally.responses.length) :
    tally.next id = tally.responses[tally.attempts].outcome.map fun _ => .done := by
  simp only [next, List.getElem?_eq_getElem h, Status.outcome, Status.isOk, beq_iff_eq]
  split <;> rfl

theorem next_of_le {tally : Tally} (id : String) (h : tally.responses.length ≤ tally.attempts) :
    tally.next id = .error (.retryExhausted id tally.responses.length) := by
  simp only [next, List.getElem?_eq_none h]

end Tally

/-! ## One visit -/

namespace Service

variable {service : Service} {id : String} {tally : Option Tally}

/-- What a visit answers under an identifier and what it leaves there, if the script stands where
the tally says. -/
theorem attempt_tells (h : service.retries.scripts.get? id = tally.map Tally.script) :
    (service.retries.attempt id).1.map (fun _ => Answer.done) = Tally.tell id tally ∧
      (service.retries.attempt id).2.scripts.get? id =
        (tally.map fun tally => { tally with attempts := tally.attempts + 1 }).map
          Tally.script := by
  cases tally with
  | none =>
      rw [RetryBook.attempt_of_none h]
      exact ⟨rfl, h⟩
  | some tally =>
      by_cases hlt : tally.attempts < tally.responses.length
      · rw [RetryBook.attempt_of_claim h (Tally.claim_script_of_lt hlt)]
        exact ⟨(Tally.next_of_lt id hlt).symm, Table.get?_insert_self _ _ _⟩
      · obtain ⟨hclaim, hsame⟩ := Tally.claim_script_of_le (Nat.le_of_not_lt hlt)
        rw [RetryBook.attempt_of_claimed h hclaim]
        refine ⟨(Tally.next_of_le id (Nat.le_of_not_lt hlt)).symm, ?_⟩
        rw [h, Option.map_some, Option.map_some, Option.map_some, hsame]

theorem answer_retry (h : service.retries.scripts.get? id = tally.map Tally.script) {visit : Visit}
    (hcall : visit.call = .retry id) : (service.visit visit).1 = Tally.tell id tally := by
  rw [← (attempt_tells h).1]
  unfold Service.visit perform
  rw [hcall]

/-- Under each identifier, the script still stands where the tally says after one more visit. -/
theorem get?_visit (h : service.retries.scripts.get? id = tally.map Tally.script)
    (visit : Visit) :
    (service.visit visit).2.retries.scripts.get? id =
      (Tally.add id tally (visit, (service.visit visit).1)).map Tally.script := by
  obtain ⟨now, call, candidates, later⟩ := visit
  cases call with
  | setupRetry responses =>
      cases hfresh : Ident.firstFresh? service.retries.scripts.contains candidates with
      | none =>
          have hsetup := RetryBook.setup_of_not_fresh responses hfresh
          simp only [Service.visit, perform, hsetup]
          exact h
      | some fresh =>
          obtain ⟨bound, rest⟩ := fresh
          have hsetup := RetryBook.setup_of_fresh responses hfresh
          simp only [Service.visit, perform, hsetup, Tally.add]
          rw [Table.get?_insert]
          by_cases hid : bound = id
          · simp [hid, Tally.script]
          · rw [if_neg (Ne.symm hid), if_neg hid, h]
  | retry attempted =>
      simp only [Service.visit, perform, Tally.add]
      by_cases hid : attempted = id
      · subst hid
        rw [if_pos rfl]
        exact (attempt_tells h).2
      · rw [if_neg hid, RetryBook.get?_attempt_of_ne _ (Ne.symm hid), h]
  | _ => rw [retries_visit]; exact h

/-! ## Runs -/

theorem get?_after (h : service.retries.scripts.get? id = tally.map Tally.script)
    (visits : List Visit) :
    (service.after visits).retries.scripts.get? id =
      ((service.transcript visits).foldl (Tally.add id) tally).map Tally.script := by
  induction visits generalizing service tally with
  | nil => exact h
  | cons visit rest ih => exact ih (get?_visit h visit)

/-- A visit that is not made with an identifier does not count for it. -/
theorem add_of_with?_eq_none {entry : Visit × Except ServiceError Answer}
    (h : Visit.with? id entry = none) : Tally.add id tally entry = tally := by
  obtain ⟨⟨now, call, candidates, later⟩, answer⟩ := entry
  cases call with
  | setupRetry responses =>
      cases answer with
      | error _ => rfl
      | ok answer =>
          cases answer with
          | script bound =>
              have hid : bound ≠ id := by
                intro hid
                simp [Visit.with?, hid] at h
              exact if_neg hid
          | _ => rfl
  | retry attempted =>
      have hid : attempted ≠ id := by
        intro hid
        simp [Visit.with?, hid] at h
      exact if_neg hid
  | _ => rfl

/-- A setup that binds an identifier does so too where it draws nothing else, if the identifier is
as free there. -/
theorem setup_with (h : service.retries.scripts.get? id = tally.map Tally.script)
    {other : Service} (hother : other.retries.scripts.get? id = tally.map Tally.script)
    {visit : Visit} {responses : List Status} (hcall : visit.call = .setupRetry responses)
    (hbound : (service.visit visit).1 = .ok (.script id)) :
    (other.visit { visit with candidates := [id] }).1 = .ok (.script id) := by
  have hfree : service.retries.scripts.contains id = false := by
    unfold Service.visit perform at hbound
    rw [hcall] at hbound
    cases hfresh : Ident.firstFresh? service.retries.scripts.contains visit.candidates with
    | none => simp [RetryBook.setup_of_not_fresh responses hfresh] at hbound
    | some fresh =>
        obtain ⟨bound, rest⟩ := fresh
        simp only [RetryBook.setup_of_fresh responses hfresh, Except.ok.injEq,
          Answer.script.injEq] at hbound
        rw [← hbound]
        exact Ident.not_inUse_of_firstFresh? hfresh
  have hsame : other.retries.scripts.contains id = false := by
    rw [Table.contains, hother, ← h]
    exact hfree
  have hfresh : Ident.firstFresh? other.retries.scripts.contains [id] = some (id, []) := by
    simp [Ident.firstFresh?, hsame]
  simp only [Service.visit, perform, hcall, RetryBook.setup_of_fresh responses hfresh]

/-- A visit made with an identifier is the setup that bound it or an attempt. -/
theorem with?_eq_some {entry : Visit × Except ServiceError Answer} {alone : Visit}
    (h : Visit.with? id entry = some alone) :
    (∃ responses, entry.1.call = .setupRetry responses ∧ entry.2 = .ok (.script id) ∧
      alone = { entry.1 with candidates := [id] }) ∨
    (entry.1.call = .retry id ∧ alone = entry.1) := by
  unfold Visit.with? at h
  split at h
  · rename_i responses bound hcall hbound
    split at h <;> cases h
    rename_i hid
    subst hid
    exact .inl ⟨responses, hcall, hbound, rfl⟩
  · rename_i attempted _ hcall
    split at h <;> cases h
    rename_i hid
    subst hid
    exact .inr ⟨hcall, rfl⟩
  · cases h

/-- It is answered alike wherever the script stands alike. -/
theorem answer_with (h : service.retries.scripts.get? id = tally.map Tally.script)
    {other : Service} (hother : other.retries.scripts.get? id = tally.map Tally.script)
    {visit alone : Visit} (halone : Visit.with? id (visit, (service.visit visit).1) = some alone) :
    (other.visit alone).1 = (service.visit visit).1 := by
  rcases with?_eq_some halone with ⟨responses, hcall, hbound, rfl⟩ | ⟨hcall, rfl⟩
  · exact (setup_with h hother hcall hbound).trans hbound.symm
  · rw [answer_retry hother hcall, answer_retry h hcall]

/-- It counts as much as what is left of it. -/
theorem add_with {visit alone : Visit} {answer : Except ServiceError Answer}
    (halone : Visit.with? id (visit, answer) = some alone) :
    Tally.add id tally (alone, answer) = Tally.add id tally (visit, answer) := by
  rcases with?_eq_some halone with ⟨responses, -, -, rfl⟩ | ⟨-, rfl⟩
  · rfl
  · rfl

/-- A run from which all visits made with other identifiers are taken out is answered alike. -/
theorem answers_with (h : service.retries.scripts.get? id = tally.map Tally.script)
    {other : Service} (hother : other.retries.scripts.get? id = tally.map Tally.script)
    (visits : List Visit) :
    other.answers ((service.transcript visits).filterMap (Visit.with? id)) =
      (service.transcript visits).filterMap fun entry =>
        (Visit.with? id entry).map fun _ => entry.2 := by
  induction visits generalizing service other tally with
  | nil => rfl
  | cons visit rest ih =>
      have hnext := get?_visit h visit
      rw [transcript_cons]
      cases halone : Visit.with? id (visit, (service.visit visit).1) with
      | none =>
          rw [add_of_with?_eq_none halone] at hnext
          simp only [List.filterMap_cons, halone, Option.map_none]
          exact ih hnext hother
      | some alone =>
          have hsame := answer_with h hother halone
          have hothernext := get?_visit hother alone
          rw [hsame, add_with halone] at hothernext
          simp only [List.filterMap_cons, halone, Option.map_some, answers, hsame]
          rw [ih hnext hothernext]

/-- Every cursor stands behind as many statuses as were attempted, at most the length of its
script; every attempt meets what the visits made with its identifier say; and these are answered
alike if no others are made. -/
theorem scripts_replay (settings : Settings) (visits : List Visit) :
    let service : Service := { settings }
    let transcript := service.transcript visits
    (∀ id, (service.after visits).retries.scripts.get? id =
      (Tally.ofTranscript? id transcript).map Tally.script) ∧
    (∀ i id visit, visits[i]? = some visit → visit.call = .retry id →
      (service.answers visits)[i]? =
        some (Tally.tell id (Tally.ofTranscript? id (transcript.take i)))) ∧
    (∀ id, service.answers (transcript.filterMap (Visit.with? id)) =
      transcript.filterMap fun entry => (Visit.with? id entry).map fun _ => entry.2) := by
  intro service transcript
  have hnew (id : String) :
      service.retries.scripts.get? id = (none : Option Tally).map Tally.script :=
    Table.get?_empty id
  refine ⟨fun id => get?_after (hnew id) visits, ?_,
    fun id => answers_with (hnew id) (hnew id) visits⟩
  intro i id visit hvisit hcall
  rw [getElem?_answers, hvisit, Option.map_some, take_transcript,
    answer_retry (get?_after (hnew id) (visits.take i)) hcall]
  rfl

/-- A run on two scripts, which also attempts the second one before it is bound. -/
def interleaved : List Visit :=
  let visit (call : Call) (candidates : List String) : Visit :=
    { now := .ofSeconds 1 (by decide), call, candidates }
  [visit (.setupRetry [⟨14, "busy"⟩, ⟨0, ""⟩]) ["a"],
    visit (.retry "b") [],
    visit (.setupRetry [⟨5, "gone"⟩]) ["a", "b"],
    visit (.retry "a") [],
    visit (.retry "b") [],
    visit (.retry "a") [],
    visit (.retry "a") []]

theorem scripts_replay_interleaved :
    (Service.after {} interleaved).retries.scripts.get? "a" =
        some ⟨[⟨14, "busy"⟩, ⟨0, ""⟩], 2⟩ ∧
      (Service.answers {} interleaved)[1]? = some (.error (.retryNotFound "b")) ∧
      (Service.answers {} interleaved)[3]? = some (.error (.scripted ⟨14, "busy"⟩)) ∧
      (Service.answers {} interleaved)[6]? = some (.error (.retryExhausted "a" 2)) := by
  obtain ⟨scripts, attempts, -⟩ := scripts_replay {} interleaved
  exact ⟨(scripts "a").trans rfl, (attempts 1 "b" _ rfl rfl).trans rfl,
    (attempts 3 "a" _ rfl rfl).trans rfl, (attempts 6 "a" _ rfl rfl).trans rfl⟩

end Service

end Rehearsal
