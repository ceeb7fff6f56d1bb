import Mathlib.Logic.Relation
import Rehearsal.Retry.Race

/-!
# Racing attempts share no position

However the attempts of many callers interleave, the positions they have claimed are those before
the cursor, each claimed once.  What carries the induction (`Race.Sound`) is that nobody has read
further than the cursor stands: an exchange that is not refused claims the position at the cursor,
and a caller who once read that no position was left is still right when it gives up.  So what the
completed attempts were told is, in some order, what the statuses before the cursor say, and then
that the script is exhausted.
-/

namespace Rehearsal

namespace Race

variable {responses : List Status} {race later : Race}

/-! ## What every step keeps -/

/-- What holds of a race at every moment. -/
structure Sound (responses : List Status) (race : Race) : Prop where
  responses_eq : race.script.responses = responses
  cursor_le : race.script.cursor ≤ responses.length
  seen_le : ∀ caller seen, race.callers caller = .holding seen → seen ≤ race.script.cursor
  claimed_eq : race.claimed = (List.range race.script.cursor).reverse
  exhausted : none ∈ race.log → race.script.cursor = responses.length

theorem callers_setCaller (race : Race) (caller other : Nat) (attempt : Attempt) :
    (race.setCaller caller attempt).callers other =
      if other = caller then attempt else race.callers other := rfl

/-- A caller who reads the cursor has not read further than it stands. -/
theorem Sound.holding (h : race.Sound responses) (caller : Nat) :
    (race.setCaller caller (.holding race.script.cursor)).Sound responses where
  responses_eq := h.responses_eq
  cursor_le := h.cursor_le
  seen_le := by
    intro other seen hseen
    rw [callers_setCaller] at hseen
    by_cases hother : other = caller
    · rw [if_pos hother] at hseen
      cases hseen
      exact Nat.le_refl _
    · rw [if_neg hother] at hseen
      exact h.seen_le other seen hseen
  claimed_eq := h.claimed_eq
  exhausted := h.exhausted

/-- Of the callers other than one that has finished, nobody has read further than before. -/
theorem Sound.seen_le_of_idle (h : race.Sound responses) {caller other seen : Nat}
    (hseen : (race.setCaller caller .idle).callers other = .holding seen) :
    seen ≤ race.script.cursor := by
  rw [callers_setCaller] at hseen
  by_cases hother : other = caller
  · rw [if_pos hother] at hseen
    cases hseen
  · rw [if_neg hother] at hseen
    exact h.seen_le other seen hseen

theorem Sound.start (responses : List Status) : (start responses).Sound responses where
  responses_eq := rfl
  cursor_le := Nat.zero_le _
  seen_le := by
    intro caller seen hseen
    cases hseen
  claimed_eq := rfl
  exhausted := by
    intro hmem
    cases hmem

theorem Step.sound (h : race.Sound responses) (step : Step race later) :
    later.Sound responses := by
  cases step with
  | read caller hidle => exact h.holding caller
  | refused caller seen hholding left => exact h.holding caller
  | claim caller seen hholding left same =>
      subst same
      rw [h.responses_eq] at left
      refine ⟨h.responses_eq, left, ?_, ?_, ?_⟩
      · intro other seen hseen
        have hle := h.seen_le_of_idle hseen
        show seen ≤ race.script.cursor + 1
        omega
      · show race.script.cursor :: race.claimed = (List.range (race.script.cursor + 1)).reverse
        rw [h.claimed_eq, List.range_succ, List.reverse_append]
        rfl
      · -- Nobody can have given up while this position was left.
        intro hmem
        have hnone : none ∈ race.log := by simpa using hmem
        have hfull := h.exhausted hnone
        omega
  | giveUp caller seen hholding none_left =>
      rw [h.responses_eq] at none_left
      have hseen := h.seen_le caller seen hholding
      have hcursor := h.cursor_le
      refine ⟨h.responses_eq, h.cursor_le, ?_, h.claimed_eq, ?_⟩
      · intro other seen hseen
        exact h.seen_le_of_idle hseen
      · intro _
        show race.script.cursor = responses.length
        omega

theorem Reachable.sound (h : Reachable responses race) : race.Sound responses := by
  induction h with
  | start => exact Sound.start responses
  | step h step ih => exact step.sound ih

/-! ## The cursor -/

theorem Step.cursor_le (step : Step race later) : race.script.cursor ≤ later.script.cursor := by
  cases step with
  | claim caller seen hholding left same =>
      show race.script.cursor ≤ seen + 1
      omega
  | read | refused | giveUp => exact Nat.le_refl _

theorem cursor_le_of_steps (steps : Relation.ReflTransGen Step race later) :
    race.script.cursor ≤ later.script.cursor := by
  induction steps with
  | refl => exact Nat.le_refl _
  | tail steps step ih => exact Nat.le_trans ih step.cursor_le

/-- Whoever gives up does so when all positions are claimed. -/
theorem Step.cursor_of_giveUp (h : race.Sound responses) (step : Step race later)
    (hlog : later.log = none :: race.log) : race.script.cursor = responses.length := by
  have hnone : none ∈ later.log := by
    rw [hlog]
    exact List.mem_cons_self
  have hfull := (step.sound h).exhausted hnone
  cases step with
  | claim => simp at hlog
  | read | refused | giveUp => exact hfull

/-! ## What the callers are told -/

/-- The completed attempts are those that claimed a position and those that gave up. -/
theorem log_perm (race : Race) :
    race.log.Perm (race.claimed.map some ++ List.replicate (race.log.count none) none) := by
  unfold claimed
  induction race.log with
  | nil => exact List.Perm.refl _
  | cons entry log ih =>
      cases entry with
      | none =>
          simp only [List.filterMap_cons, id, List.count_cons_self, List.replicate_succ]
          exact (ih.cons none).trans List.perm_middle.symm
      | some position =>
          have hcount : (some position :: log).count none = log.count none := by simp
          rw [hcount]
          exact ih.cons (some position)

theorem length_log (h : race.Sound responses) :
    race.log.length = race.script.cursor + race.log.count none := by
  have hlength := race.log_perm.length_eq
  rw [h.claimed_eq] at hlength
  simpa using hlength

/-- As many positions are claimed as attempts are completed, as far as the script goes. -/
theorem cursor_eq (h : race.Sound responses) :
    race.script.cursor = min race.log.length responses.length := by
  have hlength := length_log h
  have hle := h.cursor_le
  by_cases hnone : none ∈ race.log
  · have hfull := h.exhausted hnone
    omega
  · have hzero : race.log.count none = 0 := List.count_eq_zero.2 hnone
    omega

theorem told_of_lt (h : race.Sound responses) (id : String) {position : Nat}
    (hlt : position < responses.length) :
    race.told id (some position) = responses[position].outcome := by
  unfold told
  rw [h.responses_eq]
  simp only [List.getElem?_eq_getElem hlt]

/-- The statuses before the cursor, as those who claimed them were told. -/
theorem map_told_range (h : race.Sound responses) (id : String) :
    (List.range race.script.cursor).map (fun position => race.told id (some position)) =
      (responses.take race.script.cursor).map Status.outcome := by
  have hle := h.cursor_le
  apply List.ext_getElem
  · simp only [List.length_map, List.length_range, List.length_take]
    omega
  · intro position hleft hright
    simp only [List.length_map, List.length_range] at hleft
    simp only [List.getElem_map, List.getElem_range, List.getElem_take]
    exact told_of_lt h id (by omega)

theorem outcomes_perm (h : race.Sound responses) (id : String) :
    (race.outcomes id).Perm
      ((responses.take race.script.cursor).map Status.outcome ++
        List.replicate (race.log.count none) (.error (.retryExhausted id responses.length))) := by
  have hnone : race.told id none = .error (.retryExhausted id responses.length) := by
    unfold told
    rw [h.responses_eq]
  have hperm := race.log_perm.map (race.told id)
  rw [List.map_append, List.map_map, List.map_replicate, hnone, h.claimed_eq] at hperm
  refine hperm.trans (List.Perm.append_right _ ?_)
  rw [← map_told_range h id]
  exact (List.reverse_perm _).map _

/-! ## An attempt that nobody disturbs -/

/-- An attempt whose steps follow each other meets what an attempt on the book meets, and leaves the
script as that one does. -/
theorem attempt_undisturbed (race : Race) {caller : Nat} (hidle : race.callers caller = .idle)
    {book : RetryBook} {id : String} (hscript : book.scripts.get? id = some race.script) :
    ∃ later position, Relation.ReflTransGen Step race later ∧
      later.log = position :: race.log ∧ (book.attempt id).1 = race.told id position ∧
      (book.attempt id).2.scripts.get? id = some later.script := by
  have hread := Step.read race caller hidle
  have hholding : (race.setCaller caller (.holding race.script.cursor)).callers caller =
      .holding race.script.cursor := if_pos rfl
  by_cases hleft : race.script.cursor < race.script.responses.length
  · have hclaim : race.script.claim = some (race.script.responses[race.script.cursor],
        { race.script with cursor := race.script.cursor + 1 }) := by
      simp [Script.claim, hleft]
    refine ⟨_, some race.script.cursor, (Relation.ReflTransGen.single hread).tail
      (.claim _ caller race.script.cursor hholding hleft rfl), rfl, ?_, ?_⟩
    · rw [RetryBook.attempt_of_claim hscript hclaim]
      simp [told, hleft]
    · rw [RetryBook.attempt_of_claim hscript hclaim]
      exact Table.get?_insert_self _ _ _
  · have hclaim : race.script.claim = none := by
      simp [Script.claim, Nat.le_of_not_lt hleft]
    refine ⟨_, none, (Relation.ReflTransGen.single hread).tail
      (.giveUp _ caller race.script.cursor hholding (Nat.le_of_not_lt hleft)), rfl, ?_, ?_⟩
    · rw [RetryBook.attempt_of_claimed hscript hclaim]
      rfl
    · rw [RetryBook.attempt_of_claimed hscript hclaim]
      exact hscript

/-! ## Any number of callers -/

/-- At every moment of every race, whoever is still under way: no position has been claimed twice
and those claimed are those before the cursor, which never goes back and stays within the script;
whoever gives up finds all positions claimed; and what the completed attempts were told is, in
some order, what the first statuses of the script say, one for each attempt, and that the script
is exhausted for those attempts that are too many. -/
theorem positions_claimed_once (h : Reachable responses race) :
    race.claimed.Nodup ∧
    (∀ position, position ∈ race.claimed ↔ position < race.script.cursor) ∧
    race.script.responses = responses ∧ race.script.cursor ≤ responses.length ∧
    (∀ later, Relation.ReflTransGen Step race later →
      race.script.cursor ≤ later.script.cursor) ∧
    (∀ later, Step race later → later.log = none :: race.log →
      race.script.cursor = responses.length) ∧
    ∀ id, (race.outcomes id).Perm
      ((responses.take (min race.log.length responses.length)).map Status.outcome ++
        List.replicate (race.log.length - min race.log.length responses.length)
          (.error (.retryExhausted id responses.length))) := by
  have sound := h.sound
  refine ⟨?_, ?_, sound.responses_eq, sound.cursor_le, ?_, ?_, ?_⟩
  · rw [sound.claimed_eq]
    exact List.pairwise_reverse.2 (List.nodup_range.imp Ne.symm)
  · intro position
    rw [sound.claimed_eq, List.mem_reverse, List.mem_range]
  · intro later steps
    exact cursor_le_of_steps steps
  · intro later step hlog
    exact step.cursor_of_giveUp sound hlog
  · intro id
    have hcount : race.log.length - race.script.cursor = race.log.count none := by
      have := length_log sound
      omega
    rw [← cursor_eq sound, hcount]
    exact outcomes_perm sound id

/-- Two callers read the same position; one claims it, the other is refused and claims the next; a
third one reads that nothing is left. -/
theorem positions_claimed_once_contested :
    ∃ race, Reachable [⟨14, "busy"⟩, ⟨0, ""⟩] race ∧ race.log = [none, some 1, some 0] ∧
      race.claimed.Nodup ∧ race.Quiet ∧
      (race.outcomes "a").Perm
        [.error (.scripted ⟨14, "busy"⟩), .ok (), .error (.retryExhausted "a" 2)] := by
  have h : Reachable [⟨14, "busy"⟩, ⟨0, ""⟩] _ := .start
  have h := h.step (.read _ 0 rfl)
  have h := h.step (.read _ 1 rfl)
  have h := h.step (.claim _ 1 0 rfl (by decide) rfl)
  have h := h.step (.refused _ 0 0 rfl (by decide))
  have h := h.step (.claim _ 0 1 rfl (by decide) rfl)
  have h := h.step (.read _ 2 rfl)
  have h := h.step (.giveUp _ 2 2 rfl (by decide))
  refine ⟨_, h, rfl, (positions_claimed_once h).1, ?_, ?_⟩
  · intro caller
    match caller with
    | 0 => rfl
    | 1 => rfl
    | 2 => rfl
    | _ + 3 => rfl
  · exact (positions_claimed_once h).2.2.2.2.2.2 "a"

end Race

end Rehearsal
