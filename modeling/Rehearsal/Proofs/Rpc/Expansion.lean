import Rehearsal.Proofs.Rpc.Channel

/-!
# Expanding streams every word, then the error

The replies to an item are its words and then the error it asks for, if any (`replies_expand`).  An
error is the last of them, so a reader who has seen it has seen all words
(`eq_of_prefix_upToError`).  The task does not watch for its reader to leave: it learns of it from
the next reply it sends, or has come to the end of the words (`Producer.Step.unread`).
-/

namespace Rehearsal.Rpc

/-! ## The replies -/

/-- The error that a status asks for: one if the code is not `0`, and otherwise none. -/
def failureReplies : Option Status → List Reply
  | none => []
  | some status =>
      if status.code = 0 then [] else [.error (ServiceError.scripted status).toRpc]

theorem replies_expand (item : EchoItem) :
    (expand item).replies =
      (Text.words item.content).map .ok ++ failureReplies item.error := by
  obtain ⟨content, asked⟩ := item
  cases asked with
  | none => rfl
  | some status =>
      by_cases hcode : status.code = 0
      · simp [expand, Feed.replies, Ending.replies, failureReplies, hcode,
          @check_of_code_eq_zero (some status)]
      · simp [expand, Feed.replies, Ending.replies, failureReplies, hcode,
          check_of_code_ne_zero hcode]

/-- A feed has no more than one error, at its end. -/
theorem upToError_replies (feed : Feed String) : upToError feed.replies = feed.replies := by
  obtain ⟨contents, ending⟩ := feed
  show upToError (contents.map .ok ++ ending.replies) = contents.map .ok ++ ending.replies
  induction contents with
  | nil => cases ending <;> rfl
  | cons content rest ih =>
      rw [List.map_cons, List.cons_append, upToError, ih]

/-- Whoever has seen the error has seen all replies. -/
theorem eq_of_prefix_upToError {seen replies : List Reply} (h : seen <+: upToError replies)
    (failed : ∃ reply ∈ seen, reply.isError = true) : seen = upToError replies := by
  induction replies generalizing seen with
  | nil => exact List.prefix_nil.1 h
  | cons reply rest ih =>
      cases seen with
      | nil => simp at failed
      | cons first others =>
          cases hreply : reply.isError with
          | true =>
              rw [upToError_cons_of_error hreply] at h ⊢
              exact h.eq_of_length_le (by simp)
          | false =>
              rw [upToError_cons_of_ok hreply] at h ⊢
              obtain ⟨rfl, hothers⟩ := List.cons_prefix_cons.1 h
              rw [ih hothers (by simpa [hreply] using failed)]

namespace Producer

variable {start p later : Producer} {steps : Nat}

/-! ## What a step leaves as it is -/

/-- What is still to be taken is what has not been taken. -/
theorem Reachable.rest_eq (h : Reachable start p) (new : start.New) :
    p.rest = start.rest.drop p.taken := by
  induction h with
  | start => rw [new.taken, List.drop_zero]
  | step _ step ih =>
      cases step with
      | take reply rest running free next =>
          rw [← List.drop_drop, ← ih, next, List.drop_one, List.tail_cons]
      | _ => exact ih
  | leave _ _ ih => exact ih

/-- When nobody reads, nothing is sent, and a task that does not watch for it ends with the next
reply it would send or with the last. -/
theorem Step.unread (step : Step p later) (gone : p.left = true) (unaware : p.watchful = false) :
    later.received = p.received ∧ later.queue = p.queue ∧
      (later.ended = true ↔ p.hand ≠ none ∨ p.rest = []) := by
  cases step with
  | take reply rest running free next => simp [running, free, next]
  | fail reply running held left => simp [held]
  | finish running free spent closed => simp [spent]
  | notice running free watches left => simp [unaware] at watches
  | send reply running held present room => simp [gone] at present
  | read reply queue present next => simp [gone] at present

theorem Attended.received_eq (h : Attended p steps later) (gone : p.left = true)
    (unaware : p.watchful = false) : later.received = p.received := by
  induction h with
  | start => rfl
  | step h step ih =>
      have hunaware := h.reachable.kin.watchful.trans unaware
      exact (step.unread (h.left_eq.trans gone) hunaware).1.trans ih

end Producer

/-! ## Expansions -/

open Producer

theorem new_expand (item : EchoItem) (capacity : Nat) : New (.expand item capacity) :=
  ⟨rfl, rfl, rfl, rfl, rfl, rfl⟩

theorem sound_expand (item : EchoItem) (capacity : Nat) :
    Sound (expand item).replies (.expand item capacity) := by
  rw [← upToError_replies]
  exact (new_expand item capacity).sound

section

variable {item : EchoItem} {capacity steps : Nat} {p : Producer}

/-- What the reader of an expansion has at any time. -/
theorem expand_within (h : Reachable (.expand item capacity) p) :
    p.received <+: (expand item).replies ∧
      ((∃ reply ∈ p.received, reply.isError = true) → p.received = (expand item).replies) ∧
      p.queue.length ≤ capacity ∧ p.rest = (expand item).replies.drop p.taken ∧
      p.taken ≤ p.received.length + capacity + 1 ∧ p.taken ≤ (expand item).replies.length := by
  have hsound := h.sound (sound_expand item capacity)
  have hkin := h.kin
  obtain ⟨hseen, hunderway, hall⟩ := hsound.within
  have hqueue := hsound.queue_le
  rw [hkin.capacity] at hunderway hqueue
  refine ⟨hseen, ?_, hqueue, h.rest_eq (new_expand item capacity), hunderway, hall⟩
  rw [← upToError_replies] at hseen ⊢
  exact eq_of_prefix_upToError hseen

/-- What becomes of an expansion that its reader has left. -/
theorem expand_abandoned (h : Reachable (.expand item capacity) p) (gone : p.left = true) :
    (∀ later, Step p later → later.received = p.received ∧ later.queue = [] ∧
        (later.ended = true ↔ p.hand ≠ none ∨ p.rest = [])) ∧
      ∀ steps later, Attended p steps later →
        steps ≤ 2 ∧ later.received = p.received ∧ later.taken ≤ p.taken + 1 ∧
          (later.ended = true ∨ ∃ next, Step later next) := by
  have hkin := h.kin
  have hunaware : p.watchful = false := hkin.watchful
  obtain ⟨hqueue, -⟩ := (h.sound (sound_expand item capacity)).gone gone
  refine ⟨fun later step => ?_, fun steps later hlater => ?_⟩
  · obtain ⟨hreceived, hsame, hended⟩ := step.unread gone hunaware
    exact ⟨hreceived, hsame.trans hqueue, hended⟩
  · obtain ⟨hsteps, htaken, hon⟩ := hlater.forsaken gone (.inr hkin.staysOpen)
    exact ⟨hsteps, hlater.received_eq gone hunaware, htaken, hon⟩

/-- When nothing can move any more, the reader of an expansion has all replies, and the task has
ended. -/
theorem expand_delivered (room : 0 < capacity) (h : Attended (.expand item capacity) steps p)
    (stuck : p.Stuck) : p.received = (expand item).replies ∧ p.queue = [] ∧ p.ended = true := by
  have hkin := h.reachable.kin
  have hroom : 0 < p.capacity := by
    rw [hkin.capacity]
    exact room
  obtain ⟨hreceived, hqueue, hended⟩ :=
    (h.reachable.sound (sound_expand item capacity)).delivered hroom h.left_eq stuck
  refine ⟨hreceived, hqueue, hended.resolve_right ?_⟩
  rintro ⟨hopen, -⟩
  rw [hkin.staysOpen] at hopen
  cases hopen

end

/-- An expansion under every schedule.  The replies are the words of the content and then one error,
if the status is a failure.  At any time the reader has a prefix of them, with the error only when
it has them all, and at most one is under way beside those in the queue.  When the reader has left,
nothing more reaches it, and the task ends at the next reply it would send or at the end of the
words, without going through the others.  While the reader stays, every run comes to an end, and at
its end the reader has all replies and the task has ended. -/
theorem expand_streams_all (item : EchoItem) {capacity : Nat} (room : 0 < capacity) :
    (expand item).replies = (Text.words item.content).map .ok ++ failureReplies item.error ∧
      (∀ p, Reachable (.expand item capacity) p →
        p.received <+: (expand item).replies ∧
          ((∃ reply ∈ p.received, reply.isError = true) →
            p.received = (expand item).replies) ∧
          p.queue.length ≤ capacity ∧ p.rest = (expand item).replies.drop p.taken ∧
          p.taken ≤ p.received.length + capacity + 1 ∧
          p.taken ≤ (expand item).replies.length ∧
          (p.left = true →
            (∀ later, Step p later → later.received = p.received ∧ later.queue = [] ∧
              (later.ended = true ↔ p.hand ≠ none ∨ p.rest = [])) ∧
            ∀ steps later, Attended p steps later →
              steps ≤ 2 ∧ later.received = p.received ∧ later.taken ≤ p.taken + 1 ∧
                (later.ended = true ∨ ∃ next, Step later next))) ∧
      ∀ steps p, Attended (.expand item capacity) steps p →
        steps ≤ 3 * (expand item).replies.length + 1 ∧
          (p.Stuck →
            p.received = (expand item).replies ∧ p.queue = [] ∧ p.ended = true) := by
  refine ⟨replies_expand item, fun p h => ?_, fun steps p h => ⟨?_, expand_delivered room h⟩⟩
  · obtain ⟨hseen, hfailed, hqueue, hrest, hunderway, hall⟩ := expand_within h
    exact ⟨hseen, hfailed, hqueue, hrest, hunderway, hall, expand_abandoned h⟩
  · have hwork := h.work_le
    rw [(new_expand item capacity).work_eq] at hwork
    rw [← upToError_replies]
    exact Nat.le_trans (Nat.le_add_right _ _) hwork

/-- Two words and then a failure. -/
def failingWords : EchoItem := ⟨" a  b", some ⟨5, "gone"⟩⟩

/-- With room for one reply, the reader reads the words and leaves during the send of the error. -/
theorem expand_streams_all_abandoned :
    ∃ p later, Reachable (.expand failingWords 1) p ∧ p.received = [.ok "a", .ok "b"] ∧
      p.hand = some (.error ⟨.notFound, "gone"⟩) ∧ p.left = true ∧ Step p later ∧
      later.ended = true ∧ later.received <+: (expand failingWords).replies := by
  have hwords : Text.words failingWords.content = ["a", "b"] := by decide
  have hreplies : (expand failingWords).replies =
      [.ok "a", .ok "b", .error ⟨.notFound, "gone"⟩] := by
    rw [replies_expand, hwords]
    rfl
  have hstart : Reachable (.expand failingWords 1) (.expand failingWords 1) := .start
  have hfirst := hstart.step (.take _ (.ok "a") _ rfl rfl hreplies)
  have hsent := hfirst.step (.send _ (.ok "a") rfl rfl rfl (by decide))
  have hread := hsent.step (.read _ (.ok "a") [] rfl rfl)
  have hsecond := hread.step (.take _ (.ok "b") _ rfl rfl rfl)
  have hqueued := hsecond.step (.send _ (.ok "b") rfl rfl rfl (by decide))
  have hheld := hqueued.step (.take _ _ [] rfl rfl rfl)
  have hseen := hheld.step (.read _ (.ok "b") [] rfl rfl)
  have hleft := hseen.leave rfl
  obtain ⟨-, hruns, -⟩ := @expand_streams_all failingWords 1 (by decide)
  obtain ⟨-, -, -, -, -, -, habandoned⟩ := hruns _ hleft
  refine ⟨_, _, hleft, rfl, rfl, rfl, .fail _ _ rfl rfl rfl, ?_, ?_⟩
  · exact ((habandoned rfl).1 _ (.fail _ _ rfl rfl rfl)).2.2.2 (.inr rfl)
  · exact (hruns _ (hleft.step (.fail _ _ rfl rfl rfl))).1

end Rehearsal.Rpc
