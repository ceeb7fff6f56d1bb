import Rehearsal.Rpc.Channel

/-!
# Replies through a bounded queue arrive in order

Whatever the task and its reader do, what has been received, what is queued and what is still to
come are together the replies up to the first error (`Producer.Sound.present`).  So the reader sees
a prefix of them, and when nothing can move any more it has seen them all.  A task whose reader has
left takes one more item at most and ends (`Producer.errands`), and every run comes to an end
(`Producer.work`).
-/

namespace Rehearsal.Rpc

/-! ## Replies up to the first error -/

theorem upToError_cons_of_error {reply : Reply} (h : reply.isError = true) (rest : List Reply) :
    upToError (reply :: rest) = [reply] := by
  cases reply with
  | error error => rfl
  | ok content => cases h

theorem upToError_cons_of_ok {reply : Reply} (h : reply.isError = false) (rest : List Reply) :
    upToError (reply :: rest) = reply :: upToError rest := by
  cases reply with
  | error error => cases h
  | ok content => rfl

theorem length_upToError_pos (reply : Reply) (rest : List Reply) :
    0 < (upToError (reply :: rest)).length := by
  cases reply <;> exact Nat.succ_pos _

theorem exists_isError_upToError {replies : List Reply}
    (h : ∃ reply ∈ replies, reply.isError = true) :
    ∃ reply ∈ upToError replies, reply.isError = true := by
  induction replies with
  | nil => simp at h
  | cons reply rest ih =>
      cases hreply : reply.isError with
      | true =>
          rw [upToError_cons_of_error hreply]
          exact ⟨reply, List.mem_singleton_self reply, hreply⟩
      | false =>
          rw [upToError_cons_of_ok hreply]
          obtain ⟨other, hother, herror⟩ := ih (by simpa [hreply] using h)
          exact ⟨other, List.mem_cons_of_mem _ hother, herror⟩

/-- The replies of a dialogue are those to its items and its ending, up to the first error. -/
theorem replies_chat (inbound : Feed EchoItem) :
    (chat inbound).replies =
      upToError (inbound.items.map replyTo ++ inbound.ending.replies) := by
  obtain ⟨items, ending⟩ := inbound
  show (chatItems items ending).replies = upToError (items.map replyTo ++ ending.replies)
  induction items with
  | nil => cases ending <;> rfl
  | cons item rest ih =>
      rw [List.map_cons, List.cons_append]
      cases hecho : item.echo with
      | error error =>
          have hreply : replyTo item = .error error.toRpc := by rw [replyTo, hecho]; rfl
          simp only [chatItems, hecho, hreply]
          rfl
      | ok content =>
          have hreply : replyTo item = .ok content := by rw [replyTo, hecho]; rfl
          rw [hreply, upToError, ← ih]
          simp only [chatItems, hecho]
          rfl

namespace Producer

variable {start p later : Producer} {replies : List Reply} {steps : Nat}

/-! ## One step -/

/-- Nothing has been done yet. -/
structure New (p : Producer) : Prop where
  taken : p.taken = 0
  hand : p.hand = none
  queue : p.queue = []
  received : p.received = []
  left : p.left = false
  ended : p.ended = false

/-- The replies that are still to be queued. -/
def coming (p : Producer) : List Reply :=
  if p.ended then [] else upToError (p.hand.toList ++ p.rest)

/-- How many items the task may still take after its reader has left. -/
def further (p : Producer) : Nat :=
  if p.ended = false ∧ p.hand = none ∧ p.rest ≠ [] then 1 else 0

/-- What holds of a task with certain replies to give, at any time. -/
structure Sound (replies : List Reply) (p : Producer) : Prop where
  handless : p.ended = true → p.hand = none
  queue_le : p.queue.length ≤ p.capacity
  clean : p.ended = false → ∀ reply ∈ p.received ++ p.queue, reply.isError = false
  /-- Nothing is lost, and each item taken is received, queued or in hand. -/
  present : p.left = false → p.received ++ p.queue ++ p.coming = replies ∧
    p.taken = p.received.length + p.queue.length + p.hand.toList.length
  /-- What was queued is lost, and the item that may still be taken counts as taken. -/
  gone : p.left = true → p.queue = [] ∧ p.received <+: replies ∧
    p.taken + p.further ≤ p.received.length + p.capacity + 1 ∧
    p.taken + p.further ≤ replies.length

theorem coming_of_running (h : p.ended = false) :
    p.coming = upToError (p.hand.toList ++ p.rest) := by
  simp only [coming, h, Bool.false_eq_true, if_false]

theorem coming_of_ended (h : p.ended = true) : p.coming = [] := by
  simp only [coming, h, if_true]

/-- A reply in hand is still to come. -/
theorem coming_of_take {reply : Reply} {rest : List Reply} (running : p.ended = false)
    (free : p.hand = none) (next : p.rest = reply :: rest) :
    coming { p with rest, hand := some reply, taken := p.taken + 1 } = p.coming := by
  simp [coming, running, free, next]

theorem further_le_one (p : Producer) : p.further ≤ 1 := by
  unfold further
  split <;> omega

/-- Whoever has a reply in hand or may take another item has a reply to come. -/
theorem further_add_hand_le (h : p.Sound replies) :
    p.further + p.hand.toList.length ≤ p.coming.length ∧
      p.further + p.hand.toList.length ≤ 1 := by
  cases hended : p.ended with
  | true =>
      simp [further, hended, h.handless hended]
  | false =>
      rw [coming_of_running hended]
      unfold further
      cases hhand : p.hand with
      | some reply =>
          have hpos := length_upToError_pos reply p.rest
          simp
          omega
      | none =>
          cases hrest : p.rest with
          | nil => simp [hended]
          | cons reply rest =>
              have hpos := length_upToError_pos reply rest
              simp [hended]
              omega

theorem New.sound (h : p.New) : p.Sound (upToError p.rest) where
  handless _ := h.hand
  queue_le := by simp [h.queue]
  clean := by simp [h.received, h.queue]
  present _ := by
    rw [coming_of_running h.ended]
    simp [h.received, h.queue, h.hand, h.taken]
  gone hleft := by simp [h.left] at hleft

theorem Sound.take (h : p.Sound replies) {reply : Reply} {rest : List Reply}
    (running : p.ended = false) (free : p.hand = none) (next : p.rest = reply :: rest) :
    Sound replies { p with rest, hand := some reply, taken := p.taken + 1 } where
  handless := by simp [running]
  queue_le := h.queue_le
  clean := h.clean
  present := by
    intro hleft
    obtain ⟨hsplit, htaken⟩ := h.present hleft
    simp only [free, Option.toList_none, List.length_nil] at htaken
    rw [coming_of_take running free next]
    refine ⟨hsplit, ?_⟩
    simp
    omega
  gone := by
    intro hleft
    obtain ⟨hqueue, hseen, hroom, hall⟩ := h.gone hleft
    have hfurther : p.further = 1 := by simp [further, running, free, next]
    refine ⟨hqueue, hseen, ?_⟩
    simp [further]
    omega

/-- A reply that goes into the queue is the first of those to come, and an error is the last. -/
theorem coming_of_held {reply : Reply} (running : p.ended = false) (held : p.hand = some reply) :
    p.coming = reply ::
      coming { p with hand := none, queue := p.queue ++ [reply], ended := reply.isError } := by
  rw [coming_of_running running, held]
  cases hreply : reply.isError with
  | true =>
      rw [coming_of_ended rfl]
      exact upToError_cons_of_error hreply p.rest
  | false =>
      rw [coming_of_running rfl]
      exact upToError_cons_of_ok hreply p.rest

theorem Sound.send (h : p.Sound replies) {reply : Reply} (running : p.ended = false)
    (held : p.hand = some reply) (present : p.left = false)
    (room : p.queue.length < p.capacity) :
    Sound replies
      { p with hand := none, queue := p.queue ++ [reply], ended := reply.isError } where
  handless _ := rfl
  queue_le := by
    rw [List.length_append]
    exact room
  clean := by
    intro hok other hother
    rw [← List.append_assoc] at hother
    rcases List.mem_append.1 hother with hearlier | hnew
    · exact h.clean running other hearlier
    · rw [List.mem_singleton.1 hnew]
      exact hok
  present := by
    intro _
    obtain ⟨hsplit, htaken⟩ := h.present present
    rw [coming_of_held running held] at hsplit
    simp only [held, Option.toList_some, List.length_singleton] at htaken
    refine ⟨by simpa using hsplit, ?_⟩
    simp
    omega
  gone hleft := by simp [present] at hleft

/-- A task may end when there is nothing to come, and at any time when nobody reads. -/
theorem Sound.close (h : p.Sound replies)
    (idle : p.left = false → p.hand = none ∧ p.coming = []) :
    Sound replies { p with hand := none, ended := true } where
  handless _ := rfl
  queue_le := h.queue_le
  clean := by simp
  present := by
    intro hleft
    obtain ⟨hsplit, htaken⟩ := h.present hleft
    obtain ⟨hhand, hcoming⟩ := idle hleft
    rw [hcoming] at hsplit
    rw [hhand] at htaken
    exact ⟨hsplit, htaken⟩
  gone := by
    intro hleft
    obtain ⟨hqueue, hseen, hroom, hall⟩ := h.gone hleft
    refine ⟨hqueue, hseen, ?_⟩
    simp [further]
    omega

theorem Sound.read (h : p.Sound replies) {reply : Reply} {queue : List Reply}
    (present : p.left = false) (next : p.queue = reply :: queue) :
    Sound replies { p with queue, received := p.received ++ [reply] } where
  handless := h.handless
  queue_le := by
    have hlength := h.queue_le
    simp only [next, List.length_cons] at hlength
    exact Nat.le_of_succ_le hlength
  clean := by simpa [next] using h.clean
  present := by
    intro hleft
    obtain ⟨hsplit, htaken⟩ := h.present hleft
    have hcoming : coming { p with queue, received := p.received ++ [reply] } = p.coming := rfl
    rw [next] at hsplit htaken
    rw [hcoming]
    refine ⟨by simpa using hsplit, ?_⟩
    simp at htaken ⊢
    omega
  gone hleft := by simp [present] at hleft

/-- What is queued when the reader leaves counts as taken and not as received. -/
theorem Sound.leave (h : p.Sound replies) (present : p.left = false) :
    Sound replies p.leave where
  handless := h.handless
  queue_le := Nat.zero_le _
  clean := by
    intro hrunning reply hreply
    apply h.clean hrunning
    simp [Producer.leave] at hreply ⊢
    exact .inl hreply
  present hleft := by simp [Producer.leave] at hleft
  gone := by
    intro _
    obtain ⟨hsplit, htaken⟩ := h.present present
    obtain ⟨hcoming, hone⟩ := further_add_hand_le h
    have hqueue := h.queue_le
    have hfurther : p.leave.further = p.further := rfl
    refine ⟨rfl, ⟨p.queue ++ p.coming, ?_⟩, ?_, ?_⟩
    · rw [← List.append_assoc]
      exact hsplit
    · rw [hfurther]
      simp only [Producer.leave]
      omega
    · have hlength := congrArg List.length hsplit
      simp only [List.length_append] at hlength
      rw [hfurther]
      simp only [Producer.leave]
      omega

theorem Step.sound (h : p.Sound replies) (step : Step p later) : later.Sound replies := by
  cases step with
  | take reply rest running free next => exact h.take running free next
  | send reply running held present room => exact h.send running held present room
  | read reply queue present next => exact h.read present next
  | fail reply running held gone => exact h.close (by simp [gone])
  | notice running free watches gone =>
      have hclose := h.close (by simp [gone])
      rwa [← free] at hclose
  | finish running free spent closed =>
      have hcoming : p.coming = [] := by
        simp [coming_of_running running, free, spent, upToError]
      have hclose := h.close fun _ => ⟨free, hcoming⟩
      rwa [← free] at hclose

/-! ## Whole runs -/

theorem Reachable.sound (h : Reachable start p) (hstart : start.Sound replies) :
    p.Sound replies := by
  induction h with
  | start => exact hstart
  | step _ step ih => exact step.sound ih
  | leave _ present ih => exact ih.leave present

theorem Attended.reachable (h : Attended start steps p) : Reachable start p := by
  induction h with
  | start => exact .start
  | step _ step ih => exact ih.step step

/-- What a task is given does not change. -/
structure Kin (start p : Producer) : Prop where
  capacity : p.capacity = start.capacity
  staysOpen : p.staysOpen = start.staysOpen
  watchful : p.watchful = start.watchful

theorem Reachable.kin (h : Reachable start p) : start.Kin p := by
  induction h with
  | start => exact ⟨rfl, rfl, rfl⟩
  | step _ step ih =>
      cases step <;> exact ⟨ih.capacity, ih.staysOpen, ih.watchful⟩
  | leave _ _ ih => exact ⟨ih.capacity, ih.staysOpen, ih.watchful⟩

theorem Step.left_eq (step : Step p later) : later.left = p.left := by
  cases step <;> rfl

theorem Attended.left_eq (h : Attended start steps p) : p.left = start.left := by
  induction h with
  | start => rfl
  | step _ step ih => exact step.left_eq.trans ih

/-! ## Every run comes to an end -/

/-- A bound on the steps that are left: a reply to come is taken, sent and read, and a task that has
nothing in hand ends. -/
def work (p : Producer) : Nat :=
  3 * p.coming.length + p.queue.length + if p.ended = true ∨ p.hand ≠ none then 0 else 1

theorem work_of_ended (h : p.ended = true) : p.work = p.queue.length := by
  simp [work, coming_of_ended h, h]

theorem work_of_held {reply : Reply} (held : p.hand = some reply) :
    p.work = 3 * p.coming.length + p.queue.length := by
  simp [work, held]

theorem work_of_free (running : p.ended = false) (free : p.hand = none) :
    p.work = 3 * p.coming.length + p.queue.length + 1 := by
  simp [work, running, free]

theorem New.work_eq (h : p.New) : p.work = 3 * (upToError p.rest).length + 1 := by
  simp [work_of_free h.ended h.hand, coming, h.ended, h.hand, h.queue]

theorem Step.work_lt (step : Step p later) : later.work < p.work := by
  cases step with
  | take reply rest running free next =>
      rw [work_of_free running free, work_of_held rfl, coming_of_take running free next]
      exact Nat.lt_succ_self _
  | send reply running held present room =>
      have hcoming := congrArg List.length (coming_of_held running held)
      simp only [List.length_cons] at hcoming
      rw [work_of_held held]
      cases hreply : reply.isError with
      | true =>
          rw [work_of_ended rfl]
          simp only [List.length_append, List.length_singleton]
          omega
      | false =>
          rw [hreply] at hcoming
          rw [work_of_free rfl rfl]
          simp only [List.length_append, List.length_singleton]
          omega
  | fail reply running held gone =>
      have hpos : 0 < p.coming.length := by simp [coming_of_held running held]
      rw [work_of_held held, work_of_ended rfl]
      exact Nat.lt_add_of_pos_left (Nat.mul_pos (by decide) hpos)
  | finish running free spent closed =>
      rw [work_of_free running free, work_of_ended rfl]
      exact Nat.lt_succ_of_le (Nat.le_add_left _ _)
  | notice running free watches gone =>
      rw [work_of_free running free, work_of_ended rfl]
      exact Nat.lt_succ_of_le (Nat.le_add_left _ _)
  | read reply queue present next =>
      have hcoming : coming { p with queue, received := p.received ++ [reply] } = p.coming := rfl
      simp only [work, hcoming, next, List.length_cons]
      omega

theorem Attended.work_le (h : Attended start steps p) : steps + p.work ≤ start.work := by
  induction h with
  | start => omega
  | step _ step ih =>
      have hless := step.work_lt
      omega

/-- When nothing can move, the reader has all replies, and the task has ended unless it waits for
more items. -/
theorem Sound.delivered (h : p.Sound replies) (room : 0 < p.capacity) (present : p.left = false)
    (stuck : p.Stuck) :
    p.received = replies ∧ p.queue = [] ∧
      (p.ended = true ∨
        (p.staysOpen = true ∧ ∀ reply ∈ replies, reply.isError = false)) := by
  obtain ⟨hsplit, -⟩ := h.present present
  have hqueue : p.queue = [] := by
    cases hqueue : p.queue with
    | nil => rfl
    | cons reply queue => exact absurd (.read p reply queue present hqueue) (stuck _)
  cases hended : p.ended with
  | true =>
      rw [coming_of_ended hended, hqueue] at hsplit
      exact ⟨by simpa using hsplit, hqueue, .inl rfl⟩
  | false =>
      have hhand : p.hand = none := by
        cases hhand : p.hand with
        | none => rfl
        | some reply =>
            have hroom : p.queue.length < p.capacity := by simpa [hqueue] using room
            exact absurd (.send p reply hended hhand present hroom) (stuck _)
      have hrest : p.rest = [] := by
        cases hrest : p.rest with
        | nil => rfl
        | cons reply rest => exact absurd (.take p reply rest hended hhand hrest) (stuck _)
      have hopen : p.staysOpen = true := by
        cases hopen : p.staysOpen with
        | true => rfl
        | false => exact absurd (.finish p hended hhand hrest hopen) (stuck _)
      have hall : p.received = replies := by
        simpa [coming_of_running hended, hhand, hrest, hqueue, upToError] using hsplit
      refine ⟨hall, hqueue, .inr ⟨hopen, ?_⟩⟩
      rw [← hall]
      intro reply hreply
      exact h.clean hended reply (List.mem_append_left _ hreply)

/-! ## When the reader has left -/

/-- A bound on the steps that are left when nobody reads. -/
def errands (p : Producer) : Nat :=
  if p.ended then 0 else if p.hand.isSome then 1 else 2

theorem errands_le_two (p : Producer) : p.errands ≤ 2 := by
  unfold errands
  split
  · omega
  · split <;> omega

theorem Step.dwindles (step : Step p later) (gone : p.left = true) :
    later.errands < p.errands ∧ later.taken + later.further ≤ p.taken + p.further := by
  cases step with
  | take reply rest running free next => simp [errands, further, running, free, next]
  | fail reply running held left => simp [errands, further, running, held]
  | finish running free spent closed => simp [errands, further, running, free]
  | notice running free watches left => simp [errands, further, running, free]
  | send reply running held present room => simp [gone] at present
  | read reply queue present next => simp [gone] at present

theorem Attended.dwindles (h : Attended p steps later) (gone : p.left = true) :
    steps + later.errands ≤ p.errands ∧ later.taken + later.further ≤ p.taken + p.further := by
  induction h with
  | start => omega
  | step h step ih =>
      have hless := step.dwindles (h.left_eq.trans gone)
      omega

/-- A task that notices when its reader leaves, or whose items come to an end, goes on until it has
ended. -/
theorem ended_or_step (gone : p.left = true) (alert : p.watchful = true ∨ p.staysOpen = false) :
    p.ended = true ∨ ∃ later, Step p later := by
  cases hended : p.ended with
  | true => exact .inl rfl
  | false =>
      right
      cases hhand : p.hand with
      | some reply => exact ⟨_, .fail p reply hended hhand gone⟩
      | none =>
          cases hrest : p.rest with
          | cons reply rest => exact ⟨_, .take p reply rest hended hhand hrest⟩
          | nil =>
              rcases alert with watches | closed
              · exact ⟨_, .notice p hended hhand watches gone⟩
              · exact ⟨_, .finish p hended hhand hrest closed⟩

theorem Sound.within (h : p.Sound replies) :
    p.received <+: replies ∧ p.taken ≤ p.received.length + p.capacity + 1 ∧
      p.taken ≤ replies.length := by
  cases hleft : p.left with
  | true =>
      obtain ⟨-, hseen, hroom, hall⟩ := h.gone hleft
      exact ⟨hseen, by omega, by omega⟩
  | false =>
      obtain ⟨hsplit, htaken⟩ := h.present hleft
      obtain ⟨hcoming, hone⟩ := further_add_hand_le h
      have hqueue := h.queue_le
      have hlength := congrArg List.length hsplit
      simp only [List.length_append] at hlength
      refine ⟨⟨p.queue ++ p.coming, ?_⟩, by omega, by omega⟩
      rw [← List.append_assoc]
      exact hsplit

/-- What holds of a task that its reader has left: little is left to do, and all of it gets done. -/
theorem Attended.forsaken (h : Attended p steps later) (gone : p.left = true)
    (alert : p.watchful = true ∨ p.staysOpen = false) :
    steps ≤ 2 ∧ later.taken ≤ p.taken + 1 ∧
      (later.ended = true ∨ ∃ next, Step later next) := by
  obtain ⟨hsteps, htaken⟩ := h.dwindles gone
  have hkin := h.reachable.kin
  have herrands := p.errands_le_two
  have hfurther := p.further_le_one
  refine ⟨by omega, by omega, ended_or_step (h.left_eq.trans gone) ?_⟩
  rwa [hkin.watchful, hkin.staysOpen]

end Producer

/-! ## Dialogues -/

open Producer

theorem new_chat (inbound : Feed EchoItem) (capacity : Nat) : New (.chat inbound capacity) :=
  ⟨rfl, rfl, rfl, rfl, rfl, rfl⟩

theorem sound_chat (inbound : Feed EchoItem) (capacity : Nat) :
    Sound (chat inbound).replies (.chat inbound capacity) := by
  rw [replies_chat]
  exact (new_chat inbound capacity).sound

/-- When nothing can move any more, the reader of a dialogue has all replies, and the task has ended
if the items came to an end or one of them failed. -/
theorem chat_delivered {inbound : Feed EchoItem} {capacity steps : Nat} {p : Producer}
    (room : 0 < capacity) (h : Attended (.chat inbound capacity) steps p) (stuck : p.Stuck) :
    p.received = (chat inbound).replies ∧ p.queue = [] ∧
      ((inbound.ending ≠ .unfinished ∨ ∃ item ∈ inbound.items, (replyTo item).isError = true) →
        p.ended = true) := by
  have hkin := h.reachable.kin
  have hroom : 0 < p.capacity := by
    rw [hkin.capacity]
    exact room
  obtain ⟨hreceived, hqueue, hended⟩ :=
    (h.reachable.sound (sound_chat inbound capacity)).delivered hroom h.left_eq stuck
  refine ⟨hreceived, hqueue, fun hover => ?_⟩
  rcases hended with hended | ⟨hopen, hclean⟩
  · exact hended
  · -- a task that waits for more items has met neither their end nor a failing one
    rw [hkin.staysOpen] at hopen
    rcases hover with hclosed | ⟨item, hitem, hfails⟩
    · exact absurd (of_decide_eq_true hopen) hclosed
    · rw [replies_chat] at hclean
      obtain ⟨reply, hreply, herror⟩ := exists_isError_upToError
        ⟨replyTo item, List.mem_append_left inbound.ending.replies (List.mem_map_of_mem hitem),
          hfails⟩
      simp [hclean reply hreply] at herror

/-- A dialogue under every schedule.  The replies are those to the items up to the first that fails.
At any time the reader has a prefix of them, the queue is within its room, at most one item is under
way beside those in the queue, and none after the first that fails is taken.  When the reader has
left, the task takes at most one item more and ends, whether or not the items do.  While the reader
stays, every run comes to an end, and at its end the reader has all replies. -/
theorem chat_keeps_order (inbound : Feed EchoItem) {capacity : Nat} (room : 0 < capacity) :
    (chat inbound).replies = upToError (inbound.items.map replyTo ++ inbound.ending.replies) ∧
      (∀ p, Reachable (.chat inbound capacity) p →
        p.received <+: (chat inbound).replies ∧ p.queue.length ≤ capacity ∧
          p.taken ≤ p.received.length + capacity + 1 ∧
          p.taken ≤ (chat inbound).replies.length ∧
          (p.left = true → ∀ steps later, Attended p steps later →
            steps ≤ 2 ∧ later.taken ≤ p.taken + 1 ∧
              (later.ended = true ∨ ∃ next, Step later next))) ∧
      ∀ steps p, Attended (.chat inbound capacity) steps p →
        steps ≤ 3 * (chat inbound).replies.length + 1 ∧
          (p.Stuck →
            p.received = (chat inbound).replies ∧ p.queue = [] ∧
              ((inbound.ending ≠ .unfinished ∨
                  ∃ item ∈ inbound.items, (replyTo item).isError = true) →
                p.ended = true)) := by
  refine ⟨replies_chat inbound, ?_, ?_⟩
  · intro p h
    have hsound := h.sound (sound_chat inbound capacity)
    have hkin := h.kin
    obtain ⟨hseen, hunderway, hall⟩ := hsound.within
    have hqueue := hsound.queue_le
    rw [hkin.capacity] at hunderway hqueue
    refine ⟨hseen, hqueue, hunderway, hall, fun gone steps later hlater => ?_⟩
    apply hlater.forsaken gone
    rw [hkin.watchful]
    exact .inl rfl
  · intro steps p h
    have hwork := h.work_le
    rw [(new_chat inbound capacity).work_eq] at hwork
    refine ⟨?_, chat_delivered room h⟩
    rw [replies_chat]
    exact Nat.le_trans (Nat.le_add_right _ _) hwork

/-- Three items of which the second asks for a failure, and more may come. -/
def interruptedItems : Feed EchoItem :=
  ⟨[⟨"a", none⟩, ⟨"b", some ⟨5, "gone"⟩⟩, ⟨"c", none⟩], .unfinished⟩

/-- A reader with room for one reply reads one and leaves while the next is in hand. -/
theorem chat_keeps_order_abandoned :
    ∃ p later, Reachable (.chat interruptedItems 1) p ∧ p.left = true ∧ p.received = [.ok "a"] ∧
      p.taken = 2 ∧ Attended p 1 later ∧ later.ended = true ∧ later.taken ≤ 3 ∧
      later.received <+: (chat interruptedItems).replies := by
  have hstart : Reachable (.chat interruptedItems 1) (.chat interruptedItems 1) := .start
  have htaken := hstart.step (.take _ (.ok "a") _ rfl rfl rfl)
  have hsent := htaken.step (.send _ (.ok "a") rfl rfl rfl (by decide))
  have hread := hsent.step (.read _ (.ok "a") [] rfl rfl)
  have hheld := hread.step (.take _ _ _ rfl rfl rfl)
  have hleft := hheld.leave rfl
  obtain ⟨-, hruns, -⟩ := @chat_keeps_order interruptedItems 1 (by decide)
  obtain ⟨-, -, -, -, hforsaken⟩ := hruns _ hleft
  refine ⟨_, _, hleft, rfl, rfl, rfl, .step .start (.fail _ _ rfl rfl rfl), rfl, ?_, ?_⟩
  · exact (hforsaken rfl 1 _ (.step .start (.fail _ _ rfl rfl rfl))).2.1
  · exact (hruns _ (hleft.step (.fail _ _ rfl rfl rfl))).1

end Rehearsal.Rpc
