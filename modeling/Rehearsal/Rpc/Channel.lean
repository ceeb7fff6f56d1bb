import Rehearsal.Rpc.Stream

/-!
# Replies through a bounded queue

The replies of a streaming call are produced by a task of its own, which takes one item at a time,
and reach their reader through a queue with room for a few.  The task waits while the queue is full;
the reader may read at any time and may leave at any time.  A task takes nothing new while it has a
reply in hand, and ends after a reply that is an error.
-/

namespace Rehearsal.Rpc

/-- One reply of a stream, or the error that ends it. -/
abbrev Reply := Except RpcError String

/-- The reply to an item. -/
def replyTo (item : EchoItem) : Reply := item.echo.mapError (·.toRpc)

/-- The error of an ending, as a last reply. -/
def Ending.replies : Ending → List Reply
  | .failed error => [.error error]
  | _ => []

/-- All the replies of a feed: its items, then the error it ends with. -/
def Feed.replies (feed : Feed String) : List Reply := feed.items.map .ok ++ feed.ending.replies

/-- Whether a reply is an error. -/
def Reply.isError : Reply → Bool
  | .error _ => true
  | .ok _ => false

/-- A task, its queue and its reader. -/
structure Producer where
  /-- The replies to the items that are still to be taken. -/
  rest : List Reply
  /-- Whether more items may come after those. -/
  staysOpen : Bool
  /-- Whether the task notices a reader who leaves while it waits for an item. -/
  watchful : Bool
  /-- How many replies the queue has room for. -/
  capacity : Nat
  /-- How many items have been taken. -/
  taken : Nat := 0
  /-- The reply that is being sent. -/
  hand : Option Reply := none
  queue : List Reply := []
  received : List Reply := []
  /-- Whether the reader has left. -/
  left : Bool := false
  ended : Bool := false

namespace Producer

/-- The task that streams the words of an item. -/
def expand (item : EchoItem) (capacity : Nat) : Producer where
  rest := (Rpc.expand item).replies
  staysOpen := false
  watchful := false
  capacity

/-- The task that answers the items of a feed one by one. -/
def chat (inbound : Feed EchoItem) (capacity : Nat) : Producer where
  rest := inbound.items.map replyTo ++ inbound.ending.replies
  staysOpen := inbound.ending = .unfinished
  watchful := true
  capacity

/-- A step that does not make the reader leave. -/
inductive Step : Producer → Producer → Prop where
  /-- The task takes the next item. -/
  | take (p : Producer) (reply : Reply) (rest : List Reply) (running : p.ended = false)
      (free : p.hand = none) (next : p.rest = reply :: rest) :
      Step p { p with rest, hand := some reply, taken := p.taken + 1 }
  /-- The reply in hand goes into the queue.  An error is the last. -/
  | send (p : Producer) (reply : Reply) (running : p.ended = false)
      (held : p.hand = some reply) (present : p.left = false)
      (room : p.queue.length < p.capacity) :
      Step p
        { p with hand := none, queue := p.queue ++ [reply], ended := reply.isError }
  /-- The reply in hand finds nobody to read it, and the task ends. -/
  | fail (p : Producer) (reply : Reply) (running : p.ended = false)
      (held : p.hand = some reply) (gone : p.left = true) :
      Step p { p with hand := none, ended := true }
  /-- There are no more items, and the task ends. -/
  | finish (p : Producer) (running : p.ended = false) (free : p.hand = none)
      (spent : p.rest = []) (closed : p.staysOpen = false) :
      Step p { p with ended := true }
  /-- A watchful task notices that the reader has left. -/
  | notice (p : Producer) (running : p.ended = false) (free : p.hand = none)
      (watches : p.watchful = true) (gone : p.left = true) :
      Step p { p with ended := true }
  /-- The reader takes a reply out of the queue. -/
  | read (p : Producer) (reply : Reply) (queue : List Reply) (present : p.left = false)
      (next : p.queue = reply :: queue) :
      Step p { p with queue, received := p.received ++ [reply] }

/-- The reader leaves, and what is queued is lost. -/
def leave (p : Producer) : Producer := { p with left := true, queue := [] }

/-- The states that a number of steps lead to without the reader leaving. -/
inductive Attended (start : Producer) : (steps : Nat) → Producer → Prop where
  | start : Attended start 0 start
  | step {steps : Nat} {p later : Producer} (h : Attended start steps p) (step : Step p later) :
      Attended start (steps + 1) later

/-- The states that steps lead to, whether or not the reader leaves. -/
inductive Reachable (start : Producer) : Producer → Prop where
  | start : Reachable start start
  | step {p later : Producer} (h : Reachable start p) (step : Step p later) :
      Reachable start later
  | leave {p : Producer} (h : Reachable start p) (present : p.left = false) :
      Reachable start p.leave

/-- No step is possible any more. -/
def Stuck (p : Producer) : Prop := ∀ later, ¬ Step p later

end Producer

/-- Replies up to the first error, which is the last. -/
def upToError : List Reply → List Reply
  | [] => []
  | .error error :: _ => [.error error]
  | .ok content :: rest => .ok content :: upToError rest

end Rehearsal.Rpc
