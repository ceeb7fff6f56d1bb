import Rehearsal.Rpc.Timeline

/-!
# Calling a service

Typed calls to a service in simulated time.  Requests and replies cross as bytes, errors as the
header that carries them.
-/

namespace Rehearsal.Client

open Message
open Rpc
open Wire (Bytes)

/-- A result that has arrived, and the millisecond it came at. -/
structure Arrival (α : Type) where
  time : Nat
  result : α

/-- The stream of replies as the caller reads it. -/
def readStream (α : Type) [Wire.Message α] (reply : Feed Bytes) : Feed α :=
  match reply.ending with
  | .failed error => Feed.decode α reply.items (.failed error.delivered)
  | ending => Feed.decode α reply.items ending

/-- The one reply as the caller reads it. -/
def readSingle (α : Type) [Wire.Message α] (reply : Feed Bytes) : Except RpcError α :=
  let feed := readStream α reply
  match feed.ending, feed.items with
  | .failed error, _ => .error error
  | _, [] => .error ⟨.internal, "Missing response message."⟩
  | _, item :: _ => .ok item

/-- The body of a call that sends several messages. -/
def bodyOf {α : Type} [Wire.Message α] (messages : List α) : Bytes :=
  messages.flatMap fun message => frame (Wire.encode message)

/-- Sends one message and waits for one. -/
def unary {α : Type} (β : Type) [Wire.Message α] [Wire.Message β] (method : Method) (request : α)
    (timeline : Timeline) : Option (Arrival (Except RpcError β)) × Timeline :=
  let (reply, timeline) := timeline.call method.path (bodyOf [request])
  (reply.map fun (time, feed) => ⟨time, readSingle β feed⟩, timeline)

/-- Sends messages and waits for all replies.  The sending side may be kept open. -/
def streaming {α : Type} (β : Type) [Wire.Message α] [Wire.Message β] (method : Method)
    (requests : List α) (halfClosed : Bool) (timeline : Timeline) :
    Option (Feed β) × Timeline :=
  let (reply, timeline) := timeline.call method.path (bodyOf requests) halfClosed
  (reply.map fun (_, feed) => readStream β feed, timeline)

/-- Sends messages and waits for one reply. -/
def collect (requests : List EchoRequest) (timeline : Timeline) :
    Option (Except RpcError EchoResponse) × Timeline :=
  let (reply, timeline) := timeline.call Method.collect.path (bodyOf requests)
  (reply.map fun (_, feed) => readSingle EchoResponse feed, timeline)

end Rehearsal.Client
