import Rehearsal.Error
import Rehearsal.Text.Percent
import Rehearsal.Wire.Message

/-!
# Frames of a call

Requests and replies travel as frames: a byte that is zero for an uncompressed message, the length
in four bytes, then the message.  `Feed` is what arrives on one side of a call, a list of items and
how it ends; `Feed.ofBody` reads one from the bytes of a body.
-/

namespace Rehearsal.Rpc

open Wire (Bytes)

inductive Ending where
  | closed
  | failed (error : RpcError)
  /-- The sender keeps its side open and sends no more for now. -/
  | unfinished
  deriving DecidableEq, Repr

/-- What arrives on one side of a call. -/
structure Feed (α : Type) where
  items : List α
  ending : Ending := .closed
  deriving DecidableEq, Repr

/-- The longest message that is accepted, in bytes. -/
def maxMessageBytes : Nat := 4 * 1024 * 1024

def frame (message : Bytes) : Bytes :=
  let length := message.length
  0 :: (length >>> 24).toUInt8 :: (length >>> 16).toUInt8 :: (length >>> 8).toUInt8 ::
    length.toUInt8 :: message

/-- The length that four bytes stand for. -/
def frameLength (a b c d : UInt8) : Nat :=
  ((a.toNat * 256 + b.toNat) * 256 + c.toNat) * 256 + d.toNat

/-- The bytes of a body end inside a frame. -/
def unexpectedEnd : RpcError := ⟨.internal, "Unexpected EOF decoding stream."⟩

/-- The messages in the frames of a body, and the error at which they stop.  A body that ends right
after the head of a frame is taken to end before it.  `fuel` bounds the number of frames. -/
def unframeWithin : (fuel : Nat) → Bytes → Feed Bytes
  | 0, _ => ⟨[], .closed⟩
  | _, [] => ⟨[], .closed⟩
  | fuel + 1, flag :: a :: b :: c :: d :: rest =>
      if flag = 1 then
        ⟨[], .failed ⟨.internal, "protocol error: received message with compressed-flag but no " ++
          "grpc-encoding was specified"⟩⟩
      else if flag ≠ 0 then
        ⟨[], .failed ⟨.internal, "protocol error: received message with invalid compression " ++
          s!"flag: {flag} (valid flags are 0 and 1), while sending request"⟩⟩
      else
        let length := frameLength a b c d
        if maxMessageBytes < length then
          ⟨[], .failed ⟨.outOfRange, "Error, decoded message length too large: found " ++
            s!"{length} bytes, the limit is: {maxMessageBytes} bytes"⟩⟩
        else if rest.length < length then
          ⟨[], if rest = [] then .closed else .failed unexpectedEnd⟩
        else
          let later := unframeWithin fuel (rest.drop length)
          { later with items := rest.take length :: later.items }
  | _ + 1, _ :: _ => ⟨[], .failed unexpectedEnd⟩

/-- The messages in the frames of a body. -/
def unframe (body : Bytes) : Feed Bytes := unframeWithin body.length body

namespace Feed

variable {α β : Type}

/-- Decodes every item; the first that cannot be decoded ends the feed. -/
def decode (α : Type) [Wire.Message α] : List Bytes → Ending → Feed α
  | [], ending => ⟨[], ending⟩
  | bytes :: rest, ending =>
      match Wire.decode α bytes with
      | .error error => ⟨[], .failed ⟨.internal, error.message⟩⟩
      | .ok message =>
          let later := decode α rest ending
          { later with items := message :: later.items }

/-- The requests in a body.  The feed stays open if the sender does. -/
def ofBody (α : Type) [Wire.Message α] (body : Bytes) (halfClosed : Bool) : Feed α :=
  let feed := unframe body
  let ending :=
    match feed.ending with
    | .closed => if halfClosed then .closed else .unfinished
    | ending => ending
  decode α feed.items ending

/-- The one message of a feed.  What follows it must be well-formed and is otherwise ignored. -/
def single (feed : Feed α) : Except RpcError α :=
  match feed.ending, feed.items with
  | .failed error, _ => .error error
  | _, [] => .error ⟨.internal, "Missing request message."⟩
  | _, item :: _ => .ok item

def ofResult [Wire.Message α] : Except RpcError α → Feed Bytes
  | .ok message => ⟨[Wire.encode message], .closed⟩
  | .error error => ⟨[], .failed error⟩

def map (f : α → β) (feed : Feed α) : Feed β := ⟨feed.items.map f, feed.ending⟩

end Feed

end Rehearsal.Rpc

namespace Rehearsal

/-- An error as it arrives at the caller: its message crosses in a header, escaped. -/
def RpcError.delivered (error : RpcError) : RpcError :=
  let bytes := Text.Percent.unescape (Text.Percent.escape (Text.Utf8.encode error.message))
  match Text.Utf8.decode bytes with
  | some message => { error with message }
  | none =>
      let fault := ((Text.Utf8.fault? bytes).map (·.message)).getD ""
      ⟨.unknown, "Error deserializing status message header: " ++ fault⟩

end Rehearsal
