import Rehearsal.Echo
import Rehearsal.Rpc.Frame

/-!
# Streaming calls

The calls that take or give a stream of items, as functions on feeds.  `expand` gives one reply per
word, `chat` one reply per item, `collect` one reply for all items.  Each ends at the first failure
that is asked for and goes no further.
-/

namespace Rehearsal.Rpc

/-- The words of the content one by one, then the failure asked for, if any. -/
def expand (item : EchoItem) : Feed String where
  items := Text.words item.content
  ending :=
    match check item.error with
    | .ok () => .closed
    | .error error => .failed error.toRpc

/-- Replies to items one by one, up to the first that asks for a failure. -/
def chatItems : List EchoItem → Ending → Feed String
  | [], ending => ⟨[], ending⟩
  | item :: rest, ending =>
      match item.echo with
      | .error error => ⟨[], .failed error.toRpc⟩
      | .ok content =>
          let later := chatItems rest ending
          { later with items := content :: later.items }

/-- Replies to the items of a feed one by one. -/
def chat (inbound : Feed EchoItem) : Feed String := chatItems inbound.items inbound.ending

/-- Gathers items, up to the first that asks for a failure. -/
def collectItems (collector : Collector) : List EchoItem → Except RpcError Collector
  | [] => .ok collector
  | item :: rest =>
      match collector.push item with
      | .error error => .error error.toRpc
      | .ok later => collectItems later rest

/-- Gathers the items of a feed into one text.  There is no answer before the feed ends. -/
def collect (inbound : Feed EchoItem) : Option (Except RpcError String) :=
  match collectItems {} inbound.items with
  | .error error => some (.error error)
  | .ok collector =>
      match inbound.ending with
      | .closed => some (.ok collector.finish)
      | .failed error => some (.error error)
      | .unfinished => none

/-- How a reader's last look at a stream goes. -/
inductive Reading where
  | closed
  | failed (error : RpcError)
  /-- The reader has had as many items as it wanted and left. -/
  | dropped
  /-- The reader wants another item and there is none yet. -/
  | waiting
  deriving DecidableEq, Repr

/-- What a reader sees who leaves after a number of items, if one is given. -/
def Feed.read {α : Type} (feed : Feed α) (wanted : Option Nat) : List α × Reading :=
  match wanted with
  | some count =>
      if count ≤ feed.items.length then (feed.items.take count, .dropped)
      else (feed.items, ended feed.ending)
  | none => (feed.items, ended feed.ending)
where
  /-- How a stream ends for a reader who stays to the end. -/
  ended : Ending → Reading
    | .closed => .closed
    | .failed error => .failed error
    | .unfinished => .waiting

end Rehearsal.Rpc
