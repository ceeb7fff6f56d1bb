import Rehearsal.Client.Stub

/-!
# Calls that cross the wire

Messages in their frames arrive as they were sent if they are not too long (`ofBody_bodyOf`).  So a
method with one request and one reply hands its handler the request that was sent (`unary_bodyOf`),
and its caller reads the reply that was given (`Client.readSingle_ok`).  An error arrives as it was
given if its text has no percent sign.
-/

namespace Rehearsal

open Wire (Bytes)

/-! ## Errors -/

namespace Text.Percent

theorem digitValue?_digitByte {digit : Nat} (h : digit < 16) :
    digitValue? (digitByte digit) = some digit := by
  have all : ∀ digit : Fin 16, digitValue? (digitByte digit) = some digit.val := by decide
  exact all ⟨digit, h⟩

theorem escape_cons (byte : UInt8) (rest : List UInt8) :
    escape (byte :: rest) =
      (if isEscaped byte then [37, digitByte (byte.toNat / 16), digitByte (byte.toNat % 16)]
        else [byte]) ++ escape rest := rfl

theorem unescape_cons_of_ne {byte : UInt8} (h : byte ≠ 37) (rest : List UInt8) :
    unescape (byte :: rest) = byte :: unescape rest := by
  cases rest with
  | nil => rfl
  | cons second rest =>
      cases rest with
      | nil => rfl
      | cons third rest =>
          have hfirst : (byte == 37) = false := beq_false_of_ne h
          rw [unescape, hfirst]
          rfl

/-- Bytes without a percent sign are read back from their escapes. -/
theorem unescape_escape {bytes : List UInt8} (h : 37 ∉ bytes) :
    unescape (escape bytes) = bytes := by
  induction bytes with
  | nil => rfl
  | cons byte rest ih =>
      obtain ⟨hbyte, hrest⟩ := not_or.1 fun hmem => h (List.mem_cons.2 hmem)
      rw [escape_cons]
      split
      · have hhigh := digitValue?_digitByte (show byte.toNat / 16 < 16 by
          have := byte.toNat_lt
          omega)
        have hlow := digitValue?_digitByte (show byte.toNat % 16 < 16 by omega)
        have hwhole : 16 * (byte.toNat / 16) + byte.toNat % 16 = byte.toNat := Nat.div_add_mod _ _
        simp only [List.cons_append, List.nil_append, unescape, beq_self_eq_true, if_true, hhigh,
          hlow, hwhole, ih hrest]
        exact congrArg (· :: rest) UInt8.ofNat_toNat
      · rw [List.singleton_append, unescape_cons_of_ne (Ne.symm hbyte), ih hrest]

end Text.Percent

/-- An error whose text has no percent sign arrives as it was given. -/
theorem RpcError.delivered_of_plain {error : RpcError} (h : 37 ∉ Text.Utf8.encode error.message) :
    error.delivered = error := by
  rw [RpcError.delivered, Text.Percent.unescape_escape h]
  simp only [Text.Utf8.decode_encode]

/-! ## Frames -/

namespace Rpc

theorem frameLength_toUInt8 {length : Nat} (h : length < UInt32.size) :
    frameLength (length >>> 24).toUInt8 (length >>> 16).toUInt8 (length >>> 8).toUInt8
      length.toUInt8 = length := by
  unfold UInt32.size at h
  simp [frameLength]
  omega

theorem unframeWithin_frame_append {message : Bytes} (h : message.length ≤ maxMessageBytes)
    (rest : Bytes) (fuel : Nat) :
    unframeWithin (fuel + 1) (frame message ++ rest) =
      ⟨message :: (unframeWithin fuel rest).items, (unframeWithin fuel rest).ending⟩ := by
  have hlength := frameLength_toUInt8 (Nat.lt_of_le_of_lt h (show maxMessageBytes < _ by decide))
  have hroom : ¬ (message ++ rest).length < message.length := by
    rw [List.length_append]
    omega
  simp only [frame, List.cons_append, unframeWithin, hlength]
  rw [if_neg (by decide), if_neg (by decide), if_neg (by omega), if_neg hroom, List.take_left,
    List.drop_left]

theorem unframeWithin_frames {messages : List Bytes}
    (h : ∀ message ∈ messages, message.length ≤ maxMessageBytes) {fuel : Nat}
    (hfuel : messages.length ≤ fuel) :
    unframeWithin fuel (messages.flatMap frame) = ⟨messages, .closed⟩ := by
  induction messages generalizing fuel with
  | nil => cases fuel <;> rfl
  | cons message rest ih =>
      cases fuel with
      | zero => cases hfuel
      | succ fuel =>
          have hrest := ih (fun other hother => h other (List.mem_cons_of_mem _ hother))
            (Nat.le_of_succ_le_succ hfuel)
          rw [List.flatMap_cons, unframeWithin_frame_append (h message List.mem_cons_self), hrest]

theorem length_le_length_frames (messages : List Bytes) :
    messages.length ≤ (messages.flatMap frame).length := by
  induction messages with
  | nil => exact Nat.le_refl 0
  | cons message rest ih =>
      rw [List.flatMap_cons, List.length_append, List.length_cons]
      have hframe : 1 ≤ (frame message).length := Nat.succ_le_succ (Nat.zero_le _)
      omega

/-- The messages in the frames of a body. -/
theorem unframe_frames {messages : List Bytes}
    (h : ∀ message ∈ messages, message.length ≤ maxMessageBytes) :
    unframe (messages.flatMap frame) = ⟨messages, .closed⟩ :=
  unframeWithin_frames h (length_le_length_frames messages)

section

variable {α β : Type} [Wire.Message α] [Wire.Message β] {request : α}

theorem Feed.decode_encode {requests : List α}
    (h : ∀ request ∈ requests, Wire.decode α (Wire.encode request) = .ok request)
    (ending : Ending) : Feed.decode α (requests.map Wire.encode) ending = ⟨requests, ending⟩ := by
  induction requests with
  | nil => rfl
  | cons request rest ih =>
      have hrest := ih fun other hother => h other (List.mem_cons_of_mem _ hother)
      simp only [List.map_cons, Feed.decode, h request List.mem_cons_self, hrest]

/-- A body holds the messages that were sent. -/
theorem ofBody_bodyOf {requests : List α}
    (h : ∀ request ∈ requests, Wire.decode α (Wire.encode request) = .ok request)
    (hlength : ∀ request ∈ requests, (Wire.encode request).length ≤ maxMessageBytes) :
    Feed.ofBody α (Client.bodyOf requests) true = ⟨requests, .closed⟩ := by
  have hbody : Client.bodyOf requests = (requests.map Wire.encode).flatMap frame :=
    (List.flatMap_map ..).symm
  have hframes : unframe (Client.bodyOf requests) = ⟨requests.map Wire.encode, .closed⟩ := by
    rw [hbody]
    apply unframe_frames
    intro message hmessage
    obtain ⟨request, hrequest, rfl⟩ := List.mem_map.1 hmessage
    exact hlength request hrequest
  rw [Feed.ofBody, hframes]
  exact Feed.decode_encode h .closed

/-- A body of one frame holds the message that was sent. -/
theorem single_ofBody (h : Wire.decode α (Wire.encode request) = .ok request)
    (hlength : (Wire.encode request).length ≤ maxMessageBytes) :
    (Feed.ofBody α (Client.bodyOf [request]) true).single = .ok request := by
  rw [ofBody_bodyOf (List.forall_mem_singleton.2 h) (List.forall_mem_singleton.2 hlength)]
  rfl

theorem unary_bodyOf (h : Wire.decode α (Wire.encode request) = .ok request)
    (hlength : (Wire.encode request).length ≤ maxMessageBytes) (service : Service)
    (handler : α → Except RpcError β × Service) :
    unary service (Client.bodyOf [request]) handler =
      (.answered (.ofResult (handler request).1), (handler request).2) := by
  rw [unary, single_ofBody h hlength]

end

/-! ## Time -/

section

variable {timeline : Timeline} {path : String} {body : Bytes} {reply : Feed Bytes}
  {service : Service} (hticket : timeline.calls.lookup timeline.ticket = none)
  (hanswer : handle timeline.service timeline.moment timeline.candidates path body true =
    (.answered reply, service))
include hticket hanswer

/-- A call that is answered at once, in a timeline where its ticket is new. -/
theorem Timeline.call_of_answered :
    (timeline.call path body).1 = some (timeline.elapsed, reply) ∧
      (timeline.call path body).2.service = service := by
  have hlookup (state : CallState) :
      (timeline.calls ++ [(timeline.ticket, state)]).lookup timeline.ticket = some state := by
    rw [List.lookup_append, hticket, Option.none_or, List.lookup_cons_self]
  simp only [call, launch, hanswer, stateOf, finish, patience, finishWithin, hlookup, and_self]

end

end Rpc

/-! ## Replies -/

namespace Client

open Rpc

section

variable {β : Type} [Wire.Message β] {reply : β}

theorem readSingle_ok (h : Wire.decode β (Wire.encode reply) = .ok reply) :
    readSingle β (.ofResult (.ok reply)) = .ok reply := by
  simp only [readSingle, readStream, Feed.ofResult, Feed.decode, h]

theorem readSingle_error (error : RpcError) :
    readSingle β (.ofResult (.error error : Except RpcError β)) = .error error.delivered := rfl

end

end Client

end Rehearsal
