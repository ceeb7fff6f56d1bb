import Rehearsal.Message.Stateless
import Rehearsal.Proofs.Message.Operation

/-!
# Requests with a status on the wire

A request that asks for an outcome comes back from its bytes as it was sent, the message inside the
status included.
-/

namespace Rehearsal.Message

open Wire (Readable Record decode encode mergeAll mergeAll_append mergeAll_ofText)

theorem Timestamp.readable (timestamp : Timestamp) : Readable 0 timestamp :=
  .of_parts mk (fun _ _ => rfl) rfl (fun _ _ => rfl) (fun _ _ _ => rfl) timestamp.seconds
    timestamp.nanos

theorem TimeoutResponse.readable {content : String}
    (h : (Text.Utf8.encode content).length < 0x8000000000000000) :
    Readable 0 ({ content } : TimeoutResponse) :=
  .of_text mk (fun _ => rfl) rfl (fun _ _ => rfl) h

theorem OperationRequest.readable {name : String}
    (h : (Text.Utf8.encode name).length < 0x8000000000000000) :
    Readable 0 ({ name } : OperationRequest) :=
  .of_text mk (fun _ => rfl) rfl (fun _ _ => rfl) h

theorem EchoRequest.decode_encode {request : EchoRequest}
    (hcontent : (Text.Utf8.encode request.content).length < 0x8000000000000000)
    (herror : ∀ status ∈ request.error, Readable 0 status) :
    decode EchoRequest (encode request) = .ok request := by
  apply Wire.decode_encode
  · intro record hrecord
    rcases List.mem_append.1 hrecord with hrecord | hrecord
    · exact Record.writable_of_mem_ofBytes (by decide) (lt_size_of_fits hcontent) hrecord
    · exact Readable.writable_of_mem_ofOptional (by decide) herror hrecord
  · obtain ⟨content, error⟩ := request
    have hfirst : mergeAll (Wire.Message.merge Wire.maxDepth) (Wire.Message.empty : EchoRequest)
        (Record.ofText 1 content) = .ok { content } :=
      mergeAll_ofText (mk · none) (fun _ => rfl) rfl content
    have hsecond : mergeAll (Wire.Message.merge Wire.maxDepth) ({ content } : EchoRequest)
        (Record.ofOptional 2 error) = .ok ⟨content, error⟩ :=
      Readable.mergeAll_ofOptional herror (by decide) (mk content) (fun _ => rfl) rfl
    exact (mergeAll_append hfirst).trans hsecond

theorem SetupRetryRequest.decode_encode {request : SetupRetryRequest}
    (h : ∀ status ∈ request.responses, Readable 0 status) :
    decode SetupRetryRequest (encode request) = .ok request := by
  apply Wire.decode_encode
  · intro record hrecord
    exact Readable.writable_of_mem_ofRepeated (by decide) h hrecord
  · exact Readable.mergeAll_ofRepeated mk (by decide) (fun _ _ => rfl) h []

section

variable {α β γ δ : Type} [Wire.Message α] [Wire.Message β] [Wire.Message γ] [Wire.Message δ]

/-- A request of three messages, each of which may be absent, comes back as it was sent. -/
theorem decode_encode_of_three (make : Option β → Option γ → Option δ → α)
    {message first second third : String}
    (hrecords : ∀ a b c, Wire.Message.records (make a b c) =
      Record.ofOptional 1 a ++ Record.ofOptional 2 b ++ Record.ofOptional 3 c)
    (hempty : Wire.Message.empty = make none none none)
    (hfirst : ∀ payload, Wire.Message.merge Wire.maxDepth (make none none none) ⟨1, payload⟩ =
      Wire.inField message first do
        return make (← Wire.mergeOptional Wire.maxDepth none payload) none none)
    (hsecond : ∀ a payload, Wire.Message.merge Wire.maxDepth (make a none none) ⟨2, payload⟩ =
      Wire.inField message second do
        return make a (← Wire.mergeOptional Wire.maxDepth none payload) none)
    (hthird : ∀ a b payload, Wire.Message.merge Wire.maxDepth (make a b none) ⟨3, payload⟩ =
      Wire.inField message third do
        return make a b (← Wire.mergeOptional Wire.maxDepth none payload))
    {a : Option β} {b : Option γ} {c : Option δ} (ha : ∀ inner ∈ a, Readable 0 inner)
    (hb : ∀ inner ∈ b, Readable 0 inner) (hc : ∀ inner ∈ c, Readable 0 inner) :
    decode α (encode (make a b c)) = .ok (make a b c) := by
  apply Wire.decode_encode
  · intro record hrecord
    rw [hrecords] at hrecord
    rcases List.mem_append.1 hrecord with hrecord | hrecord
    · rcases List.mem_append.1 hrecord with hrecord | hrecord
      · exact Readable.writable_of_mem_ofOptional (by decide) ha hrecord
      · exact Readable.writable_of_mem_ofOptional (by decide) hb hrecord
    · exact Readable.writable_of_mem_ofOptional (by decide) hc hrecord
  · have hone := Readable.mergeAll_ofOptional ha (by decide) (make · none none) hfirst rfl
    have htwo := Readable.mergeAll_ofOptional hb (by decide) (make a · none) (hsecond a) rfl
    have hthree := Readable.mergeAll_ofOptional hc (by decide) (make a b) (hthird a b) rfl
    rw [hrecords, hempty, List.append_assoc, mergeAll_append hone, mergeAll_append htwo]
    exact hthree

end

theorem TimeoutRequest.decode_encode {request : TimeoutRequest}
    (herror : ∀ status ∈ request.error, Readable 0 status)
    (hsuccess : ∀ response ∈ request.success, Readable 0 response) :
    decode TimeoutRequest (encode request) = .ok request :=
  decode_encode_of_three mk (fun _ _ _ => rfl) rfl (fun _ => rfl) (fun _ _ => rfl)
    (fun _ _ _ => rfl) (fun delay _ => delay.readable) herror hsuccess

theorem LongrunningRequest.decode_encode {request : LongrunningRequest}
    (herror : ∀ status ∈ request.error, Readable 0 status)
    (hsuccess : ∀ response ∈ request.success, Readable 0 response) :
    decode LongrunningRequest (encode request) = .ok request :=
  decode_encode_of_three mk (fun _ _ _ => rfl) rfl (fun _ => rfl) (fun _ _ => rfl)
    (fun _ _ _ => rfl) (fun time _ => time.readable) herror hsuccess

end Rehearsal.Message
