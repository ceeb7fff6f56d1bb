import Rehearsal.Proofs.Rpc.Call
import Rehearsal.Rpc.Handler

/-!
# Failures that are asked for

A call that asks for a failure fails with the message it has sent and with the code of its number,
or as unknown if no code has that number (`RpcError.Tells`).  `Echo` and `Timeout` have then nothing
else to say, `Expand` and `Chat` have said what comes before, and `Collect` says nothing of it.
-/

namespace Rehearsal

open Rpc

/-- The error says what the status asks for: its message, and its number if that is the number of a
failure. -/
structure RpcError.Tells (error : RpcError) (status : Status) : Prop where
  message : error.message = status.message
  code : if 1 ≤ status.code ∧ status.code ≤ 16 then error.code.toInt32 = status.code
    else error.code = .unknown

theorem ServiceError.tells_toRpc {status : Status} (h : status.code ≠ 0) :
    (scripted status).toRpc.Tells status where
  message := rfl
  code := by
    show if _ then (Code.ofInt32 status.code).toInt32 = _ else Code.ofInt32 status.code = _
    split
    · rename_i hcode
      apply Code.toInt32_ofInt32
      exact ⟨Int32.le_trans (by decide) hcode.1, hcode.2⟩
    · rename_i hcode
      apply Code.ofInt32_of_not
      rintro ⟨hlow, hhigh⟩
      refine hcode ⟨?_, hhigh⟩
      rw [Int32.le_iff_toInt_le] at hlow ⊢
      have hne : status.code.toInt ≠ 0 := fun hzero => h (Int32.toInt_inj.1 hzero)
      have hlow' : 0 ≤ status.code.toInt := hlow
      show 1 ≤ status.code.toInt
      omega

namespace Rpc

open Message
open Wire (Bytes)

/-! ## Streams -/

/-- The reply gives some messages and then fails as a status asks for. -/
structure Feed.FailsAs (reply : Feed Bytes) (messages : List Bytes) (status : Status) : Prop where
  items : reply.items = messages
  ending : ∃ error, reply.ending = .failed error ∧ error.Tells status

theorem Feed.failsAs (status : Status) (h : status.code ≠ 0) (messages : List Bytes) :
    FailsAs ⟨messages, .failed (ServiceError.scripted status).toRpc⟩ messages status :=
  ⟨rfl, _, rfl, ServiceError.tells_toRpc h⟩

/-- The reply to a request that asks for no failure. -/
def plainReply (request : EchoRequest) : Bytes :=
  Wire.encode ({ content := request.content } : EchoResponse)

/-- The request asks for no failure. -/
def AsksNone (request : EchoRequest) : Prop := ∀ status ∈ request.error, status.code = 0

section

variable {request : EchoRequest} {status : StatusMessage}

theorem echo_of_asksNone (h : AsksNone request) : (toItem request).echo = .ok request.content := by
  have hcheck : check (configured request.error) = .ok () := by
    apply check_of_code_eq_zero
    intro asked hasked
    obtain ⟨status, hstatus, rfl⟩ := Option.map_eq_some_iff.1 hasked
    exact h status hstatus
  unfold EchoItem.echo toItem
  rw [hcheck]
  rfl

variable (herror : request.error = some status) (hcode : status.code ≠ 0)
include herror hcode

theorem check_configured :
    check (configured request.error) = .error (.scripted status.toStatus) := by
  rw [herror]
  exact check_of_code_ne_zero hcode

theorem echo_toItem : (toItem request).echo = .error (.scripted status.toStatus) := by
  unfold EchoItem.echo toItem
  rw [check_configured herror hcode]
  rfl

theorem chatItems_of_error {before : List EchoRequest} (h : ∀ other ∈ before, AsksNone other)
    (after : List EchoRequest) (ending : Ending) :
    chatItems ((before ++ request :: after).map toItem) ending =
      ⟨before.map (·.content), .failed (ServiceError.scripted status.toStatus).toRpc⟩ := by
  induction before with
  | nil =>
      simp only [List.nil_append, List.map_cons, chatItems, echo_toItem herror hcode, List.map_nil]
  | cons first rest ih =>
      have hfirst := echo_of_asksNone (h first List.mem_cons_self)
      have hrest := ih fun other hother => h other (List.mem_cons_of_mem _ hother)
      simp only [List.cons_append, List.map_cons, chatItems, hfirst, hrest]

theorem collectItems_of_error {before : List EchoRequest} (h : ∀ other ∈ before, AsksNone other)
    (after : List EchoRequest) (collector : Collector) :
    collectItems collector ((before ++ request :: after).map toItem) =
      .error (ServiceError.scripted status.toStatus).toRpc := by
  induction before generalizing collector with
  | nil =>
      simp only [List.nil_append, List.map_cons, collectItems, Collector.push,
        echo_toItem herror hcode]
      rfl
  | cons first rest ih =>
      have hfirst := echo_of_asksNone (h first List.mem_cons_self)
      have hrest := ih fun other hother => h other (List.mem_cons_of_mem _ hother)
      simp only [List.cons_append, List.map_cons, collectItems, Collector.push, hfirst]
      exact hrest _

end

/-! ## Calls -/

section

variable {body : Bytes} {halfClosed : Bool} {request : EchoRequest} {status : StatusMessage}
  (herror : request.error = some status) (hcode : status.code ≠ 0) (service : Service)
  (moment : Moment) (candidates : List String)
include herror hcode

theorem handle_echo_of_error (hrequest : (Feed.ofBody EchoRequest body true).single = .ok request) :
    ∃ reply, handle service moment candidates Method.echo.path body halfClosed =
      (.answered reply, service) ∧ reply.FailsAs [] status.toStatus := by
  refine ⟨_, ?_, Feed.failsAs status.toStatus hcode []⟩
  simp only [handle, Method.ofPath?_path, unary, hrequest, echo, echo_toItem herror hcode]
  rfl

theorem handle_expand_of_error
    (hrequest : (Feed.ofBody EchoRequest body true).single = .ok request) :
    ∃ reply, handle service moment candidates Method.expand.path body halfClosed =
        (.answered reply, service) ∧
      reply.FailsAs
        ((Text.words request.content).map fun content => Wire.encode ({ content } : EchoResponse))
        status.toStatus := by
  refine ⟨_, ?_, Feed.failsAs status.toStatus hcode _⟩
  have hcheck := check_configured herror hcode
  simp only [handle, Method.ofPath?_path, hrequest, expand, toItem, hcheck]
  rfl

variable {before after : List EchoRequest} (hbefore : ∀ other ∈ before, AsksNone other)
  (hitems : (Feed.ofBody EchoRequest body halfClosed).items = before ++ request :: after)
include hbefore hitems

theorem handle_chat_of_error :
    ∃ reply, handle service moment candidates Method.chat.path body halfClosed =
        (.answered reply, service) ∧
      reply.FailsAs (before.map plainReply) status.toStatus := by
  refine ⟨_, ?_, Feed.failsAs status.toStatus hcode _⟩
  have hchat := chatItems_of_error herror hcode hbefore after
    (Feed.ofBody EchoRequest body halfClosed).ending
  simp only [handle, Method.ofPath?_path, chat, Feed.map, hitems, hchat, replies, List.map_map]
  rfl

theorem handle_collect_of_error :
    ∃ reply, handle service moment candidates Method.collect.path body halfClosed =
      (.answered reply, service) ∧ reply.FailsAs [] status.toStatus := by
  refine ⟨_, ?_, Feed.failsAs status.toStatus hcode []⟩
  have hcollect := collectItems_of_error herror hcode hbefore after {}
  simp only [handle, Method.ofPath?_path, collect, Feed.map, hitems, hcollect]
  rfl

end

/-- A call with a delay that is accepted sleeps, and fails when it goes on, whatever has become of
the service. -/
theorem handle_timeout_of_error {body : Bytes} {halfClosed : Bool} {request : TimeoutRequest}
    {status : StatusMessage} {delay : Option Nat}
    (hrequest : (Feed.ofBody TimeoutRequest body true).single = .ok request)
    (hdelay : request.responseDelay.mapM (·.toDelay "response_delay") = .ok delay)
    (herror : request.error = some status) (hcode : status.code ≠ 0) (service : Service)
    (moment : Moment) (candidates : List String) :
    ∃ call, handle service moment candidates Method.timeout.path body halfClosed =
        (.asleep (moment.timer + timerDelay (delay.getD 0)) call, service) ∧
      ∀ later woken, ∃ reply, call.resume later woken = (.answered reply, later) ∧
        reply.FailsAs [] status.toStatus := by
  have hcheck : check (configured request.error) = .error (.scripted status.toStatus) := by
    rw [herror]
    exact check_of_code_ne_zero hcode
  refine ⟨.delayed (.error (ServiceError.scripted status.toStatus).toRpc), ?_,
    fun later woken => ⟨_, rfl, ?_⟩⟩
  · simp only [handle, Method.ofPath?_path, sleepy, hrequest, timeout, hdelay, hcheck]
  · exact Feed.failsAs status.toStatus hcode []

end Rpc

end Rehearsal
