import Rehearsal.Proofs.Message.Requests
import Rehearsal.Proofs.Rpc.Channel
import Rehearsal.Proofs.Rpc.Configured

/-!
# Echo, Collect and Chat agree

Three calls are given the same items: one by one, all for one reply, or all for a reply each.  If no
item asks for a failure, they say the same contents.  Otherwise they fail alike at the first that
does, and what comes after it is of no account (`streams_agree`).
-/

namespace Rehearsal.Rpc

open Message
open Producer (Attended)
open Wire (Bytes)

/-! ## Items without a failure -/

instance (request : EchoRequest) : Decidable (AsksNone request) :=
  inferInstanceAs (Decidable (∀ status ∈ request.error, status.code = 0))

variable {requests : List EchoRequest}

theorem exists_status_of_not_asksNone {request : EchoRequest} (h : ¬ AsksNone request) :
    ∃ status, request.error = some status ∧ status.code ≠ 0 := by
  cases herror : request.error with
  | none => exact absurd (by simp [AsksNone, herror]) h
  | some status =>
      refine ⟨status, rfl, fun hcode => h ?_⟩
      simp [AsksNone, herror, hcode]

/-- A stream in which some item asks for a failure, divided at the first that does. -/
theorem exists_first_failing (h : ¬ ∀ request ∈ requests, AsksNone request) :
    ∃ before request after, requests = before ++ request :: after ∧
      (∀ other ∈ before, AsksNone other) ∧ ¬ AsksNone request := by
  induction requests with
  | nil => simp at h
  | cons first rest ih =>
      by_cases hfirst : AsksNone first
      · obtain ⟨before, request, after, rfl, hbefore, hfails⟩ := ih (by simpa [hfirst] using h)
        exact ⟨first :: before, request, after, rfl, List.forall_mem_cons.2 ⟨hfirst, hbefore⟩,
          hfails⟩
      · exact ⟨[], first, rest, rfl, by simp, hfirst⟩

theorem chatItems_of_asksNone (h : ∀ request ∈ requests, AsksNone request) (ending : Ending) :
    chatItems (requests.map toItem) ending = ⟨requests.map (·.content), ending⟩ := by
  induction requests with
  | nil => rfl
  | cons first rest ih =>
      obtain ⟨hfirst, hrest⟩ := List.forall_mem_cons.1 h
      simp only [List.map_cons, chatItems, echo_of_asksNone hfirst, ih hrest]

theorem collectItems_of_asksNone (h : ∀ request ∈ requests, AsksNone request)
    (collector : Collector) :
    collectItems collector (requests.map toItem) =
      .ok ⟨collector.parts ++ requests.map (·.content)⟩ := by
  induction requests generalizing collector with
  | nil => simp [collectItems]
  | cons first rest ih =>
      obtain ⟨hfirst, hrest⟩ := List.forall_mem_cons.1 h
      simp only [List.map_cons, collectItems, Collector.push, echo_of_asksNone hfirst]
      rw [List.append_cons]
      exact ih hrest _

/-! ## The three calls -/

/-- The call gives a reply at any time and leaves the service as it is. -/
def Method.Gives (method : Method) (body : Bytes) (halfClosed : Bool) (reply : Feed Bytes) : Prop :=
  ∀ (service : Service) (moment : Moment) (candidates : List String),
    handle service moment candidates method.path body halfClosed = (.answered reply, service)

/-- A stream of contents as it is sent. -/
def written (contents : Feed String) : Feed Bytes :=
  contents.map fun content => Wire.encode ({ content } : EchoResponse)

/-- The reply of a call that gathers contents. -/
def gathered (result : Except RpcError String) : Feed Bytes :=
  .ofResult (result.map fun content => ({ content } : EchoResponse))

section

variable {body : Bytes} {halfClosed : Bool}

theorem gives_echo {request : EchoRequest}
    (h : (Feed.ofBody EchoRequest body true).single = .ok request) :
    Method.echo.Gives body halfClosed (.ofResult (echo request)) := by
  intro service moment candidates
  simp only [handle, Method.ofPath?_path, unary, h]

theorem gives_chat (body : Bytes) (halfClosed : Bool) :
    Method.chat.Gives body halfClosed
      (written (chat ((Feed.ofBody EchoRequest body halfClosed).map toItem))) := by
  intro service moment candidates
  simp only [handle, Method.ofPath?_path]
  rfl

theorem gives_collect {result : Except RpcError String}
    (h : collect ((Feed.ofBody EchoRequest body halfClosed).map toItem) = some result) :
    Method.collect.Gives body halfClosed (gathered result) := by
  intro service moment candidates
  simp only [handle, Method.ofPath?_path, h]
  rfl

end

/-- Items that ask for no failure are answered with their contents. -/
theorem succeed_alike (h : ∀ request ∈ requests, AsksNone request) :
    (∀ request ∈ requests, echo request = .ok { content := request.content }) ∧
      collect ⟨requests.map toItem, .closed⟩ =
        some (.ok (" ".intercalate (requests.map (·.content)))) ∧
      chat ⟨requests.map toItem, .closed⟩ = ⟨requests.map (·.content), .closed⟩ := by
  refine ⟨fun request hrequest => ?_, ?_, chatItems_of_asksNone h .closed⟩
  · rw [echo, echo_of_asksNone (h request hrequest)]
  · rw [collect, collectItems_of_asksNone h]
    rfl

/-- The first item that asks for a failure decides the end of the stream. -/
theorem fail_alike {before : List EchoRequest} {request : EchoRequest}
    (hbefore : ∀ other ∈ before, AsksNone other) (hfails : ¬ AsksNone request) :
    ∃ error, echo request = .error error ∧ ∀ after ending,
      collect ⟨(before ++ request :: after).map toItem, ending⟩ = some (.error error) ∧
        chat ⟨(before ++ request :: after).map toItem, ending⟩ =
          ⟨before.map (·.content), .failed error⟩ := by
  obtain ⟨status, herror, hcode⟩ := exists_status_of_not_asksNone hfails
  refine ⟨(ServiceError.scripted status.toStatus).toRpc, ?_, fun after ending => ⟨?_, ?_⟩⟩
  · rw [echo, echo_toItem herror hcode]
  · rw [collect, collectItems_of_error herror hcode hbefore]
  · exact chatItems_of_error herror hcode hbefore after ending

/-- Two bodies whose requests are the same up to the first that asks for a failure get the same
replies, whatever else they hold and however they end. -/
theorem gives_of_first_failing {before others : List EchoRequest} {request : EchoRequest}
    {error : RpcError} {other : Bytes} {halfClosed : Bool}
    (halike : ∀ after ending,
      collect ⟨(before ++ request :: after).map toItem, ending⟩ = some (.error error) ∧
        chat ⟨(before ++ request :: after).map toItem, ending⟩ =
          ⟨before.map (·.content), .failed error⟩)
    (hothers : (Feed.ofBody EchoRequest other halfClosed).items = before ++ request :: others) :
    Method.collect.Gives other halfClosed (gathered (.error error)) ∧
      Method.chat.Gives other halfClosed
        (written ⟨before.map (·.content), .failed error⟩) := by
  obtain ⟨hcollect, hchat⟩ := halike others (Feed.ofBody EchoRequest other halfClosed).ending
  rw [← hothers] at hcollect hchat
  refine ⟨gives_collect hcollect, ?_⟩
  rw [← hchat]
  exact gives_chat other halfClosed

/-- One stream of items, given whole to `Collect` and to `Chat`, and one by one to `Echo`.
`Collect` succeeds and `Chat` closes if and only if no item asks for a failure, and then all three
say the contents.  Otherwise all three fail alike at the first item that does, `Chat` after the
contents before it, and whatever comes after it changes nothing. -/
theorem streams_agree (requests : List EchoRequest) :
    let inbound : Feed EchoItem := ⟨requests.map toItem, .closed⟩
    ∃ collected, collect inbound = some collected ∧
      (∀ body, Feed.ofBody EchoRequest body true = ⟨requests, .closed⟩ →
        Method.collect.Gives body true (gathered collected) ∧
        Method.chat.Gives body true (written (chat inbound))) ∧
      (∀ request ∈ requests, ∀ single halfClosed,
        (Feed.ofBody EchoRequest single true).single = .ok request →
          Method.echo.Gives single halfClosed (.ofResult (echo request))) ∧
      (∀ capacity steps p, 0 < capacity → Attended (.chat inbound capacity) steps p → p.Stuck →
        p.received = (chat inbound).replies ∧ p.ended = true) ∧
      ((∃ text, collected = .ok text) ↔ ∀ request ∈ requests, AsksNone request) ∧
      ((chat inbound).ending = .closed ↔ ∀ request ∈ requests, AsksNone request) ∧
      ((∀ request ∈ requests, AsksNone request) →
        (∀ request ∈ requests, echo request = .ok { content := request.content }) ∧
        (chat inbound).items = requests.map (·.content) ∧
        collected = .ok (" ".intercalate (chat inbound).items)) ∧
      ((∃ request ∈ requests, ¬ AsksNone request) →
        ∃ before request after error, requests = before ++ request :: after ∧
          (∀ other ∈ before, AsksNone other) ∧ ¬ AsksNone request ∧
          echo request = .error error ∧ collected = .error error ∧
          chat inbound = ⟨before.map (·.content), .failed error⟩ ∧
          (∀ others ending,
            collect ⟨(before ++ request :: others).map toItem, ending⟩ = some collected ∧
              chat ⟨(before ++ request :: others).map toItem, ending⟩ = chat inbound) ∧
          ∀ other halfClosed others,
            (Feed.ofBody EchoRequest other halfClosed).items = before ++ request :: others →
              Method.collect.Gives other halfClosed (gathered collected) ∧
              Method.chat.Gives other halfClosed (written (chat inbound))) := by
  intro inbound
  have hsent : ∀ {collected}, collect inbound = some collected →
      ∀ body, Feed.ofBody EchoRequest body true = ⟨requests, .closed⟩ →
        Method.collect.Gives body true (gathered collected) ∧
        Method.chat.Gives body true (written (chat inbound)) := by
    intro collected hcollected body hbody
    have hinbound : (Feed.ofBody EchoRequest body true).map toItem = inbound :=
      congrArg (Feed.map toItem) hbody
    rw [← hinbound] at hcollected ⊢
    exact ⟨gives_collect hcollected, gives_chat body true⟩
  have hread : ∀ capacity steps p, 0 < capacity → Attended (.chat inbound capacity) steps p →
      p.Stuck → p.received = (chat inbound).replies ∧ p.ended = true := by
    intro capacity steps p room hrun stuck
    obtain ⟨hreceived, -, hended⟩ := chat_delivered room hrun stuck
    exact ⟨hreceived, hended (.inl Ending.noConfusion)⟩
  by_cases hplain : ∀ request ∈ requests, AsksNone request
  · obtain ⟨hechoes, hcollect, hitems⟩ := succeed_alike hplain
    refine ⟨_, hcollect, hsent hcollect, fun _ _ _ _ => gives_echo, hread,
      ⟨fun _ => hplain, fun _ => ⟨_, rfl⟩⟩, ⟨fun _ => hplain, fun _ => by rw [hitems]⟩,
      fun _ => ⟨hechoes, by rw [hitems], by rw [hitems]⟩, ?_⟩
    rintro ⟨request, hrequest, hfails⟩
    exact absurd (hplain request hrequest) hfails
  · obtain ⟨before, request, after, hrequests, hbefore, hfails⟩ := exists_first_failing hplain
    obtain ⟨error, herror, halike⟩ := fail_alike hbefore hfails
    obtain ⟨hcollect, hitems⟩ := halike after .closed
    rw [← hrequests] at hcollect hitems
    refine ⟨_, hcollect, hsent hcollect, fun _ _ _ _ => gives_echo, hread,
      ⟨?_, fun h => absurd h hplain⟩, ⟨?_, fun h => absurd h hplain⟩, fun h => absurd h hplain,
      fun _ => ⟨before, request, after, error, hrequests, hbefore, hfails, herror, rfl, hitems,
        hitems ▸ halike, ?_⟩⟩
    · rintro ⟨text, ⟨⟩⟩
    · intro hclosed
      rw [hitems] at hclosed
      cases hclosed
    · intro other halfClosed others hothers
      rw [hitems]
      exact gives_of_first_failing halike hothers

/-- Two contents, one of them empty, then an item that fails, then one that is not reached. -/
def interruptedRequests : List EchoRequest :=
  [{ error := some { message := "fine" } }, { content := "a b" },
    { content := "c", error := some { code := 5, message := "gone" } }, { content := "d" }]

/-- The same contents without the failure. -/
def plainRequests : List EchoRequest :=
  [{ error := some { message := "fine" } }, { content := "a b" }, {}]

theorem ofBody_echoRequests {requests : List EchoRequest}
    (hshort : ∀ request ∈ requests, (Text.Utf8.encode request.content).length < 100 ∧
      ∀ status ∈ request.error,
        (Text.Utf8.encode status.message).length < 100 ∧ status.details = [])
    (hlength : ∀ request ∈ requests, (Wire.encode request).length ≤ maxMessageBytes) :
    Feed.ofBody EchoRequest (Client.bodyOf requests) true = ⟨requests, .closed⟩ := by
  apply ofBody_bodyOf _ hlength
  intro request hrequest
  obtain ⟨hcontent, herror⟩ := hshort request hrequest
  apply EchoRequest.decode_encode (Nat.lt_trans hcontent (by decide))
  rintro ⟨code, message, details⟩ hstatus
  obtain ⟨hmessage, rfl⟩ := herror _ hstatus
  exact StatusMessage.readable (Nat.lt_of_lt_of_le hmessage (by decide))

theorem streams_agree_interrupted :
    (∃ collected, Method.collect.Gives (Client.bodyOf plainRequests) true (gathered collected) ∧
      collected = .ok " a b ") ∧
    ∃ collected, Method.collect.Gives (Client.bodyOf interruptedRequests) true
        (gathered collected) ∧
      collected = .error ⟨.notFound, "gone"⟩ ∧
      Method.chat.Gives (Client.bodyOf interruptedRequests) true
        (written ⟨["", "a b"], .failed ⟨.notFound, "gone"⟩⟩) := by
  constructor
  · have hsent : Feed.ofBody EchoRequest (Client.bodyOf plainRequests) true =
        ⟨plainRequests, .closed⟩ := ofBody_echoRequests (by decide) (by decide +kernel)
    obtain ⟨collected, -, hgives, -, -, -, -, hplain, -⟩ := streams_agree plainRequests
    obtain ⟨-, -, hcollected⟩ := hplain (by decide)
    exact ⟨collected, (hgives _ hsent).1, hcollected⟩
  · have hsent : Feed.ofBody EchoRequest (Client.bodyOf interruptedRequests) true =
        ⟨interruptedRequests, .closed⟩ := ofBody_echoRequests (by decide) (by decide +kernel)
    obtain ⟨collected, -, hgives, -, -, -, -, -, hfirst⟩ := streams_agree interruptedRequests
    obtain ⟨hcollect, hchat⟩ := hgives _ hsent
    have hitems : chat ⟨interruptedRequests.map toItem, .closed⟩ =
        ⟨["", "a b"], .failed ⟨.notFound, "gone"⟩⟩ := rfl
    obtain ⟨before, request, after, error, -, -, -, -, hcollected, hfailed, -⟩ :=
      hfirst (by decide)
    rw [hitems] at hfailed hchat
    cases congrArg Feed.ending hfailed
    exact ⟨collected, hcollect, hcollected, hchat⟩

end Rehearsal.Rpc
