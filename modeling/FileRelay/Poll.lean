import FileRelay.BridgeRPC
import FileRelay.Gather
import FileRelay.GoMap
import FileRelay.Messages

/-!
# Polling the attached mailboxes

`onPoll` of `bridge/main.go` asks the shard of each attached mailbox for a batch, in the
order in which Go ranges over the map, until it has as many frames as the poll asked for.
The shard deletes what it hands over, since the bridge never peeks. A fetch that fails
ends the poll with an error, and the frames of the fetches before it go with it.

`poll_delivers_iff` says when the reply carries what the fetches drained : exactly when no
fetch of the poll failed, or nothing was drained.
-/

namespace FileRelay

open NanoPack (Codec layout)
open Gather (gather answers items handedOver)

/-- `mailbox`. -/
structure AttachedMailbox where
  readSecret : Bytes
  shardURL : Bytes
deriving DecidableEq, Repr

/-- `bridge`. -/
structure Bridge where
  running : Bool
  mailboxes : GoMap Bytes AttachedMailbox

/-- What the shards answer to the `i`-th request of a poll, from the URL and the body : the
status and the body of the response, or the error of the HTTP client. -/
abbrev ShardPost := ℕ → Bytes → Bytes → Except BridgeError (ℕ × Bytes)

/-- `fetchBatch`. -/
def fetchBatch (np : Codec) (post : Bytes → Bytes → Except BridgeError (ℕ × Bytes))
    (shardURL mailboxID readSecret : Bytes) (limit : ℤ) : Except BridgeError (List Bytes) :=
  let limit := if limit ≤ 0 then 32 else limit
  let limit := if 32 < limit then 32 else limit
  match marshalReceiveMessages np ⟨mailboxID, readSecret, UInt8.ofNat limit.toNat, 0⟩ with
  | .error e => .error (.wire e)
  | .ok body =>
    match post shardURL body with
    | .error e => .error e
    | .ok (st, raw) =>
      if st ≠ 200 then
        match unmarshalError np raw with
        | .ok pe => .error (.remote "receive" pe.detail)
        | .error _ => .error (.http "receive" st)
      else
        match unmarshalReceiveMessagesResponse np raw with
        | .error e => .error (.wire e)
        | .ok res => .ok (res.messages.map ReceivedMessage.envelope)

/-- The mailboxes a poll asks, each with its id. -/
def pollTargets (b : Bridge) (order : b.mailboxes.RangeOrder) (req : PollReq) :
    List (Bytes × AttachedMailbox) :=
  if req.mailboxID.length = 16 then
    match b.mailboxes.lookup req.mailboxID with
    | some mb => [(req.mailboxID, mb)]
    | none => []
  else order.1.map fun e => (e.1, e.2)

/-- The fetch of one target, with `n` frames in hand. -/
def pollAsk (np : Codec) (post : ShardPost) (limit i n : ℕ) (t : Bytes × AttachedMailbox) :
    Except BridgeError (List Bytes) :=
  fetchBatch np (post i) t.2.shardURL t.1 t.2.readSecret ((limit : ℤ) - n)

/-- The opcode of a reply with its payload. -/
inductive PollReply
  | poll (body : Bytes)
  | error (code : ℕ) (e : BridgeError)
deriving DecidableEq, Repr

/-- `onPoll`. -/
def onPoll (np : Codec) (b : Bridge) (order : b.mailboxes.RangeOrder) (post : ShardPost)
    (payload : Bytes) : PollReply :=
  if b.running then
    match unmarshalPoll np payload with
    | .error e => .error errTransport (.wire e)
    | .ok req =>
      match gather (pollAsk np post req.limit.toNat) req.limit.toNat
          (pollTargets b order req) 0 [] with
      | .error e => .error errTransport e
      | .ok frames => .poll (marshalPollResult np frames)
  else .error errNotReady (.text "not started")

/-! ## What the reply carries -/

/-- The outcomes of the calls of `fetchBatch` that a poll makes, in order. -/
def pollFetches (np : Codec) (b : Bridge) (order : b.mailboxes.RangeOrder) (post : ShardPost)
    (payload : Bytes) : List (Except BridgeError (List Bytes)) :=
  if b.running then
    match unmarshalPoll np payload with
    | .error _ => []
    | .ok req => answers (pollAsk np post req.limit.toNat) req.limit.toNat
        (pollTargets b order req) 0 0
  else []

/-- The frames a reply carries. -/
def PollReply.frames (np : Codec) : PollReply → List Bytes
  | .poll body => (pollFrames np body).getD []
  | .error _ _ => []

/-- A fetch that succeeds has got a batch. -/
theorem fetchBatch_eq_ok {np : Codec} {post : Bytes → Bytes → Except BridgeError (ℕ × Bytes)}
    {shardURL mailboxID readSecret : Bytes} {limit : ℤ} {got : List Bytes}
    (h : fetchBatch np post shardURL mailboxID readSecret limit = .ok got) : ∃ n body raw res,
      marshalReceiveMessages np ⟨mailboxID, readSecret, n, 0⟩ = .ok body ∧
      post shardURL body = .ok (200, raw) ∧
      unmarshalReceiveMessagesResponse np raw = .ok res ∧
      got = res.messages.map ReceivedMessage.envelope := by
  unfold fetchBatch at h
  dsimp only at h
  split at h
  · cases h
  rename_i body hbody
  split at h
  · cases h
  rename_i st raw hpost
  split_ifs at h with hst
  · split at h <;> cases h
  split at h
  · cases h
  rename_i res hres
  cases h
  exact ⟨_, body, raw, res, hbody, by rw [hpost, not_not.mp hst], hres, rfl⟩

/-- A fetched batch has at most 32 frames of at most 32768 bytes. -/
theorem fetchBatch_bounds {np : Codec} {post : Bytes → Bytes → Except BridgeError (ℕ × Bytes)}
    {shardURL mailboxID readSecret : Bytes} {limit : ℤ} {got : List Bytes}
    (h : fetchBatch np post shardURL mailboxID readSecret limit = .ok got) :
    got.length ≤ maxBatchMessages ∧ ∀ f ∈ got, f.length ≤ maxMessageBytes := by
  obtain ⟨_, _, _, res, -, -, hres, rfl⟩ := fetchBatch_eq_ok h
  obtain ⟨hlen, hall⟩ := batch_bounds hres
  refine ⟨by rwa [List.length_map], fun f hf => ?_⟩
  obtain ⟨m, hm, rfl⟩ := List.mem_map.mp hf
  exact (hall m hm).2

/-- The frames of a poll fit the counters of the reply. -/
theorem pollFrames_reply {np : Codec} (hnp : np.Lawful) {post : ShardPost} {limit : ℕ}
    (hlimit : limit < 256) {targets : List (Bytes × AttachedMailbox)} {frames : List Bytes}
    (h : gather (pollAsk np post limit) limit targets 0 [] = .ok frames) :
    pollFrames np (marshalPollResult np frames) = some frames := by
  have hcases := @Gather.gather_cases _ _ _ (pollAsk np post limit) limit targets 0 []
  rw [List.length_nil] at hcases
  rcases hcases with ⟨-, hall⟩ | ⟨e, -, hfail⟩
  · rw [h, List.nil_append] at hall
    cases hall
    have hcount := @Gather.length_handedOver_lt _ _ _ (pollAsk np post limit) limit
      maxBatchMessages (fun _ _ _ _ hask => (fetchBatch_bounds hask).1) targets 0 0
      (by unfold maxBatchMessages; omega)
    refine pollFrames_marshalPollResult hnp ?_ fun f hf => ?_
    · unfold maxBatchMessages at hcount
      omega
    · have hf := Gather.forall_handedOver (P := fun f : Bytes => f.length ≤ maxMessageBytes)
        (fun _ _ _ _ hask => (fetchBatch_bounds hask).2) targets 0 0 f hf
      unfold maxMessageBytes at hf
      omega
  · rw [h] at hfail
    cases hfail

/-- The reply to a poll carries the drained frames, in order and once each, exactly when no
fetch of the poll failed or nothing was drained. -/
theorem poll_delivers_iff {np : Codec} (hnp : np.Lawful) (b : Bridge)
    (order : b.mailboxes.RangeOrder) (post : ShardPost) (payload : Bytes) :
    (onPoll np b order post payload).frames np =
        handedOver (pollFetches np b order post payload) ↔
      (∀ e, .error e ∉ pollFetches np b order post payload) ∨
        handedOver (pollFetches np b order post payload) = [] := by
  unfold onPoll pollFetches
  split_ifs
  · cases unmarshalPoll np payload with
    | error e => exact ⟨fun _ => .inr rfl, fun _ => rfl⟩
    | ok req =>
      dsimp only
      rw [← Gather.gather_delivers_iff]
      cases h : gather (pollAsk np post req.limit.toNat) req.limit.toNat
          (pollTargets b order req) 0 [] with
      | error e => exact Iff.rfl
      | ok frames =>
        have hframes := pollFrames_reply hnp req.limit.toNat_lt h
        dsimp only [PollReply.frames]
        rw [hframes]
        exact Iff.rfl
  · exact ⟨fun _ => .inr rfl, fun _ => rfl⟩

/-! ## Two mailboxes and a shard that goes down -/

/-- The fields of a batch of one message. -/
def oneMessage : List NanoPack.Field :=
  [⟨1, putU32 1⟩, ⟨2, List.replicate 16 5⟩, ⟨3, putU32 1 ++ [7]⟩, ⟨4, [1]⟩]

def pollSampleID (k : UInt8) : Bytes := List.replicate 16 k

def pollSampleMailbox : AttachedMailbox := ⟨List.replicate 32 9, []⟩

def pollSampleBridge : Bridge :=
  ⟨true, (Finmap.insert (pollSampleID 1) pollSampleMailbox ∅).insert (pollSampleID 2)
    pollSampleMailbox⟩

def pollSampleOrder : pollSampleBridge.mailboxes.RangeOrder :=
  ⟨[⟨pollSampleID 1, pollSampleMailbox⟩, ⟨pollSampleID 2, pollSampleMailbox⟩], by decide⟩

/-- The first `up` requests get a batch of one message, the connection fails for the rest. -/
def pollSamplePost (up : ℕ) : ShardPost := fun i _ _ =>
  if i < up then .ok (200, layout oneMessage) else .error (.system "connection refused")

theorem unmarshal_oneMessage :
    unmarshalReceiveMessagesResponse NanoPack.reference (layout oneMessage) =
      .ok ⟨[⟨List.replicate 16 5, [7]⟩], true⟩ := by
  have hlen : (layout oneMessage).length = 35 := by
    rw [NanoPack.length_layout]
    simp [oneMessage, NanoPack.fieldSize, NanoPack.length_uleb128_of_lt]
  have hfields : unmarshal NanoPack.reference (maxBatchMessages * maxMessageBytes + 4096)
      BatchFields.set ⟨0, [], [], false⟩ (fun _ => .ok ()) (layout oneMessage) =
      .ok ⟨1, List.replicate 16 5, putU32 1 ++ [7], true⟩ := by
    have hset : oneMessage.foldlM BatchFields.set ⟨0, [], [], false⟩ =
        .ok ⟨1, List.replicate 16 5, putU32 1 ++ [7], true⟩ := rfl
    rw [unmarshal_layout NanoPack.reference_lawful (by decide) hset rfl, hlen]
    rfl
  unfold unmarshalReceiveMessagesResponse
  rw [hfields]
  rfl

theorem pollAsk_sample (up limit i n : ℕ) (k : UInt8) :
    pollAsk NanoPack.reference (pollSamplePost up) limit i n (pollSampleID k, pollSampleMailbox) =
      if i < up then .ok [[7]] else .error (.system "connection refused") := by
  have hbody : ∀ l : UInt8, ∃ body, marshalReceiveMessages NanoPack.reference
      ⟨pollSampleID k, List.replicate 32 9, l, 0⟩ = .ok body := by
    intro l
    have hvalid : validateReceiveMessages ⟨pollSampleID k, List.replicate 32 9, l, 0⟩ = .ok () :=
      rfl
    unfold marshalReceiveMessages
    rw [hvalid, ok_bind]
    exact ⟨_, encodeFields_eq NanoPack.reference_lawful (by simp)⟩
  unfold pollAsk fetchBatch pollSampleMailbox
  dsimp only
  obtain ⟨body, hbody⟩ := hbody (UInt8.ofNat
    (if 32 < (if (limit : ℤ) - n ≤ 0 then 32 else (limit : ℤ) - n) then 32
      else if (limit : ℤ) - n ≤ 0 then 32 else (limit : ℤ) - n).toNat)
  rw [hbody]
  unfold pollSamplePost
  split_ifs
  · dsimp only
    rw [if_neg (by simp), unmarshal_oneMessage]
    rfl
  · rfl

/-- An empty request asks all mailboxes for 32 frames. -/
theorem unmarshalPoll_empty :
    unmarshalPoll NanoPack.reference (layout []) = .ok ⟨32, []⟩ := by
  unfold unmarshalPoll decodeRPC
  rw [decodeFields_eq NanoPack.reference_lawful (by simp)]
  rfl

theorem pollTargets_sample : pollTargets pollSampleBridge pollSampleOrder ⟨32, []⟩ =
    [(pollSampleID 1, pollSampleMailbox), (pollSampleID 2, pollSampleMailbox)] :=
  rfl

theorem pollFetches_sample (up : ℕ) :
    pollFetches NanoPack.reference pollSampleBridge pollSampleOrder (pollSamplePost up)
      (layout []) =
      if up = 0 then [.error (.system "connection refused")]
      else if up = 1 then [.ok [[7]], .error (.system "connection refused")]
      else [.ok [[7]], .ok [[7]]] := by
  have hrunning : pollSampleBridge.running = true := rfl
  unfold pollFetches
  rw [if_pos hrunning, unmarshalPoll_empty]
  dsimp only
  rw [pollTargets_sample]
  rcases up with _ | _ | up
  · simp [answers, pollAsk_sample]
  · simp [answers, pollAsk_sample]
  · simp [answers, pollAsk_sample]

/-- With both shards up the reply carries the two frames. -/
theorem poll_delivers_sample :
    (onPoll NanoPack.reference pollSampleBridge pollSampleOrder (pollSamplePost 2)
      (layout [])).frames NanoPack.reference = [[7], [7]] := by
  have h := (poll_delivers_iff NanoPack.reference_lawful pollSampleBridge pollSampleOrder
    (pollSamplePost 2) (layout [])).mpr
  rw [pollFetches_sample] at h
  exact h (.inl (by simp))

/-- The second shard is down : the message the first one drained is not in the reply. -/
theorem failed_fetch_drops_frames :
    onPoll NanoPack.reference pollSampleBridge pollSampleOrder (pollSamplePost 1)
        (layout []) = .error errTransport (.system "connection refused") ∧
      handedOver (pollFetches NanoPack.reference pollSampleBridge pollSampleOrder
        (pollSamplePost 1) (layout [])) = [[7]] ∧
      (onPoll NanoPack.reference pollSampleBridge pollSampleOrder (pollSamplePost 1)
        (layout [])).frames NanoPack.reference ≠
        handedOver (pollFetches NanoPack.reference pollSampleBridge pollSampleOrder
          (pollSamplePost 1) (layout [])) := by
  have hrunning : pollSampleBridge.running = true := rfl
  have hreply : onPoll NanoPack.reference pollSampleBridge pollSampleOrder (pollSamplePost 1)
      (layout []) = .error errTransport (.system "connection refused") := by
    unfold onPoll
    rw [if_pos hrunning, unmarshalPoll_empty]
    dsimp only
    rw [pollTargets_sample]
    simp [gather, pollAsk_sample]
  rw [hreply, pollFetches_sample]
  exact ⟨rfl, rfl, by decide⟩

end FileRelay
