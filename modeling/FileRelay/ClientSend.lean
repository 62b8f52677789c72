import FileRelay.Queue
import FileRelay.ShardHandlers
import FileRelay.Skew

/-!
# A message sent with the client adapter

`Adapter.SendMessage` of `client/adapter.go`, joined to `handleSend` of the shard it posts to.
The adapter takes the timestamp of the request from `nowMillis` of `client/time.go`, which
returns a constant, and it discards the body of the response, which names the stored message,
and draws an id of its own.

So a send names the message it stored if and only if the clock of the shard is within the skew
of the constant, the two drawn ids are the same and no other message has this id
(`adapter_names_stored_iff`).
-/

namespace FileRelay

open NanoPack (Field Codec layout)

/-! ## The response -/

/-- `httpStatusFor`. -/
def httpStatusFor : ErrCode → ℕ
  | .invalidRequest | .chunkInvalid | .hashMismatch | .expiredRequest | .batchTooLarge => 400
  | .authFailed => 401
  | .replayDetected | .chunkConflict | .transferConflict => 409
  | .mailboxNotFound | .transferNotFound => 404
  | .mailboxExpired | .transferExpired => 410
  | .messageTooLarge | .payloadTooLarge | .chunkOutOfRange => 413
  | .quotaExceeded | .rateLimited => 429
  | .storageUnavailable | .serverUnavailable => 503
  | .unsupportedProtocol => 400

/-- `AsProtocolError`. -/
def asProtocolError : WireError → ProtocolError
  | .protocol e => e
  | .nanopack _ => ⟨.invalidRequest, "invalid request", 0⟩

/-- The status `writeProto` or `writeError` sends. -/
def responseStatus : Wire Bytes → ℕ
  | .ok _ => 200
  | .error e => httpStatusFor (asProtocolError e).code

theorem httpStatusFor_ne (c : ErrCode) : httpStatusFor c ≠ 200 := by
  cases c <;> decide

theorem responseStatus_error (e : WireError) : responseStatus (.error e) ≠ 200 :=
  httpStatusFor_ne _

/-! ## The adapter -/

variable (np : Codec) (H : Bytes → Digest) (verify : Verifier) (limits : RateLimits)

/-- A key pair : what `ed25519.Sign` returns has the length of a signature and verifies. -/
structure Signer where
  pub : ByteArr 32
  sign : Bytes → Bytes
  length_sign : ∀ m, (sign m).length = 64
  verified : ∀ m, verify pub.toList m (sign m) = true

/-- `nowMillis` : `nowMillisFunc` returns `testNow`, and nothing sets either of them. -/
def nowMillis : ℤ := 1750000000000

variable {verify} in
/-- The request `Adapter.SendMessage` builds. -/
def adapterRequest (key : Signer verify) (mailboxID : ID) (payload : Bytes) (nonce : ByteArr 16) :
    SendMessage :=
  let ts := UInt64.ofInt nowMillis
  { mailboxID := mailboxID.toList
    envelope := payload
    senderPub := key.pub.toList
    timestamp := ts
    nonce := nonce.toList
    signature := key.sign (canonicalMsgSend H key.pub mailboxID ts nonce payload)
    ttlHintSec := UInt32.ofInt msgTTLSeconds
    burn := 1 }

/-- What `Adapter.SendMessage` returns besides an id. -/
inductive AdapterError
  | wire (e : WireError)
  | sendFailed (status : ℕ)

/-- `Adapter.SendMessage`, over a connection that carries the request to the shard and the
response back. The shard reads its clock as `now`. `id` is what `NewID` draws at the shard, and
`draw` what the adapter draws after the response. -/
def adapterSendMessage (key : Signer verify) (mailboxID : ID) (payload : Bytes)
    (nonce : ByteArr 16) (s : ShardHandler) (now : ℤ) (ip : Bytes) (id draw : ID) :
    ShardHandler × Except AdapterError ID :=
  if payload.length = 0 ∨ maxMessageBytes < payload.length then
    (s, .error (.wire (.protocol ⟨.messageTooLarge, "", 0⟩)))
  else
    match marshalSendMessage np (adapterRequest H key mailboxID payload nonce) with
    | .error e => (s, .error (.wire e))
    | .ok body =>
      let r := handleSend np H verify limits s now now now ip body id
      if responseStatus r.2 ≠ 200 then (r.1, .error (.sendFailed (responseStatus r.2)))
      else (r.1, .ok draw)

/-! ## Sends that should succeed -/

variable {np H verify limits}

/-- The message can be sent : its size is allowed, the mailbox is live, has room and is read
with `secret`, no limit is hit and the nonce is not seen. -/
structure Sendable (H : Bytes → Digest) (limits : RateLimits) (key : Signer verify)
    (mailboxID : ID) (payload : Bytes) (nonce : ByteArr 16) (s : ShardHandler) (now : ℤ)
    (ip secret : Bytes) (mb : MailboxData) : Prop where
  size : 1 ≤ payload.length ∧ payload.length ≤ maxMessageBytes
  found : s.store.mailboxes.lookup mailboxID = some mb
  unexpired : now < mb.expiresAt
  count : (live now mb.messages).length < maxQueuedMessages
  bytes : envelopeBytes (live now mb.messages) + payload.length ≤ maxStoredBytesPerMailbox
  reads : secretMatches H mb.readSecretHash secret = true
  allowed : (allowAll now s.limiter
    (sendSlots limits (adapterRequest H key mailboxID payload nonce) ip)).2 = true
  fresh : (checkAndMarkReplay s.store now
    (replayKey H replayDomainMsg key.pub.toList nonce.toList)).2 = false

section

variable {key : Signer verify} {mailboxID : ID} {payload : Bytes} {nonce : ByteArr 16}
  {s : ShardHandler} {now : ℤ} {ip secret : Bytes} {mb : MailboxData}

theorem validate_adapterRequest
    (h : Sendable H limits key mailboxID payload nonce s now ip secret mb) :
    validateSendMessage (adapterRequest H key mailboxID payload nonce) = .ok () :=
  validateSendMessage_eq_ok.mpr ⟨mailboxID.toList_length,
    ⟨Nat.one_le_iff_ne_zero.mp h.size.1, h.size.2⟩, key.pub.toList_length, nonce.toList_length,
    key.length_sign _⟩

/-- The request is signed, so the handler judges it by its timestamp alone. -/
theorem authSend_adapterRequest
    (h : Sendable H limits key mailboxID payload nonce s now ip secret mb) :
    authSend H verify (adapterRequest H key mailboxID payload nonce) now =
      checkSkew (UInt64.ofInt nowMillis) now := by
  have hv := validate_adapterRequest h
  obtain ⟨hmid, -, hpub, hnonce, hsig⟩ := validateSendMessage_eq_ok.mp hv
  have hsigned : verify (adapterRequest H key mailboxID payload nonce).senderPub
      (canonicalMsgSend H (copyArr 32 key.pub.toList) (copyArr 16 mailboxID.toList)
        (UInt64.ofInt nowMillis) (copyArr 16 nonce.toList) payload)
      (adapterRequest H key mailboxID payload nonce).signature = true := by
    rw [copyArr_self, copyArr_self, copyArr_self]
    exact key.verified _
  have hskew := verifyMsgSend_signed H verify now hpub hsig hsigned
  unfold authSend
  rw [hv]
  simp only [failIf, hmid, hpub, hnonce, ne_eq, not_true_eq_false, if_false]
  exact hskew

/-- The bytes the adapter posts are read back as the request. -/
theorem marshal_adapterRequest (hnp : np.Lawful)
    (h : Sendable H limits key mailboxID payload nonce s now ip secret mb) :
    ∃ body, marshalSendMessage np (adapterRequest H key mailboxID payload nonce) = .ok body ∧
      readBody body maxRequestBytes = .ok body ∧
      unmarshalSendMessage np body = .ok (adapterRequest H key mailboxID payload nonce) := by
  have hm : marshalSendMessage np (adapterRequest H key mailboxID payload nonce) = .ok _ :=
    (sendMessageCodec_lawful.marshal_eq_ok hnp).mpr
      ⟨wireCheck_eq_ok.mpr (validate_adapterRequest h), rfl⟩
  obtain ⟨-, -, hread, hun⟩ := (sendMessageCodec_lawful.agree hnp).round_trip _ _ trivial hm
  exact ⟨_, hm, hread, hun⟩

/-- A request the shard finds outside the window fails. -/
theorem adapterSendMessage_refused (hnp : np.Lawful)
    (h : Sendable H limits key mailboxID payload nonce s now ip secret mb) {e : ProtocolError}
    (hskew : checkSkew (UInt64.ofInt nowMillis) now = .error e) (id draw : ID) :
    ∃ status, adapterSendMessage np H verify limits key mailboxID payload nonce s now ip id draw =
      (s, .error (.sendFailed status)) := by
  obtain ⟨body, hm, hread, hun⟩ := marshal_adapterRequest hnp h
  have hauth := (authSend_adapterRequest h).trans hskew
  have hsend : handleSend np H verify limits s now now now ip body id =
      (s, .error (.protocol e)) := by
    unfold handleSend
    simp only [hread, hun, hauth]
  unfold adapterSendMessage
  rw [if_neg (by have := h.size; omega), hm]
  simp only [hsend]
  rw [if_pos (responseStatus_error _)]
  exact ⟨_, rfl⟩

/-- A request within the window is stored under the id the shard draws, and the adapter returns
its own draw. -/
theorem adapterSendMessage_sent (hnp : np.Lawful)
    (h : Sendable H limits key mailboxID payload nonce s now ip secret mb)
    (hskew : checkSkew (UInt64.ofInt nowMillis) now = .ok ()) (id draw : ID) :
    ∃ s', adapterSendMessage np H verify limits key mailboxID payload nonce s now ip id draw =
        (s', .ok draw) ∧
      s'.store.mailboxes.lookup mailboxID = some ((pruneMessagesLocked mb now).enqueue
        (adapterRequest H key mailboxID payload nonce) id now) := by
  obtain ⟨body, hm, hread, hun⟩ := marshal_adapterRequest hnp h
  have hauth := (authSend_adapterRequest h).trans hskew
  have hv := validate_adapterRequest h
  have hmid : copyArr 16 (adapterRequest H key mailboxID payload nonce).mailboxID = mailboxID :=
    copyArr_self mailboxID
  rcases hreplay : checkAndMarkReplay s.store now
    (replayKey H replayDomainMsg key.pub.toList nonce.toList) with ⟨store, seen⟩
  obtain rfl : seen = false := by
    have := h.fresh
    rwa [hreplay] at this
  have hstore : store.mailboxes = s.store.mailboxes := by
    rw [show store = _ from (congrArg Prod.fst hreplay).symm]
    rfl
  rcases hallow : allowAll now s.limiter
    (sendSlots limits (adapterRequest H key mailboxID payload nonce) ip) with ⟨buckets, room⟩
  obtain rfl : room = true := by
    have := h.allowed
    rwa [hallow] at this
  have hacc := sendMessage_accepted (s := store) id hv (by rw [hmid, hstore]; exact h.found)
    h.unexpired h.count h.bytes
  have hresp : ∀ queued, ∃ resp, marshalSendMessageResponse np 1 queued id.toList = .ok resp := by
    intro queued
    unfold marshalSendMessageResponse
    rw [rejectIf_neg (not_not.mpr id.toList_length), ok_bind, encodeFields_eq hnp (by simp)]
    exact ⟨_, rfl⟩
  obtain ⟨resp, hresp⟩ := hresp (UInt32.ofNat ((pruneMessagesLocked mb now).enqueue
    (adapterRequest H key mailboxID payload nonce) id now).messages.length)
  have hkey : replayKey H replayDomainMsg (adapterRequest H key mailboxID payload nonce).senderPub
      (adapterRequest H key mailboxID payload nonce).nonce =
      replayKey H replayDomainMsg key.pub.toList nonce.toList := rfl
  have hsend : handleSend np H verify limits s now now now ip body id =
      (⟨store.setMailbox mailboxID ((pruneMessagesLocked mb now).enqueue
        (adapterRequest H key mailboxID payload nonce) id now), buckets⟩, .ok resp) := by
    unfold handleSend
    simp only [hread, hun, hauth, hkey, hreplay, hallow, hacc, hresp, hmid]
  refine ⟨⟨store.setMailbox mailboxID ((pruneMessagesLocked mb now).enqueue
    (adapterRequest H key mailboxID payload nonce) id now), buckets⟩, ?_, ?_⟩
  · unfold adapterSendMessage
    rw [if_neg (by have := h.size; omega), hm]
    simp only [hsend]
    rfl
  · rw [lookup_setMailbox, if_pos rfl]

/-! ## The name of the stored message -/

variable (np H verify limits key mailboxID payload nonce s now ip secret) in
/-- The send succeeds, the mailbox holds the envelope under the id that is returned, and an ack
of this id takes away that message and no other. -/
def NamesStored (id draw : ID) : Prop :=
  ∃ s' rid m,
    adapterSendMessage np H verify limits key mailboxID payload nonce s now ip id draw =
      (s', .ok rid) ∧
    messagesOf s'.store mailboxID = live now (messagesOf s.store mailboxID) ++ [m] ∧
    m.id = rid ∧ m.envelope = payload ∧
    ∀ now', now ≤ now' → now' < m.expiresAt →
      (∃ remaining, (ackMessages H s'.store now' mailboxID secret [rid.toList] ackConsumed).2 =
        .ok (1, remaining)) ∧
      messagesOf (ackMessages H s'.store now' mailboxID secret [rid.toList] ackConsumed).1
        mailboxID = live now' (messagesOf s.store mailboxID)

/-- An ack of a message that has just been stored. -/
theorem ack_stored {st : MemStore} {msg : SendMessage} {id : ID}
    (hfits : ClockFits mailboxTTLSeconds now)
    (hst : st.mailboxes.lookup mailboxID =
      some ((pruneMessagesLocked mb now).enqueue msg id now))
    (hs : secretMatches H mb.readSecretHash secret = true) {now' : ℤ} (hle : now ≤ now')
    (hlt : now' < (newMessage msg id now).expiresAt) :
    (ackMessages H st now' mailboxID secret [id.toList] ackConsumed).2 =
      .ok (((live now' mb.messages).filter fun m => decide (m.id = id)).length + 1,
        ((live now' mb.messages).filter fun m => !decide (m.id = id)).length) ∧
    messagesOf (ackMessages H st now' mailboxID secret [id.toList] ackConsumed).1 mailboxID =
      (live now' mb.messages).filter fun m => !decide (m.id = id) := by
  have hexp : now' < ((pruneMessagesLocked mb now).enqueue msg id now).expiresAt := by
    refine lt_of_lt_of_le hlt ?_
    change deadline now msgTTLSeconds ≤ deadline now mailboxTTLSeconds
    rw [hfits.deadline_eq (by decide) (by decide), hfits.deadline_eq (by decide) le_rfl]
    unfold msgTTLSeconds mailboxTTLSeconds
    omega
  have hmsgs : live now' ((pruneMessagesLocked mb now).enqueue msg id now).messages =
      live now' mb.messages ++ [newMessage msg id now] := by
    change live now' ((pruneMessagesLocked mb now).messages ++ [newMessage msg id now]) = _
    rw [messages_prune, live_append, live_live hle]
    refine congrArg _ (List.filter_eq_self.mpr fun m hm => ?_)
    rw [List.mem_singleton.mp hm]
    exact decide_eq_true hlt
  have hwant : [id.toList].map (copyArr 16) = [id] := by
    rw [List.map_singleton, copyArr_self]
  have hlen : ∀ raw ∈ [id.toList], raw.length = 16 := by
    intro raw hraw
    rw [List.mem_singleton.mp hraw]
    exact id.toList_length
  rw [ackMessages_acked (Or.inr rfl) (by simp) (by simp [maxBatchMessages]) hlen hst hexp hs,
    messagesOf_setMailbox, messages_afterAck, if_pos rfl, hmsgs, hwant]
  simp [newMessage]

/-- The constant timestamp passes the skew test within the window only. -/
theorem checkSkew_nowMillis (h0 : 0 ≤ now) (h1 : now < 2 ^ 63) :
    checkSkew (UInt64.ofInt nowMillis) now = .ok () ↔ |now - nowMillis| ≤ maxClockSkewMillis := by
  have hts : ((UInt64.ofInt nowMillis).toNat : ℤ) = nowMillis := by decide
  rw [checkSkew_eq_ok_iff h0 h1, InWindow, hts]
  refine or_iff_left ?_
  unfold nowMillis maxClockSkewMillis
  omega

/-- No deadline wraps at a reading that passes it. -/
theorem clockFits_of_checkSkew (h0 : 0 ≤ now) (h1 : now < 2 ^ 63)
    (hskew : checkSkew (UInt64.ofInt nowMillis) now = .ok ()) :
    ClockFits mailboxTTLSeconds now := by
  have hwindow := (abs_le.mp ((checkSkew_nowMillis h0 h1).mp hskew)).2
  unfold ClockFits mailboxTTLSeconds
  unfold nowMillis maxClockSkewMillis at hwindow
  omega

/-- Whenever a message can be sent, the send names the stored message exactly if the clock of
the shard is within the skew of the constant the adapter stamps, the adapter draws the id the
shard has drawn, and no unexpired message of the mailbox has this id. -/
theorem adapter_names_stored_iff (hnp : np.Lawful)
    (h : Sendable H limits key mailboxID payload nonce s now ip secret mb) (h0 : 0 ≤ now)
    (h1 : now < 2 ^ 63) (id draw : ID) :
    NamesStored np H verify limits key mailboxID payload nonce s now ip secret id draw ↔
      |now - nowMillis| ≤ maxClockSkewMillis ∧ draw = id ∧
        ∀ m ∈ live now (messagesOf s.store mailboxID), m.id ≠ id := by
  rw [← checkSkew_nowMillis h0 h1, messagesOf_some h.found]
  rcases hskew : checkSkew (UInt64.ofInt nowMillis) now with e | ⟨⟩
  · obtain ⟨status, hrefused⟩ := adapterSendMessage_refused hnp h hskew id draw
    refine ⟨fun ⟨s', rid, m, hsent, _⟩ => ?_, fun hc => nomatch hc.1⟩
    rw [hrefused] at hsent
    cases hsent
  · obtain ⟨s₁, hsent, hstored⟩ := adapterSendMessage_sent hnp h hskew id draw
    have hmsgs := messagesOf_enqueue hstored
    have hfits := clockFits_of_checkSkew h0 h1 hskew
    constructor
    · rintro ⟨s', rid, m, hsent', hm, hid, -, hack⟩
      rw [hsent] at hsent'
      cases hsent'
      rw [hmsgs, messagesOf_some h.found, List.append_cancel_left_eq, List.singleton_inj] at hm
      subst hm
      obtain rfl : id = draw := hid
      have hlt : now <
          (newMessage (adapterRequest H key mailboxID payload nonce) id now).expiresAt := by
        change now < deadline now msgTTLSeconds
        rw [hfits.deadline_eq (by decide) (by decide)]
        exact Int.lt_add_of_pos_right _ (by decide)
      refine ⟨rfl, rfl, fun m hm hid => ?_⟩
      obtain ⟨-, hleft⟩ := hack now (le_refl _) hlt
      rw [(ack_stored hfits hstored h.reads (le_refl _) hlt).2, messagesOf_some h.found] at hleft
      have := List.filter_eq_self.mp hleft m hm
      simp [hid] at this
    · rintro ⟨-, rfl, hfresh⟩
      refine ⟨s₁, draw, newMessage (adapterRequest H key mailboxID payload nonce) draw now, hsent,
        ?_, rfl, rfl, fun now' hle hlt => ?_⟩
      · rw [hmsgs, messagesOf_some h.found]
      obtain ⟨hacked, hleft⟩ := ack_stored hfits hstored h.reads hle hlt
      have hfresh' : ∀ m ∈ live now' mb.messages, m.id ≠ draw := by
        intro m hm
        rw [← live_live hle] at hm
        exact hfresh m ((live_sublist now' _).subset hm)
      have hnone : (live now' mb.messages).filter (fun m => decide (m.id = draw)) = [] :=
        List.filter_eq_nil_iff.mpr fun m hm => by simpa using hfresh' m hm
      have hall : (live now' mb.messages).filter (fun m => !decide (m.id = draw)) =
          live now' mb.messages :=
        List.filter_eq_self.mpr fun m hm => by simpa using hfresh' m hm
      rw [hnone] at hacked
      refine ⟨⟨_, hacked⟩, ?_⟩
      rw [hleft, hall, messagesOf_some h.found]

end

/-! ### A sample shard -/

def sampleSigner : Signer fun _ _ _ => true where
  pub := copyArr 32 (List.replicate 32 2)
  sign _ := List.replicate 64 0
  length_sign _ := rfl
  verified _ := rfl

def sampleMailboxID : ID := copyArr 16 (List.replicate 16 1)

def sampleSecret : Bytes := List.replicate 32 4

def sampleNonce : ByteArr 16 := copyArr 16 (List.replicate 16 3)

/-- A shard with one mailbox, registered at the time the adapter believes in. -/
def sampleShard : ShardHandler where
  store := runStore (copyArr 32)
    [⟨nowMillis, .createMailbox sampleMailboxID (copyArr 32 sampleSecret)⟩]
  limiter := ∅

theorem sendable_sampleShard {now : ℤ} (hnow : now < mailboxDeadline nowMillis) :
    Sendable (copyArr 32) ⟨0, 0, 0, 0⟩ sampleSigner sampleMailboxID [7] sampleNonce sampleShard now
      [] sampleSecret ⟨copyArr 32 sampleSecret, [], mailboxDeadline nowMillis, 0⟩ where
  size := by decide
  found := rfl
  unexpired := hnow
  count := show 0 < maxQueuedMessages by decide
  bytes := show 1 ≤ maxStoredBytesPerMailbox by decide
  reads := by decide
  allowed := rfl
  fresh := rfl

/-- At the time the adapter believes in, and if both sides draw the same id. -/
theorem adapter_names_stored_iff_sampleShard :
    NamesStored NanoPack.reference (copyArr 32) (fun _ _ _ => true) ⟨0, 0, 0, 0⟩ sampleSigner
      sampleMailboxID [7] sampleNonce sampleShard nowMillis [] sampleSecret (copyArr 16 [9])
      (copyArr 16 [9]) :=
  (adapter_names_stored_iff NanoPack.reference_lawful (sendable_sampleShard (by decide))
    (by decide) (by decide) _ _).mpr ⟨by decide, rfl, fun m hm => absurd hm List.not_mem_nil⟩

/-- A minute later the shard refuses the message. At the right time it stores the message under
the id it draws, and the adapter returns another, under which nothing is stored. -/
theorem adapter_misnames_stored :
    (Sendable (copyArr 32) ⟨0, 0, 0, 0⟩ sampleSigner sampleMailboxID [7] sampleNonce sampleShard
        (nowMillis + 60000) [] sampleSecret
        ⟨copyArr 32 sampleSecret, [], mailboxDeadline nowMillis, 0⟩ ∧
      ∃ status, adapterSendMessage NanoPack.reference (copyArr 32) (fun _ _ _ => true)
        ⟨0, 0, 0, 0⟩ sampleSigner sampleMailboxID [7] sampleNonce sampleShard (nowMillis + 60000) []
        (copyArr 16 [9]) (copyArr 16 [9]) = (sampleShard, .error (.sendFailed status))) ∧
    ∃ s', adapterSendMessage NanoPack.reference (copyArr 32) (fun _ _ _ => true) ⟨0, 0, 0, 0⟩
        sampleSigner sampleMailboxID [7] sampleNonce sampleShard nowMillis [] (copyArr 16 [9])
        (copyArr 16 [8]) = (s', .ok (copyArr 16 [8])) ∧
      (messagesOf s'.store sampleMailboxID).map StoredMessage.id = [copyArr 16 [9]] := by
  have hlate := sendable_sampleShard (show nowMillis + 60000 < _ by decide)
  have hsound := sendable_sampleShard (show nowMillis < _ by decide)
  refine ⟨⟨hlate, ?_⟩, ?_⟩
  · exact adapterSendMessage_refused NanoPack.reference_lawful hlate
      (e := ⟨.expiredRequest, "timestamp outside skew window", 0⟩) (by decide) _ _
  · obtain ⟨s', hsent, hstored⟩ := adapterSendMessage_sent NanoPack.reference_lawful hsound
      (by decide) (copyArr 16 [9]) (copyArr 16 [8])
    refine ⟨s', hsent, ?_⟩
    rw [messagesOf_enqueue hstored]
    rfl

end FileRelay
