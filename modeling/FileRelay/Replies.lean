import FileRelay.Batches
import FileRelay.ServerTexts

/-!
# What a client reads off an answer

The bodies of the answers of status 200 are the encodings of twelve records. `Reply` is one of them,
with its schema, its encoder and its decoder, and `readFrom_encode` says that the decoder gives back
what was encoded. Five of them can be too long for their decoders : the two that name a shard, the
table of the shards and the two that list missing chunks (`Reply.Fits`). All others are read in
full, and each of the five is if it fits.

`StoreCall.reply` is what a handler of a shard makes of the answer to its last call.
-/

namespace FileRelay

open NanoPack (Codec layout)
open Fallible

/-- A response of status 200 as its client reads it. -/
inductive Reply
  | hello (h : Hello)
  | registered (r : RegisterResponse)
  | resolved (r : ResolveResponse)
  | table (t : RoutingTable)
  | sent (r : SendMessageResponse)
  | received (r : ReceiveMessagesResponse)
  | acked (r : MessageAckResponse)
  | created (r : CreateFields)
  | chunkAck (a : ChunkAck)
  | chunk (r : ChunkDownloadResponse)
  | resumed (r : ResumeResponse)
  | completed (r : TransferCompleteResponse)

namespace Reply

def schema : Reply → UInt8
  | hello _ => 50
  | registered _ => 53
  | resolved _ => 55
  | table _ => 56
  | sent _ => 58
  | received _ => 60
  | acked _ => 62
  | created _ => 64
  | chunkAck _ => 66
  | chunk _ => 68
  | resumed _ => 70
  | completed _ => 72

/-- The body, as the handlers encode it. -/
def encode (np : Codec) : Reply → Wire Bytes
  | hello h => .ok (packed np h.fields)
  | registered r => marshalRegisterResponse np r
  | resolved r => marshalResolveResponse np r
  | table t => marshalRoutingTable np t
  | sent r => marshalSendMessageResponse np r.accepted r.queued r.msgID
  | received r => marshalReceiveMessagesResponse np r.messages r.consumed
  | acked r => marshalMessageAckResponse np r.acked r.remaining
  | created r => marshalTransferCreateResponse np r
  | chunkAck a => marshalChunkAck np a
  | chunk r => marshalChunkDownloadResponse np r
  | resumed r => marshalResumeResponse np r
  | completed r => marshalTransferCompleteResponse np r

/-- The response with a body. Only the table may be cached. -/
def response (body : Bytes) : Reply → Response
  | table _ => ⟨200, some 56, "public, max-age=60", none, body⟩
  | reply => writeProto reply.schema body

/-- The decoder of the schema makes this of the body. -/
def ReadFrom (np : Codec) (body : Bytes) : Reply → Prop
  | hello h => unmarshalHello np body = .ok h
  | registered r => unmarshalRegisterResponse np body = .ok r
  | resolved r => unmarshalResolveResponse np body = .ok r
  | table t => unmarshalRoutingTable np body = .ok t
  | sent r => unmarshalSendMessageResponse np body = .ok r
  | received r => unmarshalReceiveMessagesResponse np body = .ok r
  | acked r => unmarshalMessageAckResponse np body = .ok r
  | created r => unmarshalTransferCreateResponse np body =
      .ok ⟨copyArr 16 r.transferID, r.expiresAt, r.chunkSize, copyArr 32 r.downloadSecret⟩
  | chunkAck a => unmarshalChunkAck np body = .ok a
  | chunk r => unmarshalChunkDownloadResponse np body = .ok r
  | resumed r => unmarshalResumeResponse np body = .ok r
  | completed r => unmarshalTransferCompleteResponse np body = .ok r

/-- The body is within the limit of its decoder, where it need not be. -/
def Fits (body : Bytes) : Reply → Prop
  | registered _ | resolved _ => body.length ≤ 1024
  | table t => ShardURLs t.shards ∧ body.length ≤ 8192
  | chunkAck _ | resumed _ => body.length ≤ 8192
  | _ => True

theorem status_response (body : Bytes) (reply : Reply) : (reply.response body).status = 200 := by
  cases reply <;> rfl

theorem schema_response (body : Bytes) (reply : Reply) :
    (reply.response body).schema = some reply.schema := by
  cases reply <;> rfl

theorem body_response (body : Bytes) (reply : Reply) : (reply.response body).body = body := by
  cases reply <;> rfl

end Reply

/-- What a handler of a shard makes of the answer to its last call. -/
def StoreCall.reply : (c : StoreCall) → c.Answer → Option Reply
  | sendMessage _, .ok (id, queued) => some (.sent ⟨1, UInt32.ofNat queued, id.toList⟩)
  | receiveMessages _ _ _ _, .ok (msgs, consumed) =>
    some (.received ⟨msgs.map StoredMessage.received, consumed⟩)
  | ackMessages _ _ _ _, .ok (acked, remaining) =>
    some (.acked ⟨UInt32.ofNat acked, UInt32.ofNat remaining⟩)
  | createTransfer t, .ok (tid, ticket, exp) =>
    some (.created ⟨tid.toList, UInt64.ofInt exp, t.chunkSize, ticket⟩)
  | progress tid, .ok views => some (.chunkAck (chunkAckOf tid views.1))
  | getChunk tid _ _ index, .ok (payload, hash) => some (.chunk ⟨tid.toList, index, payload, hash⟩)
  | getChunkByTicket tid _ index, .ok (payload, hash) =>
    some (.chunk ⟨tid.toList, index, payload, hash⟩)
  | resume tid _ _, .ok views => some (.resumed (resumeResponseOf tid views.1))
  | resumeByTicket tid _, .ok views => some (.resumed (resumeResponseOf tid views.1))
  | completeTransfer _, .ok (isSealed, present, count) =>
    some (.completed ⟨if isSealed then 1 else 0, UInt32.ofNat count, UInt32.ofNat present⟩)
  | cancelTransfer _ _ _, .ok _ => some (.acked ⟨1, 0⟩)
  | _, _ => none

/-- The calls a handler makes last. -/
def StoreCall.final : StoreCall → Bool
  | mailboxExists _ | checkAndMarkReplay _ | putChunk _ | getTransfer _ => false
  | _ => true

theorem StoreCall.final_of_reply {c : StoreCall} {a : c.Answer} {reply : Reply}
    (h : c.reply a = some reply) : c.final = true := by
  cases c <;> first | rfl | cases h

/-! ## Encoding -/

section Encoders

variable (np : Codec)

theorem marshalSendMessageResponse_brief (accepted : UInt8) (queued : UInt32) (id : Bytes) :
    BriefWire (marshalSendMessageResponse np accepted queued id) :=
  (rejectIf_meets (by decide)).bind fun _ _ => encodeFields_brief np _

theorem batchLoop_brief : ∀ ms : List ReceivedMessage, BriefWire (batchLoop ms)
  | [] => trivial
  | m :: ms => by
    unfold batchLoop
    refine (rejectIf_meets (by decide)).bind fun _ _ => ?_
    refine (rejectIf_meets (by decide)).bind fun _ _ => ?_
    exact (batchLoop_brief ms).bind fun _ _ => trivial

theorem marshalReceiveMessagesResponse_brief (ms : List ReceivedMessage) (consumed : Bool) :
    BriefWire (marshalReceiveMessagesResponse np ms consumed) :=
  (rejectIf_meets (by decide)).bind fun _ _ =>
    (batchLoop_brief ms).bind fun _ _ => encodeFields_brief np _

theorem marshalTransferCreateResponse_brief (r : CreateFields) :
    BriefWire (marshalTransferCreateResponse np r) :=
  (rejectIf_meets (by decide)).bind fun _ _ =>
    (rejectIf_meets (by decide)).bind fun _ _ => encodeFields_brief np _

theorem marshalChunkAck_brief (a : ChunkAck) : BriefWire (marshalChunkAck np a) :=
  (rejectIf_meets (by decide)).bind fun _ _ => (rejectIf_meets (by decide)).bind fun _ _ =>
    (rejectIf_meets (by decide)).bind fun _ _ => encodeFields_brief np _

theorem marshalChunkDownloadResponse_brief (r : ChunkDownloadResponse) :
    BriefWire (marshalChunkDownloadResponse np r) :=
  (rejectIf_meets (by decide)).bind fun _ _ => encodeFields_brief np _

theorem marshalResumeResponse_brief (r : ResumeResponse) :
    BriefWire (marshalResumeResponse np r) :=
  (rejectIf_meets (by decide)).bind fun _ _ => encodeFields_brief np _

theorem marshalRegisterResponse_brief (r : RegisterResponse) :
    BriefWire (marshalRegisterResponse np r) :=
  (rejectIf_meets (by decide)).bind fun _ _ => encodeFields_brief np _

theorem marshalResolveResponse_brief (r : ResolveResponse) :
    BriefWire (marshalResolveResponse np r) :=
  (rejectIf_meets (by decide)).bind fun _ _ => encodeFields_brief np _

theorem marshalRoutingTable_brief (t : RoutingTable) : BriefWire (marshalRoutingTable np t) := by
  unfold marshalRoutingTable
  refine Meets.bind (Q := fun _ => True) ?_ fun _ _ => encodeFields_brief np _
  exact rejectIf_keeps (by decide) trivial

theorem handleTable_brief (H : Bytes → Digest) (sign : Bytes → Bytes) (version : UInt32)
    (pub : ByteArr 32) (urls : List Bytes) (now : ℤ) :
    BriefWire (handleTable H np sign version pub urls now) :=
  (rejectIf_meets (by decide)).bind fun _ _ => marshalRoutingTable_brief np _

/-- An encoder fails with a short text. -/
theorem Reply.encode_brief (reply : Reply) : BriefWire (reply.encode np) := by
  cases reply with
  | hello h => trivial
  | registered r => exact marshalRegisterResponse_brief np r
  | resolved r => exact marshalResolveResponse_brief np r
  | table t => exact marshalRoutingTable_brief np t
  | sent r => exact marshalSendMessageResponse_brief np ..
  | received r => exact marshalReceiveMessagesResponse_brief np ..
  | acked r => exact encodeFields_brief np _
  | created r => exact marshalTransferCreateResponse_brief np r
  | chunkAck a => exact marshalChunkAck_brief np a
  | chunk r => exact marshalChunkDownloadResponse_brief np r
  | resumed r => exact marshalResumeResponse_brief np r
  | completed r => exact encodeFields_brief np _

end Encoders

/-! ## Reading back -/

section ReadBack

variable {np : Codec} {body : Bytes}

theorem unmarshalReceiveMessagesResponse_marshal (hnp : np.Lawful) {msgs : List ReceivedMessage}
    {consumed : Bool} (hm : marshalReceiveMessagesResponse np msgs consumed = .ok body) :
    unmarshalReceiveMessagesResponse np body = .ok ⟨msgs, consumed⟩ := by
  obtain ⟨⟨⟩, hcount, hrest⟩ := wire_bind_eq_ok.mp hm
  obtain ⟨r, hloop, -⟩ := wire_bind_eq_ok.mp hrest
  have hd : Deliverable msgs :=
    ⟨not_lt.mp (rejectIf_eq_ok.mp hcount), ((batchLoop_eq_ok msgs r).mp hloop).1⟩
  obtain rfl := Except.ok.inj ((marshalReceiveMessagesResponse_eq hnp hd consumed).symm.trans hm)
  exact unmarshal_batchFields hnp hd consumed

theorem unmarshalChunkAck_marshal (hnp : np.Lawful) {a : ChunkAck}
    (hm : marshalChunkAck np a = .ok body) (hlen : body.length ≤ 8192) :
    unmarshalChunkAck np body = .ok a := by
  obtain ⟨⟨⟩, hid, hrest⟩ := wire_bind_eq_ok.mp hm
  obtain ⟨⟨⟩, hr, hrest⟩ := wire_bind_eq_ok.mp hrest
  obtain ⟨⟨⟩, -, hrest⟩ := wire_bind_eq_ok.mp hrest
  rw [rejectIf_eq_ok, not_not] at hid hr
  obtain rfl := Except.ok.inj ((encodeFields_eq hnp (by simp [ChunkAck.fields])).symm.trans hrest)
  rw [unmarshalChunkAck_eq hnp hid hr]
  exact checkBodyLen_map_eq_ok.mpr ⟨hlen, rfl⟩

theorem unmarshalResumeResponse_marshal (hnp : np.Lawful) {r : ResumeResponse}
    (hm : marshalResumeResponse np r = .ok body) (hlen : body.length ≤ 8192) :
    unmarshalResumeResponse np body = .ok r := by
  obtain ⟨⟨⟩, hok, hrest⟩ := wire_bind_eq_ok.mp hm
  rw [rejectIf_eq_ok, not_or, not_not] at hok
  obtain rfl :=
    Except.ok.inj ((encodeFields_eq hnp (by simp [ResumeResponse.fields])).symm.trans hrest)
  rw [unmarshalResumeResponse_eq hnp hok.1]
  exact checkBodyLen_map_eq_ok.mpr ⟨hlen, rfl⟩

theorem unmarshalHello_packed (hnp : np.Lawful) (h : Hello) :
    unmarshalHello np (packed np h.fields) = .ok h := by
  have hfs : h.fields.length ≤ 255 := by simp [Hello.fields]
  refine unmarshalHello_marshal hnp ?_
  unfold marshalHello packed
  rw [encodeFields_eq hnp hfs, hnp.bytes_eq _ hfs]

/-- The decoder gives back what was encoded. -/
theorem Reply.readFrom_encode (hnp : np.Lawful) {reply : Reply} (hbody : reply.encode np = .ok body)
    (hfit : reply.Fits body) : reply.ReadFrom np body := by
  cases reply with
  | hello h => exact Except.ok.inj hbody ▸ unmarshalHello_packed hnp h
  | registered r => exact unmarshalRegisterResponse_marshal hnp hbody hfit
  | resolved r => exact unmarshalResolveResponse_marshal hnp hbody hfit
  | table t => exact unmarshalRoutingTable_marshal hnp hfit.1 hbody hfit.2
  | sent r => exact unmarshalSendMessageResponse_marshal hnp hbody
  | received r => exact unmarshalReceiveMessagesResponse_marshal hnp hbody
  | acked r => exact unmarshalMessageAckResponse_marshal hnp hbody
  | created r => exact unmarshalTransferCreateResponse_marshal hnp hbody
  | chunkAck a => exact unmarshalChunkAck_marshal hnp hbody hfit
  | chunk r => exact unmarshalChunkDownloadResponse_marshal hnp hbody
  | resumed r => exact unmarshalResumeResponse_marshal hnp hbody hfit
  | completed r => exact unmarshalTransferCompleteResponse_marshal hnp hbody

end ReadBack

end FileRelay
