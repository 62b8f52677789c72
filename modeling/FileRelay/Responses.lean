import FileRelay.ClientSend
import FileRelay.ErrorTexts
import FileRelay.RoutingTable

/-!
# Responses

What the servers answer. The encoders of the response bodies, schemas 50, 51, 62, 64, 68 and 72 of
`protocol`, the decoders of schemas 50, 58 and 62, and `writeProto` and `writeError` of
`server/shard/handler.go` and `server/router/handler.go`. The other encoders and decoders stand
with the handlers and clients that use them.

The `_marshal` lemmas say that a decoder reads the bodies its encoder writes. Two of the bodies, of
a registration and of a resolved mailbox, carry a URL of any length, and are read up to the limit
of their decoder. The two error writers differ. The one of the shard fills in the time to wait
after a refusal by the limiter, and knows a status for every code. `unmarshalError_errorBody` is
what they have in common : a client reads the error off the body.
-/

namespace FileRelay

open NanoPack (Field Codec layout)

theorem unmarshal_layout_of_le {α : Type} {np : Codec} (hnp : np.Lawful) {limit : ℕ}
    {set : α → Field → Wire α} {zero a : α} {check : α → Wire Unit} {fs : List Field}
    (hfs : fs.length ≤ 255) (hset : fs.foldlM set zero = .ok a) (hcheck : check a = .ok ())
    (hlen : (layout fs).length ≤ limit) :
    unmarshal np limit set zero check (layout fs) = .ok a := by
  rw [unmarshal_layout hnp hfs hset hcheck]
  exact checkBodyLen_map_eq_ok.mpr ⟨hlen, rfl⟩

@[simp] theorem fieldU8_singleton (v : UInt8) : fieldU8 [v] = .ok v := rfl

/-! ## Schema 50 -/

/-- `Hello`. -/
structure Hello where
  major : UInt8
  minor : UInt8
  nowMS : UInt64
deriving DecidableEq, Repr

def Hello.fields (h : Hello) : List Field :=
  [⟨1, [h.major]⟩, ⟨2, [h.minor]⟩, ⟨3, putU64 h.nowMS⟩]

/-- `MarshalHello`. -/
def marshalHello (np : Codec) (h : Hello) : Wire Bytes :=
  encodeFields np h.fields

def Hello.set (out : Hello) (f : Field) : Wire Hello :=
  if f.id = 1 then (fieldU8 f.data).map fun v => { out with major := v }
  else if f.id = 2 then (fieldU8 f.data).map fun v => { out with minor := v }
  else if f.id = 3 then (fieldU64 f.data).map fun v => { out with nowMS := v }
  else .ok out

/-- `UnmarshalHello`. -/
def unmarshalHello (np : Codec) (body : Bytes) : Wire Hello :=
  unmarshal np 64 Hello.set ⟨0, 0, 0⟩ (fun _ => .ok ()) body

theorem unmarshalHello_marshal {np : Codec} (hnp : np.Lawful) {h : Hello} {body : Bytes}
    (hm : marshalHello np h = .ok body) : unmarshalHello np body = .ok h := by
  have hfs : h.fields.length ≤ 255 := by simp [Hello.fields]
  obtain rfl := Except.ok.inj ((encodeFields_eq hnp hfs).symm.trans hm)
  refine unmarshal_layout_of_le hnp hfs ?_ rfl ?_
  · have hu := fieldU64_putU64 h.nowMS
    simp only [Hello.fields, List.foldlM_cons, List.foldlM_nil, Hello.set, hu, fieldU8_singleton]
    rfl
  · refine NanoPack.length_layout_le (by decide) ?_
    simp [Hello.fields, length_putU64]

/-! ## Schema 51 -/

/-- `ProtocolError` on the wire. -/
def ProtocolError.wire (e : ProtocolError) : ErrorMsg where
  code := UInt32.ofNat e.code.number
  detail := utf8 e.detail
  retryAfter := UInt32.ofNat e.retryAfter

/-- The detail and the time to wait are left out if there are none. -/
def ErrorMsg.fields (e : ErrorMsg) : List Field :=
  [⟨1, putU32 e.code⟩] ++ (if e.detail ≠ [] then [⟨2, e.detail⟩] else []) ++
    (if e.retryAfter ≠ 0 then [⟨3, putU32 e.retryAfter⟩] else [])

/-- `MarshalError`. -/
def marshalErrorMsg (np : Codec) (e : ErrorMsg) : Wire Bytes :=
  encodeFields np e.fields

theorem ErrorMsg.length_fields (e : ErrorMsg) : e.fields.length ≤ 3 := by
  unfold ErrorMsg.fields
  split_ifs <;> simp

theorem ErrorMsg.foldlM_fields (e : ErrorMsg) :
    e.fields.foldlM ErrorMsg.set ⟨0, [], 0⟩ = .ok e := by
  obtain ⟨code, detail, retryAfter⟩ := e
  have hc := fieldU32_putU32 code
  have hr := fieldU32_putU32 retryAfter
  unfold ErrorMsg.fields
  by_cases hd : detail = [] <;> by_cases h0 : retryAfter = 0 <;>
    simp only [hd, h0, ne_eq, not_true_eq_false, not_false_eq_true, if_true, if_false,
      List.append_nil, List.cons_append, List.nil_append, List.foldlM_cons, List.foldlM_nil,
      ErrorMsg.set, hc, hr] <;> rfl

theorem unmarshalError_marshal {np : Codec} (hnp : np.Lawful) {e : ErrorMsg} {body : Bytes}
    (hcode : e.code ≠ 0) (hdetail : e.detail.length ≤ 4000)
    (hm : marshalErrorMsg np e = .ok body) : unmarshalError np body = .ok e := by
  have hfs : e.fields.length ≤ 255 := e.length_fields.trans (by decide)
  obtain rfl := Except.ok.inj ((encodeFields_eq hnp hfs).symm.trans hm)
  refine unmarshal_layout_of_le hnp hfs e.foldlM_fields (rejectIf_neg hcode ..) ?_
  refine NanoPack.length_layout_le (by decide) ?_
  unfold ErrorMsg.fields
  split_ifs <;> simp [length_putU32] <;> omega

/-! ## Schema 58 -/

/-- `SendMessageResponse`. -/
structure SendMessageResponse where
  accepted : UInt8
  queued : UInt32
  msgID : Bytes
deriving DecidableEq, Repr

def SendMessageResponse.set (out : SendMessageResponse) (f : Field) : Wire SendMessageResponse :=
  if f.id = 1 then (fieldU8 f.data).map fun v => { out with accepted := v }
  else if f.id = 2 then (fieldU32 f.data).map fun v => { out with queued := v }
  else if f.id = 3 then .ok { out with msgID := f.data }
  else .ok out

/-- `UnmarshalSendMessageResponse`. -/
def unmarshalSendMessageResponse (np : Codec) (body : Bytes) : Wire SendMessageResponse :=
  unmarshal np 256 SendMessageResponse.set ⟨0, 0, []⟩
    (fun out => rejectIf (out.msgID.length ≠ 16) .invalidRequest "msg_id must be 16 bytes") body

theorem unmarshalSendMessageResponse_marshal {np : Codec} (hnp : np.Lawful) {accepted : UInt8}
    {queued : UInt32} {msgID body : Bytes}
    (hm : marshalSendMessageResponse np accepted queued msgID = .ok body) :
    unmarshalSendMessageResponse np body = .ok ⟨accepted, queued, msgID⟩ := by
  obtain ⟨⟨⟩, hid, hm⟩ := wire_bind_eq_ok.mp hm
  rw [rejectIf_eq_ok, not_not] at hid
  obtain rfl := Except.ok.inj ((encodeFields_eq hnp (by simp)).symm.trans hm)
  refine unmarshal_layout_of_le hnp (by simp) ?_ (rejectIf_neg (not_not.mpr hid) ..) ?_
  · have hq := fieldU32_putU32 queued
    simp only [List.foldlM_cons, List.foldlM_nil, SendMessageResponse.set, hq, fieldU8_singleton]
    rfl
  · refine NanoPack.length_layout_le (by decide) ?_
    simp [length_putU32, hid]

/-! ## Schema 62 -/

/-- `MessageAckResponse`. -/
structure MessageAckResponse where
  acked : UInt32
  remaining : UInt32
deriving DecidableEq, Repr

/-- `MarshalMessageAckResponse`. -/
def marshalMessageAckResponse (np : Codec) (acked remaining : UInt32) : Wire Bytes :=
  encodeFields np [⟨1, putU32 acked⟩, ⟨2, putU32 remaining⟩]

def MessageAckResponse.set (out : MessageAckResponse) (f : Field) : Wire MessageAckResponse :=
  if f.id = 1 then (fieldU32 f.data).map fun v => { out with acked := v }
  else if f.id = 2 then (fieldU32 f.data).map fun v => { out with remaining := v }
  else .ok out

/-- `UnmarshalMessageAckResponse`. -/
def unmarshalMessageAckResponse (np : Codec) (body : Bytes) : Wire MessageAckResponse :=
  unmarshal np 64 MessageAckResponse.set ⟨0, 0⟩ (fun _ => .ok ()) body

theorem unmarshalMessageAckResponse_marshal {np : Codec} (hnp : np.Lawful)
    {acked remaining : UInt32} {body : Bytes}
    (hm : marshalMessageAckResponse np acked remaining = .ok body) :
    unmarshalMessageAckResponse np body = .ok ⟨acked, remaining⟩ := by
  obtain rfl := Except.ok.inj ((encodeFields_eq hnp (by simp)).symm.trans hm)
  refine unmarshal_layout_of_le hnp (by simp) ?_ rfl ?_
  · have ha := fieldU32_putU32 acked
    have hr := fieldU32_putU32 remaining
    simp only [List.foldlM_cons, List.foldlM_nil, MessageAckResponse.set, ha, hr]
    rfl
  · refine NanoPack.length_layout_le (by decide) ?_
    simp [length_putU32]

/-! ## Schema 64 -/

/-- `MarshalTransferCreateResponse`. -/
def marshalTransferCreateResponse (np : Codec) (r : CreateFields) : Wire Bytes := do
  rejectIf (r.transferID.length ≠ 16) .invalidRequest "transfer_id must be 16 bytes"
  rejectIf (r.downloadSecret.length ≠ 32) .invalidRequest "download_secret must be 32 bytes"
  encodeFields np [⟨1, r.transferID⟩, ⟨2, putU64 r.expiresAt⟩, ⟨3, putU32 r.chunkSize⟩,
    ⟨4, r.downloadSecret⟩]

theorem unmarshalTransferCreateResponse_marshal {np : Codec} (hnp : np.Lawful) {r : CreateFields}
    {body : Bytes} (hm : marshalTransferCreateResponse np r = .ok body) :
    unmarshalTransferCreateResponse np body = .ok
      ⟨copyArr 16 r.transferID, r.expiresAt, r.chunkSize, copyArr 32 r.downloadSecret⟩ := by
  obtain ⟨⟨⟩, hid, hm⟩ := wire_bind_eq_ok.mp hm
  obtain ⟨⟨⟩, hsecret, hm⟩ := wire_bind_eq_ok.mp hm
  rw [rejectIf_eq_ok, not_not] at hid hsecret
  obtain rfl := Except.ok.inj ((encodeFields_eq hnp (by simp)).symm.trans hm)
  have hread : unmarshal np 128 CreateFields.set ⟨[], 0, 0, []⟩ CreateFields.check
      (layout [⟨1, r.transferID⟩, ⟨2, putU64 r.expiresAt⟩, ⟨3, putU32 r.chunkSize⟩,
        ⟨4, r.downloadSecret⟩]) = .ok r := by
    refine unmarshal_layout_of_le hnp (by simp) ?_ ?_ ?_
    · have he := fieldU64_putU64 r.expiresAt
      have hc := fieldU32_putU32 r.chunkSize
      simp only [List.foldlM_cons, List.foldlM_nil, CreateFields.set, he, hc]
      rfl
    · unfold CreateFields.check
      rw [rejectIf_neg (not_not.mpr hid), ok_bind, rejectIf_neg (not_not.mpr hsecret)]
    · refine NanoPack.length_layout_le (by decide) ?_
      simp [length_putU32, length_putU64, hid, hsecret]
  unfold unmarshalTransferCreateResponse
  rw [hread]
  rfl

/-! ## Schema 68 -/

def ChunkDownloadResponse.check (r : ChunkDownloadResponse) : Wire Unit :=
  rejectIf (r.transferID.length ≠ 16 ∨ r.payload.length = 0 ∨ maxChunkBytes < r.payload.length ∨
    r.chunkHash.length ≠ 32) .invalidRequest "bad chunk response"

/-- `MarshalChunkDownloadResponse`. -/
def marshalChunkDownloadResponse (np : Codec) (r : ChunkDownloadResponse) : Wire Bytes := do
  r.check
  encodeFields np [⟨1, r.transferID⟩, ⟨2, putU32 r.index⟩, ⟨3, r.payload⟩, ⟨4, r.chunkHash⟩]

theorem unmarshalChunkDownloadResponse_marshal {np : Codec} (hnp : np.Lawful)
    {r : ChunkDownloadResponse} {body : Bytes}
    (hm : marshalChunkDownloadResponse np r = .ok body) :
    unmarshalChunkDownloadResponse np body = .ok r := by
  obtain ⟨⟨⟩, hcheck, hm⟩ := wire_bind_eq_ok.mp hm
  obtain rfl := Except.ok.inj ((encodeFields_eq hnp (by simp)).symm.trans hm)
  refine unmarshal_layout_of_le hnp (by simp) ?_ hcheck ?_
  · have hi := fieldU32_putU32 r.index
    simp only [List.foldlM_cons, List.foldlM_nil, ChunkDownloadResponse.set, hi]
    rfl
  · unfold ChunkDownloadResponse.check at hcheck
    rw [rejectIf_eq_ok] at hcheck
    push Not at hcheck
    obtain ⟨hid, -, hpayload, hhash⟩ := hcheck
    refine NanoPack.length_layout_le (by decide) ?_
    simp only [List.map_cons, List.map_nil, List.sum_cons, List.sum_nil, length_putU32, hid, hhash]
    omega

/-! ## Schema 72 -/

/-- `MarshalTransferCompleteResponse`. -/
def marshalTransferCompleteResponse (np : Codec) (r : TransferCompleteResponse) : Wire Bytes :=
  encodeFields np [⟨1, [r.isSealed]⟩, ⟨2, putU32 r.chunkCount⟩, ⟨3, putU32 r.present⟩]

theorem unmarshalTransferCompleteResponse_marshal {np : Codec} (hnp : np.Lawful)
    {r : TransferCompleteResponse} {body : Bytes}
    (hm : marshalTransferCompleteResponse np r = .ok body) :
    unmarshalTransferCompleteResponse np body = .ok r := by
  obtain rfl := Except.ok.inj ((encodeFields_eq hnp (by simp)).symm.trans hm)
  refine unmarshal_layout_of_le hnp (by simp) ?_ rfl ?_
  · have hc := fieldU32_putU32 r.chunkCount
    have hp := fieldU32_putU32 r.present
    simp only [List.foldlM_cons, List.foldlM_nil, TransferCompleteResponse.set, hc, hp,
      fieldU8_singleton]
    rfl
  · refine NanoPack.length_layout_le (by decide) ?_
    simp [length_putU32]

/-! ## Schemas 53 and 55 -/

theorem unmarshalRegisterResponse_marshal {np : Codec} (hnp : np.Lawful) {r : RegisterResponse}
    {body : Bytes} (hm : marshalRegisterResponse np r = .ok body) (hlen : body.length ≤ 1024) :
    unmarshalRegisterResponse np body = .ok r := by
  obtain ⟨⟨⟩, hcheck, hm⟩ := wire_bind_eq_ok.mp hm
  obtain rfl := Except.ok.inj ((encodeFields_eq hnp (by simp)).symm.trans hm)
  refine unmarshal_layout_of_le hnp (by simp) ?_ hcheck hlen
  have hv := fieldU32_putU32 r.tableVersion
  have he := fieldU64_putU64 r.expiresAt
  simp only [List.foldlM_cons, List.foldlM_nil, RegisterResponse.set, hv, he]
  rfl

theorem unmarshalResolveResponse_marshal {np : Codec} (hnp : np.Lawful) {r : ResolveResponse}
    {body : Bytes} (hm : marshalResolveResponse np r = .ok body) (hlen : body.length ≤ 1024) :
    unmarshalResolveResponse np body = .ok r := by
  obtain ⟨⟨⟩, hcheck, hm⟩ := wire_bind_eq_ok.mp hm
  obtain rfl := Except.ok.inj ((encodeFields_eq hnp (by simp)).symm.trans hm)
  refine unmarshal_layout_of_le hnp (by simp) ?_ hcheck hlen
  have he := fieldU32_putU32 r.era
  have hv := fieldU32_putU32 r.tableVersion
  simp only [List.foldlM_cons, List.foldlM_nil, ResolveResponse.set, he, hv]
  rfl

/-! ## Writing a response -/

/-- An HTTP response. Every response that has a schema has the content type of NanoPack and the
version of the protocol in its other headers. -/
structure Response where
  status : ℕ
  schema : Option UInt8
  cacheControl : String
  location : Option Bytes
  body : Bytes
deriving DecidableEq, Repr

/-- `writeProto`. -/
def writeProto (schema : UInt8) (body : Bytes) : Response :=
  ⟨200, some schema, "no-store", none, body⟩

/-- The body of an error, which is empty if it cannot be encoded. -/
def errorBody (np : Codec) (e : ProtocolError) : Bytes :=
  packed np e.wire.fields

/-- `httpStatusFor` of the router. It does not know the codes of the store. -/
def Router.httpStatusFor : ErrCode → ℕ
  | .invalidRequest | .expiredRequest | .batchTooLarge => 400
  | .authFailed => 401
  | .replayDetected => 409
  | .mailboxNotFound | .transferNotFound => 404
  | .mailboxExpired | .transferExpired => 410
  | .payloadTooLarge | .messageTooLarge => 413
  | .quotaExceeded | .rateLimited => 429
  | _ => 400

/-- `writeError` of the shard. -/
def Shard.writeError (np : Codec) (e : ProtocolError) : Response :=
  if e.code = .rateLimited ∧ e.retryAfter = 0 then
    ⟨httpStatusFor e.code, some 51, "no-store", none, errorBody np { e with retryAfter := 60 }⟩
  else ⟨httpStatusFor e.code, some 51, "no-store", none, errorBody np e⟩

/-- `writeError` of the router. -/
def Router.writeError (np : Codec) (e : ProtocolError) : Response :=
  ⟨Router.httpStatusFor e.code, some 51, "no-store", none, errorBody np e⟩

theorem ErrCode.ofNat_number_ne_zero (c : ErrCode) : UInt32.ofNat c.number ≠ 0 := by
  cases c <;> decide

/-- A client reads an error with a short detail off its body. -/
theorem unmarshalError_errorBody {np : Codec} (hnp : np.Lawful) {e : ProtocolError}
    (he : e.Brief) : unmarshalError np (errorBody np e) = .ok e.wire := by
  have hfs : e.wire.fields.length ≤ 255 := e.wire.length_fields.trans (by decide)
  have hbody : marshalErrorMsg np e.wire = .ok (errorBody np e) := by
    unfold marshalErrorMsg errorBody packed
    rw [encodeFields_eq hnp hfs, hnp.bytes_eq _ hfs]
  refine unmarshalError_marshal hnp e.code.ofNat_number_ne_zero ?_ hbody
  rw [ProtocolError.wire, length_utf8]
  exact le_trans he (by decide)

theorem Router.httpStatusFor_ne (c : ErrCode) : Router.httpStatusFor c ≠ 200 := by
  cases c <;> decide

end FileRelay
