import FileRelay.RequestCodec
import FileRelay.Auth
import FileRelay.MemStore

/-!
# Request codecs

The eleven request bodies of `protocol/control.go`, `schemas.go`, `messages.go` and
`transfers.go`, each with the fields `Marshal` adds, the `switch` of `Unmarshal` and its
limit. `request_codecs_agree` says of all eleven that the two functions and the limit of the
handler agree.
-/

namespace FileRelay

open NanoPack (Field Codec layout)

/-! ## Schema 52 -/

def Register.fields (r : Register) : List Field :=
  [⟨1, r.clientPub⟩, ⟨2, putU64 r.timestamp⟩, ⟨3, r.nonce⟩, ⟨4, r.signature⟩]

/-- The `switch` of `UnmarshalRegister`. -/
def Register.set (out : Register) (f : Field) : Wire Register :=
  if f.id = 1 then .ok { out with clientPub := f.data }
  else if f.id = 2 then (fieldU64 f.data).map fun v => { out with timestamp := v }
  else if f.id = 3 then .ok { out with nonce := f.data }
  else if f.id = 4 then .ok { out with signature := f.data }
  else .ok out

def registerCodec : RequestCodec Register Register :=
  .checked [1, 2, 3, 4] 256 (fun r => wireCheck (validateRegister r)) Register.fields
    ⟨[], 0, [], []⟩ Register.set

/-- `MarshalRegister`. -/
def marshalRegister (np : Codec) (r : Register) : Wire Bytes :=
  registerCodec.marshal np r

/-- `UnmarshalRegister`. -/
def unmarshalRegister (np : Codec) (body : Bytes) : Wire Register :=
  registerCodec.unmarshal np body

theorem registerCodec_lawful : registerCodec.Lawful 256 fun _ => True := by
  refine RequestCodec.lawful_checked (fun a => by simp [Register.fields]) ?_ ?_ ?_ (by decide)
  · intro r _ _
    simp only [Register.fields, List.foldlM_cons, List.foldlM_nil, Register.set, fieldU64_putU64]
    rfl
  · intro out f hf
    simp only [List.mem_cons, List.not_mem_nil, or_false, not_or] at hf
    simp [Register.set, hf]
  · intro r h
    simp [Register.fields, validateRegister_eq_ok.mp (wireCheck_eq_ok.mp h)]

/-! ## Schema 54 -/

/-- `Resolve`. -/
structure Resolve where
  clientPub : Bytes
deriving DecidableEq, Repr

/-- The check of `MarshalResolve` and `UnmarshalResolve`. -/
def Resolve.check (r : Resolve) : Wire Unit :=
  rejectIf (r.clientPub.length ≠ 32) .invalidRequest "client_pub must be 32 bytes"

/-- The `switch` of `UnmarshalResolve`. -/
def Resolve.set (out : Resolve) (f : Field) : Wire Resolve :=
  if f.id = 1 then .ok { out with clientPub := f.data } else .ok out

def resolveCodec : RequestCodec Resolve Resolve :=
  .checked [1] 128 Resolve.check (fun r => [⟨1, r.clientPub⟩]) ⟨[]⟩ Resolve.set

/-- `MarshalResolve`. -/
def marshalResolve (np : Codec) (r : Resolve) : Wire Bytes :=
  resolveCodec.marshal np r

/-- `UnmarshalResolve`. -/
def unmarshalResolve (np : Codec) (body : Bytes) : Wire Resolve :=
  resolveCodec.unmarshal np body

theorem resolveCodec_lawful : resolveCodec.Lawful 128 fun _ => True := by
  refine RequestCodec.lawful_checked (fun a => by simp) (fun r _ _ => rfl) ?_ ?_ (by decide)
  · intro out f hf
    simp only [List.mem_cons, List.not_mem_nil, or_false] at hf
    simp [Resolve.set, hf]
  · intro r h
    simp only [Resolve.check, rejectIf_eq_ok, not_not] at h
    simp [h]

/-! ## Schema 57 -/

def SendMessage.fields (m : SendMessage) : List Field :=
  [⟨1, m.mailboxID⟩, ⟨2, m.envelope⟩, ⟨3, m.senderPub⟩, ⟨4, putU64 m.timestamp⟩, ⟨5, m.nonce⟩,
    ⟨6, m.signature⟩, ⟨7, putU32 m.ttlHintSec⟩, ⟨8, [m.burn]⟩]

/-- The `switch` of `UnmarshalSendMessage`. -/
def SendMessage.set (out : SendMessage) (f : Field) : Wire SendMessage :=
  if f.id = 1 then .ok { out with mailboxID := f.data }
  else if f.id = 2 then .ok { out with envelope := f.data }
  else if f.id = 3 then .ok { out with senderPub := f.data }
  else if f.id = 4 then (fieldU64 f.data).map fun v => { out with timestamp := v }
  else if f.id = 5 then .ok { out with nonce := f.data }
  else if f.id = 6 then .ok { out with signature := f.data }
  else if f.id = 7 then (fieldU32 f.data).map fun v => { out with ttlHintSec := v }
  else if f.id = 8 then (fieldU8 f.data).map fun v => { out with burn := v }
  else .ok out

def sendMessageCodec : RequestCodec SendMessage SendMessage :=
  .checked [1, 2, 3, 4, 5, 6, 7, 8] maxRequestBytes (fun m => wireCheck (validateSendMessage m))
    SendMessage.fields ⟨[], [], [], 0, [], [], 0, 0⟩ SendMessage.set

/-- `MarshalSendMessage`. -/
def marshalSendMessage (np : Codec) (m : SendMessage) : Wire Bytes :=
  sendMessageCodec.marshal np m

/-- `UnmarshalSendMessage`. -/
def unmarshalSendMessage (np : Codec) (body : Bytes) : Wire SendMessage :=
  sendMessageCodec.unmarshal np body

theorem sendMessageCodec_lawful : sendMessageCodec.Lawful maxRequestBytes fun _ => True := by
  refine RequestCodec.lawful_checked (fun a => by simp [SendMessage.fields]) ?_ ?_ ?_ (by decide)
  · intro m _ _
    simp only [SendMessage.fields, List.foldlM_cons, List.foldlM_nil, SendMessage.set,
      fieldU64_putU64, fieldU32_putU32]
    rfl
  · intro out f hf
    simp only [List.mem_cons, List.not_mem_nil, or_false, not_or] at hf
    simp [SendMessage.set, hf]
  · intro m h
    obtain ⟨hmid, ⟨-, henv⟩, hpub, hnonce, hsig⟩ :=
      validateSendMessage_eq_ok.mp (wireCheck_eq_ok.mp h)
    simp only [SendMessage.fields, List.map_cons, List.map_nil, List.sum_cons, List.sum_nil, hmid,
      hpub, hnonce, hsig, length_putU64, length_putU32, List.length_cons, List.length_nil]
    unfold maxMessageBytes at henv
    unfold maxRequestBytes
    omega

/-! ## Schema 59 -/

/-- The `switch` of `UnmarshalReceiveMessages`. -/
def ReceiveMessages.set (out : ReceiveMessages) (f : Field) : Wire ReceiveMessages :=
  if f.id = 1 then .ok { out with mailboxID := f.data }
  else if f.id = 2 then .ok { out with readSecret := f.data }
  else if f.id = 3 then (fieldU8 f.data).map fun v => { out with limit := v }
  else if f.id = 4 then (fieldU8 f.data).map fun v => { out with peek := v }
  else .ok out

/-- The codec of `MarshalReceiveMessages` and `UnmarshalReceiveMessages`. -/
def receiveMessagesCodec : RequestCodec ReceiveMessages ReceiveMessages :=
  .checked [1, 2, 3, 4] 256 validateReceiveMessages
    (fun r => [⟨1, r.mailboxID⟩, ⟨2, r.readSecret⟩, ⟨3, [r.limit]⟩, ⟨4, [r.peek]⟩])
    ⟨[], [], 0, 0⟩ ReceiveMessages.set

/-- `UnmarshalReceiveMessages`. -/
def unmarshalReceiveMessages (np : Codec) (body : Bytes) : Wire ReceiveMessages :=
  receiveMessagesCodec.unmarshal np body

theorem validateReceiveMessages_eq_ok {r : ReceiveMessages} :
    validateReceiveMessages r = .ok () ↔ r.mailboxID.length = 16 ∧ r.readSecret.length = 32 := by
  unfold validateReceiveMessages
  rw [wire_bind_eq_ok]
  simp only [rejectIf_eq_ok, not_not, exists_const]

theorem receiveMessagesCodec_lawful : receiveMessagesCodec.Lawful 256 fun _ => True := by
  refine RequestCodec.lawful_checked (fun a => by simp) (fun r _ _ => rfl) ?_ ?_ (by decide)
  · intro out f hf
    simp only [List.mem_cons, List.not_mem_nil, or_false, not_or] at hf
    simp [ReceiveMessages.set, hf]
  · intro r h
    simp [validateReceiveMessages_eq_ok.mp h]

/-! ## Schema 61 -/

/-- `MessageAck`. -/
structure MessageAck where
  mailboxID : Bytes
  readSecret : Bytes
  msgIDs : List Bytes
  disposition : UInt8
deriving DecidableEq, Repr

/-- `ValidateMessageAck`. -/
def validateMessageAck (a : MessageAck) : Check :=
  failIf (a.mailboxID.length ≠ 16) .invalidRequest "mailbox_id must be 16 bytes" <|
  failIf (a.readSecret.length ≠ 32) .authFailed "read_secret must be 32 bytes" <|
  failIf (a.msgIDs.length = 0 ∨ maxBatchMessages < a.msgIDs.length) .invalidRequest
    "msg_ids count out of bounds" <|
  failIf (∃ id ∈ a.msgIDs, id.length ≠ 16) .invalidRequest "msg_id must be 16 bytes" <|
  failIf (a.disposition ≠ ackReceived ∧ a.disposition ≠ ackConsumed) .invalidRequest
    "bad disposition" <|
  .ok ()

/-- The fields of an ack before the ids are cut apart. -/
structure AckFields where
  mailboxID : Bytes
  readSecret : Bytes
  flat : Bytes
  disposition : UInt8

/-- The `switch` of `UnmarshalMessageAck`. -/
def AckFields.set (out : AckFields) (f : Field) : Wire AckFields :=
  if f.id = 1 then .ok { out with mailboxID := f.data }
  else if f.id = 2 then .ok { out with readSecret := f.data }
  else if f.id = 3 then .ok { out with flat := f.data }
  else if f.id = 4 then (fieldU8 f.data).map fun v => { out with disposition := v }
  else .ok out

/-- `for i := 0; i < len(flat); i += 16`, from position `i` with `n` ids left. -/
def idLoop (flat : Bytes) : ℕ → ℕ → List Bytes
  | 0, _ => []
  | n + 1, i => (flat.drop i).take 16 :: idLoop flat n (i + 16)

/-- The end of `UnmarshalMessageAck`. -/
def AckFields.finish (out : AckFields) : Wire MessageAck := do
  rejectIf (out.flat.length % 16 ≠ 0) .invalidRequest "msg_ids must be n*16 bytes"
  let a : MessageAck := ⟨out.mailboxID, out.readSecret,
    idLoop out.flat (out.flat.length / 16) 0, out.disposition⟩
  wireCheck (validateMessageAck a)
  return a

def messageAckCodec : RequestCodec MessageAck AckFields where
  known := [1, 2, 3, 4]
  limit := maxBatchMessages * 16 + 256
  check a := wireCheck (validateMessageAck a)
  fields a :=
    [⟨1, a.mailboxID⟩, ⟨2, a.readSecret⟩, ⟨3, a.msgIDs.flatten⟩, ⟨4, [a.disposition]⟩]
  zero := ⟨[], [], [], 0⟩
  set := AckFields.set
  finish := AckFields.finish

/-- `MarshalMessageAck`. -/
def marshalMessageAck (np : Codec) (a : MessageAck) : Wire Bytes :=
  messageAckCodec.marshal np a

/-- `UnmarshalMessageAck`. -/
def unmarshalMessageAck (np : Codec) (body : Bytes) : Wire MessageAck :=
  messageAckCodec.unmarshal np body

theorem length_flatten_ids : ∀ {ids : List Bytes}, (∀ id ∈ ids, id.length = 16) →
    ids.flatten.length = ids.length * 16
  | [], _ => rfl
  | id :: ids, h => by
    rw [List.flatten_cons, List.length_append, h id List.mem_cons_self,
      length_flatten_ids fun x hx => h x (List.mem_cons_of_mem _ hx), List.length_cons]
    omega

/-- The loop cuts the ids apart that were put together. -/
theorem idLoop_flatten : ∀ (ids : List Bytes) (before : Bytes), (∀ id ∈ ids, id.length = 16) →
    idLoop (before ++ ids.flatten) ids.length before.length = ids
  | [], _, _ => rfl
  | id :: ids, before, h => by
    have hid : id.length = 16 := h id List.mem_cons_self
    have hrest := idLoop_flatten ids (before ++ id) fun x hx => h x (List.mem_cons_of_mem _ hx)
    rw [List.append_assoc, List.length_append, hid, ← List.flatten_cons] at hrest
    rw [List.length_cons, idLoop, hrest, List.drop_left, List.flatten_cons, ← hid,
      List.take_left]

theorem validateMessageAck_eq_ok {a : MessageAck} : validateMessageAck a = .ok () ↔
    a.mailboxID.length = 16 ∧ a.readSecret.length = 32 ∧
      (a.msgIDs.length ≠ 0 ∧ a.msgIDs.length ≤ maxBatchMessages) ∧
      (∀ id ∈ a.msgIDs, id.length = 16) ∧
      (a.disposition ≠ ackReceived → a.disposition = ackConsumed) := by
  simp [validateMessageAck]

theorem messageAckCodec_lawful :
    messageAckCodec.Lawful (maxBatchMessages * 16 + 256) fun _ => True where
  length_fields a := by simp [messageAckCodec]
  read a _ ha := by
    obtain ⟨-, -, -, hids, -⟩ := validateMessageAck_eq_ok.mp (wireCheck_eq_ok.mp ha)
    have hlen := length_flatten_ids hids
    refine ⟨⟨a.mailboxID, a.readSecret, a.msgIDs.flatten, a.disposition⟩, rfl, ?_⟩
    have hloop := idLoop_flatten a.msgIDs [] hids
    change AckFields.finish _ = .ok a
    unfold AckFields.finish
    rw [rejectIf_neg (by simp [hlen]), ok_bind]
    simp only [hlen, Nat.mul_div_cancel _ (show 0 < 16 by decide)]
    rw [List.nil_append, List.length_nil] at hloop
    simp only [hloop]
    exact wire_bind_eq_ok.mpr ⟨(), ha, rfl⟩
  finish_check b a h := by
    obtain ⟨-, -, h⟩ := wire_bind_eq_ok.mp h
    obtain ⟨⟨⟩, hcheck, h⟩ := wire_bind_eq_ok.mp h
    cases h
    exact hcheck
  skip b f hf := by
    simp only [messageAckCodec, List.mem_cons, List.not_mem_nil, or_false, not_or] at hf
    simp [messageAckCodec, AckFields.set, hf]
  size a ha := by
    obtain ⟨hmid, hsecret, ⟨-, hn⟩, hids, -⟩ :=
      validateMessageAck_eq_ok.mp (wireCheck_eq_ok.mp ha)
    unfold maxBatchMessages at hn
    simp only [messageAckCodec, List.map_cons, List.map_nil, List.sum_cons, List.sum_nil, hmid,
      hsecret, length_flatten_ids hids, List.length_cons, List.length_nil, maxBatchMessages]
    omega
  limit_le := by decide

/-! ## Schema 63 -/

def TransferCreate.fields (t : TransferCreate) : List Field :=
  [⟨1, t.mailboxID⟩, ⟨2, putU64 t.totalSize⟩, ⟨3, putU32 t.chunkSize⟩, ⟨4, putU32 t.chunkCount⟩,
    ⟨5, t.manifest⟩, ⟨6, t.senderPub⟩, ⟨7, putU64 t.timestamp⟩, ⟨8, t.nonce⟩, ⟨9, t.signature⟩]

/-- The `switch` of `UnmarshalTransferCreate`. -/
def TransferCreate.set (out : TransferCreate) (f : Field) : Wire TransferCreate :=
  if f.id = 1 then .ok { out with mailboxID := f.data }
  else if f.id = 2 then (fieldU64 f.data).map fun v => { out with totalSize := v }
  else if f.id = 3 then (fieldU32 f.data).map fun v => { out with chunkSize := v }
  else if f.id = 4 then (fieldU32 f.data).map fun v => { out with chunkCount := v }
  else if f.id = 5 then .ok { out with manifest := f.data }
  else if f.id = 6 then .ok { out with senderPub := f.data }
  else if f.id = 7 then (fieldU64 f.data).map fun v => { out with timestamp := v }
  else if f.id = 8 then .ok { out with nonce := f.data }
  else if f.id = 9 then .ok { out with signature := f.data }
  else .ok out

def transferCreateCodec : RequestCodec TransferCreate TransferCreate :=
  .checked [1, 2, 3, 4, 5, 6, 7, 8, 9] (maxManifestBytes + 512)
    (fun t => wireCheck (validateTransferCreateMsg t)) TransferCreate.fields
    ⟨[], 0, 0, 0, [], [], 0, [], []⟩ TransferCreate.set

/-- `MarshalTransferCreate`. -/
def marshalTransferCreate (np : Codec) (t : TransferCreate) : Wire Bytes :=
  transferCreateCodec.marshal np t

/-- `UnmarshalTransferCreate`. -/
def unmarshalTransferCreate (np : Codec) (body : Bytes) : Wire TransferCreate :=
  transferCreateCodec.unmarshal np body

theorem transferCreateCodec_lawful :
    transferCreateCodec.Lawful (maxManifestBytes + 512) fun _ => True := by
  refine RequestCodec.lawful_checked (fun a => by simp [TransferCreate.fields]) ?_ ?_ ?_
    (by decide)
  · intro t _ _
    simp only [TransferCreate.fields, List.foldlM_cons, List.foldlM_nil, TransferCreate.set,
      fieldU64_putU64, fieldU32_putU32]
    rfl
  · intro out f hf
    simp only [List.mem_cons, List.not_mem_nil, or_false, not_or] at hf
    simp [TransferCreate.set, hf]
  · intro t h
    obtain ⟨hmid, -, hman, hpub, hnonce, hsig⟩ :=
      validateTransferCreateMsg_eq_ok.mp (wireCheck_eq_ok.mp h)
    simp only [TransferCreate.fields, List.map_cons, List.map_nil, List.sum_cons, List.sum_nil,
      hpub, hnonce, hsig, length_putU64, length_putU32]
    unfold maxManifestBytes at *
    omega

/-! ## Schema 65 -/

/-- The fields of `MarshalChunkUpload` : an empty hash is left out. -/
def ChunkUpload.fields (c : ChunkUpload) : List Field :=
  [⟨1, c.transferID⟩, ⟨2, putU32 c.index⟩, ⟨3, c.payload⟩] ++
    (if 0 < c.chunkHash.length then [⟨4, c.chunkHash⟩] else []) ++ [⟨5, putU64 c.offset⟩]

/-- The `switch` of `UnmarshalChunkUpload`. -/
def ChunkUpload.set (out : ChunkUpload) (f : Field) : Wire ChunkUpload :=
  if f.id = 1 then .ok { out with transferID := f.data }
  else if f.id = 2 then (fieldU32 f.data).map fun v => { out with index := v }
  else if f.id = 3 then .ok { out with payload := f.data }
  else if f.id = 4 then .ok { out with chunkHash := f.data }
  else if f.id = 5 then (fieldU64 f.data).map fun v => { out with offset := v }
  else .ok out

def chunkUploadCodec : RequestCodec ChunkUpload ChunkUpload :=
  .checked [1, 2, 3, 4, 5] (maxChunkBytes + 1024) (fun c => wireCheck (validateChunkUpload c))
    ChunkUpload.fields ⟨[], 0, [], [], 0⟩ ChunkUpload.set

/-- `MarshalChunkUpload`. -/
def marshalChunkUpload (np : Codec) (c : ChunkUpload) : Wire Bytes :=
  chunkUploadCodec.marshal np c

/-- `UnmarshalChunkUpload`. -/
def unmarshalChunkUpload (np : Codec) (body : Bytes) : Wire ChunkUpload :=
  chunkUploadCodec.unmarshal np body

theorem chunkUploadCodec_lawful :
    chunkUploadCodec.Lawful (maxChunkBytes + 2048) fun _ => True := by
  refine RequestCodec.lawful_checked ?_ ?_ ?_ ?_ (by decide)
  · intro c
    unfold ChunkUpload.fields
    split_ifs <;> simp
  · intro c _ _
    unfold ChunkUpload.fields
    split_ifs with h
    · simp only [List.cons_append, List.nil_append, List.foldlM_cons, List.foldlM_nil,
        ChunkUpload.set, fieldU64_putU64, fieldU32_putU32]
      rfl
    · obtain ⟨tid, index, payload, hash, offset⟩ := c
      obtain rfl : hash = [] := List.length_eq_zero_iff.mp (Nat.eq_zero_of_not_pos h)
      simp only [List.cons_append, List.nil_append, List.foldlM_cons, List.foldlM_nil,
        ChunkUpload.set, fieldU64_putU64, fieldU32_putU32]
      rfl
  · intro out f hf
    simp only [List.mem_cons, List.not_mem_nil, or_false, not_or] at hf
    simp [ChunkUpload.set, hf]
  · intro c h
    obtain ⟨hid, -, hpay, hhash, -⟩ := validateChunkUpload_eq_ok.mp (wireCheck_eq_ok.mp h)
    unfold ChunkUpload.fields
    unfold maxChunkBytes at *
    split_ifs <;>
      simp only [List.cons_append, List.nil_append, List.map_cons, List.map_nil, List.sum_cons,
        List.sum_nil, hid, length_putU64, length_putU32] <;> omega

/-! ## Schema 67 -/

/-- `ChunkDownload`. -/
structure ChunkDownload where
  transferID : Bytes
  index : UInt32
  count : UInt32
  mailboxID : Bytes
  readSecret : Bytes
  ticket : Bytes
deriving DecidableEq, Repr

/-- A ticket is absent or has its width. -/
def PlainTicket (ticket : Bytes) : Prop :=
  ticket.length = 0 ∨ ticket.length = 32

/-- `TicketMode`. -/
def ChunkDownload.ticketMode (r : ChunkDownload) : Bool :=
  r.ticket.length = 32

/-- The `ValidateChunkDownload` checks after the credentials. -/
def validateChunkDownloadRange (r : ChunkDownload) : Check :=
  failIf (r.count = 0 ∨ maxBatchMessages < r.count.toNat) .invalidRequest "count out of bounds" <|
  failIf (maxChunksPerTransfer ≤ r.index.toNat ∨ maxChunksPerTransfer < (r.index + r.count).toNat)
    .chunkOutOfRange "range out of bounds" <|
  .ok ()

/-- `ValidateChunkDownload`. -/
def validateChunkDownload (r : ChunkDownload) : Check :=
  failIf (r.transferID.length ≠ 16) .invalidRequest "transfer_id must be 16 bytes" <|
  if r.ticketMode then
    failIf (r.mailboxID.length ≠ 0 ∨ r.readSecret.length ≠ 0) .invalidRequest
      "ticket mode: mailbox and read_secret must be empty" <|
    validateChunkDownloadRange r
  else
    failIf (r.mailboxID.length ≠ 16) .invalidRequest "mailbox_id must be 16 bytes" <|
    failIf (r.readSecret.length ≠ 32) .authFailed "read_secret must be 32 bytes" <|
    validateChunkDownloadRange r

/-- The fields of `MarshalChunkDownload` : a ticket is added if it has 32 bytes. -/
def ChunkDownload.fields (r : ChunkDownload) : List Field :=
  [⟨1, r.transferID⟩, ⟨2, putU32 r.index⟩, ⟨3, putU32 r.count⟩, ⟨4, r.mailboxID⟩,
    ⟨5, r.readSecret⟩] ++ if r.ticket.length = 32 then [⟨6, r.ticket⟩] else []

/-- The `switch` of `UnmarshalChunkDownload`. -/
def ChunkDownload.set (out : ChunkDownload) (f : Field) : Wire ChunkDownload :=
  if f.id = 1 then .ok { out with transferID := f.data }
  else if f.id = 2 then (fieldU32 f.data).map fun v => { out with index := v }
  else if f.id = 3 then (fieldU32 f.data).map fun v => { out with count := v }
  else if f.id = 4 then .ok { out with mailboxID := f.data }
  else if f.id = 5 then .ok { out with readSecret := f.data }
  else if f.id = 6 then .ok { out with ticket := f.data }
  else .ok out

def chunkDownloadCodec : RequestCodec ChunkDownload ChunkDownload :=
  .checked [1, 2, 3, 4, 5, 6] 256 (fun r => wireCheck (validateChunkDownload r))
    ChunkDownload.fields ⟨[], 0, 0, [], [], []⟩ ChunkDownload.set

/-- `MarshalChunkDownload`. -/
def marshalChunkDownload (np : Codec) (r : ChunkDownload) : Wire Bytes :=
  chunkDownloadCodec.marshal np r

/-- `UnmarshalChunkDownload`. -/
def unmarshalChunkDownload (np : Codec) (body : Bytes) : Wire ChunkDownload :=
  chunkDownloadCodec.unmarshal np body

/-- The credentials of a valid download : a ticket alone, or a mailbox and its secret. -/
theorem credentials_of_validateChunkDownload {r : ChunkDownload}
    (h : validateChunkDownload r = .ok ()) : r.transferID.length = 16 ∧
      ((r.ticket.length = 32 ∧ r.mailboxID.length = 0 ∧ r.readSecret.length = 0) ∨
        (r.ticket.length ≠ 32 ∧ r.mailboxID.length = 16 ∧ r.readSecret.length = 32)) := by
  unfold validateChunkDownload ChunkDownload.ticketMode at h
  rw [failIf_eq_ok, not_not] at h
  refine ⟨h.1, ?_⟩
  by_cases ht : r.ticket.length = 32
  · rw [if_pos (by simpa using ht), failIf_eq_ok, not_or, not_not, not_not] at h
    exact Or.inl ⟨ht, h.2.1⟩
  · rw [if_neg (by simpa using ht), failIf_eq_ok, failIf_eq_ok, not_not, not_not] at h
    exact Or.inr ⟨ht, h.2.1, h.2.2.1⟩

theorem chunkDownloadCodec_lawful :
    chunkDownloadCodec.Lawful 256 fun r => PlainTicket r.ticket := by
  refine RequestCodec.lawful_checked ?_ ?_ ?_ ?_ (by decide)
  · intro r
    unfold ChunkDownload.fields
    split_ifs <;> simp
  · intro r hp _
    unfold ChunkDownload.fields
    split_ifs with h
    · simp only [List.cons_append, List.nil_append, List.foldlM_cons, List.foldlM_nil,
        ChunkDownload.set, fieldU32_putU32]
      rfl
    · obtain ⟨tid, index, count, mid, secret, ticket⟩ := r
      obtain rfl : ticket = [] := List.length_eq_zero_iff.mp (hp.resolve_right h)
      simp only [List.cons_append, List.nil_append, List.foldlM_cons, List.foldlM_nil,
        ChunkDownload.set, fieldU32_putU32]
      rfl
  · intro out f hf
    simp only [List.mem_cons, List.not_mem_nil, or_false, not_or] at hf
    simp [ChunkDownload.set, hf]
  · intro r h
    obtain ⟨hid, hcred⟩ := credentials_of_validateChunkDownload (wireCheck_eq_ok.mp h)
    unfold ChunkDownload.fields
    split_ifs <;>
      simp only [List.cons_append, List.nil_append, List.append_nil, List.map_cons, List.map_nil,
        List.sum_cons, List.sum_nil, hid, length_putU32] <;> omega

/-! ## Schema 69 -/

/-- `ResumeRequest`. -/
structure ResumeRequest where
  transferID : Bytes
  mailboxID : Bytes
  readSecret : Bytes
  ticket : Bytes
deriving DecidableEq, Repr

/-- `TicketMode`. -/
def ResumeRequest.ticketMode (r : ResumeRequest) : Bool :=
  r.ticket.length = 32

/-- `ValidateResumeRequest`. -/
def validateResumeRequest (r : ResumeRequest) : Check :=
  failIf (r.transferID.length ≠ 16) .invalidRequest "transfer_id must be 16 bytes" <|
  if r.ticketMode then
    failIf (r.mailboxID.length ≠ 0 ∨ r.readSecret.length ≠ 0) .invalidRequest
      "ticket mode: mailbox and read_secret must be empty" <|
    .ok ()
  else
    failIf (r.mailboxID.length ≠ 16 ∨ r.readSecret.length ≠ 32) .invalidRequest
      "bad resume request" <|
    .ok ()

/-- The fields of `MarshalResumeRequest` : a ticket is added in ticket mode. -/
def ResumeRequest.fields (r : ResumeRequest) : List Field :=
  [⟨1, r.transferID⟩, ⟨2, r.mailboxID⟩, ⟨3, r.readSecret⟩] ++
    if r.ticketMode then [⟨4, r.ticket⟩] else []

/-- The `switch` of `UnmarshalResumeRequest`. -/
def ResumeRequest.set (out : ResumeRequest) (f : Field) : Wire ResumeRequest :=
  if f.id = 1 then .ok { out with transferID := f.data }
  else if f.id = 2 then .ok { out with mailboxID := f.data }
  else if f.id = 3 then .ok { out with readSecret := f.data }
  else if f.id = 4 then .ok { out with ticket := f.data }
  else .ok out

def resumeRequestCodec : RequestCodec ResumeRequest ResumeRequest :=
  .checked [1, 2, 3, 4] 256 (fun r => wireCheck (validateResumeRequest r)) ResumeRequest.fields
    ⟨[], [], [], []⟩ ResumeRequest.set

/-- `MarshalResumeRequest`. -/
def marshalResumeRequest (np : Codec) (r : ResumeRequest) : Wire Bytes :=
  resumeRequestCodec.marshal np r

/-- `UnmarshalResumeRequest`. -/
def unmarshalResumeRequest (np : Codec) (body : Bytes) : Wire ResumeRequest :=
  resumeRequestCodec.unmarshal np body

theorem credentials_of_validateResumeRequest {r : ResumeRequest}
    (h : validateResumeRequest r = .ok ()) : r.transferID.length = 16 ∧
      ((r.ticket.length = 32 ∧ r.mailboxID.length = 0 ∧ r.readSecret.length = 0) ∨
        (r.ticket.length ≠ 32 ∧ r.mailboxID.length = 16 ∧ r.readSecret.length = 32)) := by
  unfold validateResumeRequest ResumeRequest.ticketMode at h
  rw [failIf_eq_ok, not_not] at h
  refine ⟨h.1, ?_⟩
  by_cases ht : r.ticket.length = 32
  · rw [if_pos (by simpa using ht), failIf_eq_ok, not_or, not_not, not_not] at h
    exact Or.inl ⟨ht, h.2.1⟩
  · rw [if_neg (by simpa using ht), failIf_eq_ok, not_or, not_not, not_not] at h
    exact Or.inr ⟨ht, h.2.1⟩

theorem resumeRequestCodec_lawful :
    resumeRequestCodec.Lawful 256 fun r => PlainTicket r.ticket := by
  refine RequestCodec.lawful_checked ?_ ?_ ?_ ?_ (by decide)
  · intro r
    unfold ResumeRequest.fields
    split_ifs <;> simp
  · intro r hp _
    unfold ResumeRequest.fields
    split_ifs with h
    · rfl
    · obtain ⟨tid, mid, secret, ticket⟩ := r
      have hne : ticket.length ≠ 32 := by simpa [ResumeRequest.ticketMode] using h
      obtain rfl : ticket = [] := List.length_eq_zero_iff.mp (hp.resolve_right hne)
      rfl
  · intro out f hf
    simp only [List.mem_cons, List.not_mem_nil, or_false, not_or] at hf
    simp [ResumeRequest.set, hf]
  · intro r h
    obtain ⟨hid, hcred⟩ := credentials_of_validateResumeRequest (wireCheck_eq_ok.mp h)
    simp only [ResumeRequest.fields, ResumeRequest.ticketMode, decide_eq_true_eq]
    split_ifs <;>
      simp only [List.cons_append, List.nil_append, List.append_nil, List.map_cons, List.map_nil,
        List.sum_cons, List.sum_nil, hid] <;> omega

/-! ## Schema 71 -/

def TransferComplete.fields (t : TransferComplete) : List Field :=
  [⟨1, t.transferID⟩, ⟨2, t.manifestHash⟩, ⟨3, t.mailboxID⟩, ⟨4, t.senderPub⟩,
    ⟨5, putU64 t.timestamp⟩, ⟨6, t.nonce⟩, ⟨7, t.signature⟩]

/-- The `switch` of `UnmarshalTransferComplete`. -/
def TransferComplete.set (out : TransferComplete) (f : Field) : Wire TransferComplete :=
  if f.id = 1 then .ok { out with transferID := f.data }
  else if f.id = 2 then .ok { out with manifestHash := f.data }
  else if f.id = 3 then .ok { out with mailboxID := f.data }
  else if f.id = 4 then .ok { out with senderPub := f.data }
  else if f.id = 5 then (fieldU64 f.data).map fun v => { out with timestamp := v }
  else if f.id = 6 then .ok { out with nonce := f.data }
  else if f.id = 7 then .ok { out with signature := f.data }
  else .ok out

def transferCompleteCodec : RequestCodec TransferComplete TransferComplete :=
  .checked [1, 2, 3, 4, 5, 6, 7] 512 (fun t => wireCheck (validateTransferComplete t))
    TransferComplete.fields ⟨[], [], [], [], 0, [], []⟩ TransferComplete.set

/-- `MarshalTransferComplete`. -/
def marshalTransferComplete (np : Codec) (t : TransferComplete) : Wire Bytes :=
  transferCompleteCodec.marshal np t

/-- `UnmarshalTransferComplete`. -/
def unmarshalTransferComplete (np : Codec) (body : Bytes) : Wire TransferComplete :=
  transferCompleteCodec.unmarshal np body

theorem transferCompleteCodec_lawful : transferCompleteCodec.Lawful 512 fun _ => True := by
  refine RequestCodec.lawful_checked (fun a => by simp [TransferComplete.fields]) ?_ ?_ ?_
    (by decide)
  · intro t _ _
    simp only [TransferComplete.fields, List.foldlM_cons, List.foldlM_nil, TransferComplete.set,
      fieldU64_putU64]
    rfl
  · intro out f hf
    simp only [List.mem_cons, List.not_mem_nil, or_false, not_or] at hf
    simp [TransferComplete.set, hf]
  · intro t h
    obtain ⟨⟨hid, hhash, hpub, hnonce, hsig⟩, hmid⟩ :=
      validateTransferComplete_eq_ok.mp (wireCheck_eq_ok.mp h)
    simp only [TransferComplete.fields, List.map_cons, List.map_nil, List.sum_cons, List.sum_nil,
      hid, hhash, hpub, hnonce, hsig, length_putU64]
    omega

/-! ## Schema 73 -/

/-- `TransferCancel`. -/
structure TransferCancel where
  transferID : Bytes
  mailboxID : Bytes
  reason : UInt8
  readSecret : Bytes
deriving DecidableEq, Repr

/-- The check of `MarshalTransferCancel` and `UnmarshalTransferCancel`. -/
def TransferCancel.check (t : TransferCancel) : Wire Unit :=
  rejectIf (t.transferID.length ≠ 16 ∨ t.mailboxID.length ≠ 16 ∨ t.readSecret.length ≠ 32)
    .invalidRequest "bad transfer cancel"

/-- The `switch` of `UnmarshalTransferCancel`. -/
def TransferCancel.set (out : TransferCancel) (f : Field) : Wire TransferCancel :=
  if f.id = 1 then .ok { out with transferID := f.data }
  else if f.id = 2 then .ok { out with mailboxID := f.data }
  else if f.id = 3 then (fieldU8 f.data).map fun v => { out with reason := v }
  else if f.id = 4 then .ok { out with readSecret := f.data }
  else .ok out

def transferCancelCodec : RequestCodec TransferCancel TransferCancel :=
  .checked [1, 2, 3, 4] 256 TransferCancel.check
    (fun t => [⟨1, t.transferID⟩, ⟨2, t.mailboxID⟩, ⟨3, [t.reason]⟩, ⟨4, t.readSecret⟩])
    ⟨[], [], 0, []⟩ TransferCancel.set

/-- `MarshalTransferCancel`. -/
def marshalTransferCancel (np : Codec) (t : TransferCancel) : Wire Bytes :=
  transferCancelCodec.marshal np t

/-- `UnmarshalTransferCancel`. -/
def unmarshalTransferCancel (np : Codec) (body : Bytes) : Wire TransferCancel :=
  transferCancelCodec.unmarshal np body

theorem transferCancelCodec_lawful : transferCancelCodec.Lawful 256 fun _ => True := by
  refine RequestCodec.lawful_checked (fun a => by simp) (fun t _ _ => rfl) ?_ ?_ (by decide)
  · intro out f hf
    simp only [List.mem_cons, List.not_mem_nil, or_false, not_or] at hf
    simp [TransferCancel.set, hf]
  · intro t h
    simp only [TransferCancel.check, rejectIf_eq_ok, not_or, not_not] at h
    simp [h]

/-! ## All requests -/

/-- The codecs of the eleven requests, with the ids of their fields, the limit their handler
gives `readBody`, the limit of `Unmarshal`, and the tickets they are about. -/
theorem request_codecs_agree (np : Codec) (hnp : np.Lawful) :
    CodecsAgree np marshalRegister unmarshalRegister [1, 2, 3, 4] 256 256 (fun _ => True) ∧
    CodecsAgree np marshalResolve unmarshalResolve [1] 128 128 (fun _ => True) ∧
    CodecsAgree np marshalSendMessage unmarshalSendMessage [1, 2, 3, 4, 5, 6, 7, 8]
      maxRequestBytes maxRequestBytes (fun _ => True) ∧
    CodecsAgree np marshalReceiveMessages unmarshalReceiveMessages [1, 2, 3, 4] 256 256
      (fun _ => True) ∧
    CodecsAgree np marshalMessageAck unmarshalMessageAck [1, 2, 3, 4]
      (maxBatchMessages * 16 + 256) (maxBatchMessages * 16 + 256) (fun _ => True) ∧
    CodecsAgree np marshalTransferCreate unmarshalTransferCreate [1, 2, 3, 4, 5, 6, 7, 8, 9]
      (maxManifestBytes + 512) (maxManifestBytes + 512) (fun _ => True) ∧
    CodecsAgree np marshalChunkUpload unmarshalChunkUpload [1, 2, 3, 4, 5]
      (maxChunkBytes + 2048) (maxChunkBytes + 1024) (fun _ => True) ∧
    CodecsAgree np marshalChunkDownload unmarshalChunkDownload [1, 2, 3, 4, 5, 6] 256 256
      (fun r => PlainTicket r.ticket) ∧
    CodecsAgree np marshalResumeRequest unmarshalResumeRequest [1, 2, 3, 4] 256 256
      (fun r => PlainTicket r.ticket) ∧
    CodecsAgree np marshalTransferComplete unmarshalTransferComplete [1, 2, 3, 4, 5, 6, 7] 512
      512 (fun _ => True) ∧
    CodecsAgree np marshalTransferCancel unmarshalTransferCancel [1, 2, 3, 4] 256 256
      (fun _ => True) :=
  ⟨registerCodec_lawful.agree hnp, resolveCodec_lawful.agree hnp,
    sendMessageCodec_lawful.agree hnp, receiveMessagesCodec_lawful.agree hnp,
    messageAckCodec_lawful.agree hnp, transferCreateCodec_lawful.agree hnp,
    chunkUploadCodec_lawful.agree hnp, chunkDownloadCodec_lawful.agree hnp,
    resumeRequestCodec_lawful.agree hnp, transferCompleteCodec_lawful.agree hnp,
    transferCancelCodec_lawful.agree hnp⟩

/-- With the reference codec : a body of a download by ticket. -/
theorem request_codecs_agree_reference :
    ∃ body, marshalChunkDownload NanoPack.reference
        ⟨List.replicate 16 1, 0, 1, [], [], List.replicate 32 2⟩ = .ok body ∧
      body.length ≤ 256 ∧ unmarshalChunkDownload NanoPack.reference body =
        .ok ⟨List.replicate 16 1, 0, 1, [], [], List.replicate 32 2⟩ := by
  obtain ⟨-, -, -, -, -, -, -, hdownload, -⟩ :=
    request_codecs_agree NanoPack.reference NanoPack.reference_lawful
  have hm : marshalChunkDownload NanoPack.reference
      ⟨List.replicate 16 1, 0, 1, [], [], List.replicate 32 2⟩ = .ok _ :=
    (chunkDownloadCodec_lawful.marshal_eq_ok NanoPack.reference_lawful).mpr ⟨by decide, rfl⟩
  obtain ⟨hbody, -, -, hu⟩ := hdownload.round_trip _ _ (Or.inr rfl) hm
  exact ⟨_, hm, hbody, hu⟩

end FileRelay
