import FileRelay.Limits
import FileRelay.Chunking

/-!
# Request schemas and their validators

The request records of `protocol/schemas.go` and `protocol/transfers.go` and the checks
each passes before any state changes. A check is a chain of `failIf`, one for each `if`
of the source, and the `_eq_ok` lemmas say what a passed chain has established.

`validateTransferCreate_spec` is the geometry a created transfer has : `chunkCount` is
the number of chunks of `chunkSize` bytes it takes to hold `totalSize` bytes. The
`uint32` conversion of the expected count does not truncate, since the size was bounded
first.
-/

namespace FileRelay

abbrev ID := ByteArr 16
abbrev Digest := ByteArr 32

/-- Schema 57. -/
structure SendMessage where
  mailboxID : Bytes
  envelope : Bytes
  senderPub : Bytes
  timestamp : UInt64
  nonce : Bytes
  signature : Bytes
  ttlHintSec : UInt32
  burn : UInt8
deriving DecidableEq, Repr

/-- Schema 63. -/
structure TransferCreate where
  mailboxID : Bytes
  totalSize : UInt64
  chunkSize : UInt32
  chunkCount : UInt32
  manifest : Bytes
  senderPub : Bytes
  timestamp : UInt64
  nonce : Bytes
  signature : Bytes
deriving DecidableEq, Repr

/-- Schema 65. -/
structure ChunkUpload where
  transferID : Bytes
  index : UInt32
  payload : Bytes
  chunkHash : Bytes
  offset : UInt64
deriving DecidableEq, Repr

/-- Schema 71. -/
structure TransferComplete where
  transferID : Bytes
  manifestHash : Bytes
  mailboxID : Bytes
  senderPub : Bytes
  timestamp : UInt64
  nonce : Bytes
  signature : Bytes
deriving DecidableEq, Repr

/-- Schema 52. -/
structure Register where
  clientPub : Bytes
  timestamp : UInt64
  nonce : Bytes
  signature : Bytes
deriving DecidableEq, Repr

/-- The outcome of a chain of checks. -/
abbrev Check := Except ProtocolError Unit

/-- `if bad { return &ProtocolError{code, detail} }`, then the rest of the checks. -/
def failIf (bad : Prop) [Decidable bad] (code : ErrCode) (detail : String) (rest : Check) : Check :=
  if bad then .error ⟨code, detail, 0⟩ else rest

@[simp] theorem failIf_eq_ok {bad : Prop} [Decidable bad] {code : ErrCode} {detail : String}
    {rest : Check} : failIf bad code detail rest = .ok () ↔ ¬bad ∧ rest = .ok () := by
  unfold failIf
  split_ifs with h <;> simp [h]

theorem failIf_eq_error {bad : Prop} [Decidable bad] {code : ErrCode} {detail : String}
    {rest : Check} {e : ProtocolError} : failIf bad code detail rest = .error e ↔
      (bad ∧ e = ⟨code, detail, 0⟩) ∨ (¬bad ∧ rest = .error e) := by
  unfold failIf
  split_ifs with h <;> simp [h, eq_comm]

/-- No failure of the check has the code. -/
def NeverFails (code : ErrCode) (check : Check) : Prop :=
  ∀ e, check = .error e → e.code ≠ code

@[simp] theorem neverFails_ok (code : ErrCode) : NeverFails code (.ok ()) :=
  nofun

@[simp] theorem neverFails_failIf {code code' : ErrCode} {bad : Prop} [Decidable bad]
    {detail : String} {rest : Check} : NeverFails code (failIf bad code' detail rest) ↔
      (bad → code' ≠ code) ∧ (¬bad → NeverFails code rest) := by
  unfold NeverFails
  simp only [failIf_eq_error]
  refine ⟨fun h => ⟨fun hb => h _ (.inl ⟨hb, rfl⟩), fun hb e he => h e (.inr ⟨hb, he⟩)⟩, ?_⟩
  rintro ⟨hbad, hrest⟩ e (⟨hb, rfl⟩ | ⟨hb, he⟩)
  · exact hbad hb
  · exact hrest hb e he

/-- `ValidateSendMessage`. -/
def validateSendMessage (m : SendMessage) : Check :=
  failIf (m.mailboxID.length ≠ 16) .invalidRequest "mailbox_id must be 16 bytes" <|
  failIf (m.envelope.length = 0 ∨ maxMessageBytes < m.envelope.length) .messageTooLarge
    "envelope size out of bounds" <|
  failIf (m.senderPub.length ≠ 32) .authFailed "sender_pub must be 32 bytes" <|
  failIf (m.nonce.length ≠ 16) .invalidRequest "nonce must be 16 bytes" <|
  failIf (m.signature.length ≠ 64) .authFailed "signature must be 64 bytes" <|
  .ok ()

/-- `ValidateChunkUpload`. -/
def validateChunkUpload (c : ChunkUpload) : Check :=
  failIf (c.transferID.length ≠ 16) .invalidRequest "transfer_id must be 16 bytes" <|
  failIf (c.payload.length = 0 ∨ maxChunkBytes < c.payload.length) .chunkInvalid
    "payload size out of bounds" <|
  failIf (c.chunkHash.length ≠ 0 ∧ c.chunkHash.length ≠ 32) .chunkInvalid
    "chunk_hash must be 32 bytes" <|
  failIf (maxChunksPerTransfer ≤ c.index.toNat) .chunkOutOfRange "index out of range" <|
  .ok ()

/-- `uint32((totalSize + uint64(chunkSize) - 1) / uint64(chunkSize))`. -/
def expectedChunks (totalSize chunkSize : ℕ) : ℕ :=
  (totalSize + chunkSize - 1) % 2 ^ 64 / chunkSize % 2 ^ 32

/-- `ValidateTransferCreate`. -/
def validateTransferCreate (totalSize chunkSize chunkCount : ℕ) : Check :=
  failIf (chunkSize = 0 ∨ maxChunkBytes < chunkSize) .chunkInvalid "chunk_size out of bounds" <|
  failIf (chunkCount = 0 ∨ maxChunksPerTransfer < chunkCount) .chunkOutOfRange
    "chunk_count out of bounds" <|
  failIf (totalSize = 0 ∨ maxFileBytes < totalSize) .payloadTooLarge "total_size out of bounds" <|
  failIf (expectedChunks totalSize chunkSize ≠ chunkCount) .chunkInvalid "chunk_count mismatch" <|
  .ok ()

/-- The `ValidateTransferCreateMsg` checks after the geometry. -/
def validateTransferCreateRest (t : TransferCreate) : Check :=
  failIf (maxManifestBytes < t.manifest.length) .payloadTooLarge "manifest too large" <|
  failIf (t.senderPub.length ≠ 32) .authFailed "sender_pub must be 32 bytes" <|
  failIf (t.nonce.length ≠ 16) .invalidRequest "nonce must be 16 bytes" <|
  failIf (t.signature.length ≠ 64) .authFailed "signature must be 64 bytes" <|
  .ok ()

/-- `ValidateTransferCreateMsg`. -/
def validateTransferCreateMsg (t : TransferCreate) : Check :=
  failIf (t.mailboxID.length ≠ 0 ∧ t.mailboxID.length ≠ 16) .invalidRequest
    "mailbox_id must be 0 or 16 bytes" <|
  match validateTransferCreate t.totalSize.toNat t.chunkSize.toNat t.chunkCount.toNat with
  | .error e => .error e
  | .ok () => validateTransferCreateRest t

/-- `ValidateTransferComplete`. -/
def validateTransferComplete (t : TransferComplete) : Check :=
  failIf (t.transferID.length ≠ 16 ∨ t.manifestHash.length ≠ 32 ∨ t.senderPub.length ≠ 32 ∨
      t.nonce.length ≠ 16 ∨ t.signature.length ≠ 64) .invalidRequest "bad transfer complete" <|
  failIf (t.mailboxID.length ≠ 0 ∧ t.mailboxID.length ≠ 16) .invalidRequest
    "mailbox_id must be 0 or 16 bytes" <|
  .ok ()

theorem validateSendMessage_eq_ok {m : SendMessage} : validateSendMessage m = .ok () ↔
    m.mailboxID.length = 16 ∧ (m.envelope.length ≠ 0 ∧ m.envelope.length ≤ maxMessageBytes) ∧
      m.senderPub.length = 32 ∧ m.nonce.length = 16 ∧ m.signature.length = 64 := by
  simp [validateSendMessage]

theorem validateTransferComplete_eq_ok {t : TransferComplete} :
    validateTransferComplete t = .ok () ↔
      (t.transferID.length = 16 ∧ t.manifestHash.length = 32 ∧ t.senderPub.length = 32 ∧
        t.nonce.length = 16 ∧ t.signature.length = 64) ∧
      (t.mailboxID.length ≠ 0 → t.mailboxID.length = 16) := by
  simp [validateTransferComplete]

theorem validateChunkUpload_eq_ok {c : ChunkUpload} : validateChunkUpload c = .ok () ↔
    c.transferID.length = 16 ∧ c.payload.length ≠ 0 ∧ c.payload.length ≤ maxChunkBytes ∧
      (c.chunkHash.length ≠ 0 → c.chunkHash.length = 32) ∧
      c.index.toNat < maxChunksPerTransfer := by
  simp [validateChunkUpload, and_assoc]

theorem validateTransferCreateMsg_eq_ok {t : TransferCreate} :
    validateTransferCreateMsg t = .ok () ↔
      (t.mailboxID.length ≠ 0 → t.mailboxID.length = 16) ∧
      validateTransferCreate t.totalSize.toNat t.chunkSize.toNat t.chunkCount.toNat = .ok () ∧
      t.manifest.length ≤ maxManifestBytes ∧ t.senderPub.length = 32 ∧ t.nonce.length = 16 ∧
      t.signature.length = 64 := by
  unfold validateTransferCreateMsg validateTransferCreateRest
  cases validateTransferCreate t.totalSize.toNat t.chunkSize.toNat t.chunkCount.toNat <;> simp

/-- Sizes within the limits are rounded up without wrapping. -/
theorem expectedChunks_eq {totalSize chunkSize : ℕ} (ht : totalSize ≤ maxFileBytes)
    (hc : chunkSize ≤ maxChunkBytes) (h0 : 0 < chunkSize) :
    expectedChunks totalSize chunkSize = (totalSize + chunkSize - 1) / chunkSize := by
  unfold maxFileBytes at ht
  unfold maxChunkBytes at hc
  unfold expectedChunks
  have hq : (totalSize + chunkSize - 1) / chunkSize ≤ totalSize + chunkSize - 1 :=
    Nat.div_le_self _ _
  rw [Nat.mod_eq_of_lt (by omega : totalSize + chunkSize - 1 < 2 ^ 64), Nat.mod_eq_of_lt]
  omega

/-- The geometry the create check admits. -/
theorem validateTransferCreate_spec {totalSize chunkSize chunkCount : ℕ}
    (h : validateTransferCreate totalSize chunkSize chunkCount = .ok ()) :
    chunkSize ≤ maxChunkBytes ∧ chunkCount ≤ maxChunksPerTransfer ∧ totalSize ≤ maxFileBytes ∧
      Chunking.Fits totalSize chunkSize chunkCount := by
  simp only [validateTransferCreate, failIf_eq_ok, not_or, not_lt, not_not, and_true] at h
  obtain ⟨⟨hc0, hc⟩, ⟨hn0, hn⟩, ⟨ht0, ht⟩, he⟩ := h
  have hpos : 0 < chunkSize := Nat.pos_of_ne_zero hc0
  rw [expectedChunks_eq ht hc hpos] at he
  refine ⟨hc, hn, ht, ?_⟩
  rw [← he]
  exact Chunking.fits_of_div hpos (Nat.pos_of_ne_zero ht0)

theorem validateTransferCreateMsg_neverFails (r : TransferCreate) :
    NeverFails .quotaExceeded (validateTransferCreateMsg r) := by
  have hgeometry : NeverFails .quotaExceeded (validateTransferCreate r.totalSize.toNat
      r.chunkSize.toNat r.chunkCount.toNat) := by
    simp [validateTransferCreate]
  have hrest : NeverFails .quotaExceeded (validateTransferCreateRest r) := by
    simp [validateTransferCreateRest]
  unfold validateTransferCreateMsg
  refine neverFails_failIf.mpr ⟨fun _ => by decide, fun _ => ?_⟩
  cases hg : validateTransferCreate r.totalSize.toNat r.chunkSize.toNat r.chunkCount.toNat with
  | error e => rwa [hg] at hgeometry
  | ok => exact hrest

theorem validateChunkUpload_neverFails (c : ChunkUpload) :
    NeverFails .quotaExceeded (validateChunkUpload c) := by
  simp [validateChunkUpload]

end FileRelay
