import FileRelay.GoMap
import FileRelay.Slice
import FileRelay.Schemas

/-!
# The in-memory store

`server/storage/memstore.go`, one definition for each function. An operation takes the
store, the one clock reading it makes, its arguments and the random values it draws,
and returns the store it leaves together with its result : an operation that fails may
still have pruned expired messages or relabelled an expired transfer.

SHA-256 is a parameter `H`. `subtle.ConstantTimeCompare` of two digests is equality.
Copies of byte slices (`append([]byte(nil), b...)`) are the byte strings themselves.
-/

namespace FileRelay

/-! ## Records -/

/-- One queued envelope. -/
structure StoredMessage where
  id : ID
  envelope : Bytes
  senderPub : Bytes
  enqueuedAt : ℤ
  expiresAt : ℤ
deriving DecidableEq

/-- `StoredMessage{}`, what a cleared cell holds. -/
def StoredMessage.zero : StoredMessage :=
  ⟨copyArr 16 [], [], [], 0, 0⟩

structure MailboxData where
  readSecretHash : Digest
  messages : List StoredMessage
  expiresAt : ℤ
  storedBytes : ℕ

inductive TransferState
  | created
  | uploading
  | complete
  | cancelled
  | expired
deriving DecidableEq, Repr

structure TransferData where
  mailboxID : ID
  hasMailbox : Bool
  downloadSecretHash : Digest
  totalSize : ℕ
  chunkSize : ℕ
  chunkCount : ℕ
  manifest : Bytes
  senderPub : Bytes
  state : TransferState
  present : List Bool
  chunks : GoMap ℕ Bytes
  hashes : GoMap ℕ Bytes
  presentCount : ℕ
  highest : ℕ
  createdAt : ℤ
  expiresAt : ℤ
  storedBytes : ℕ

structure MemStore where
  mailboxes : GoMap ID MailboxData
  transfers : GoMap ID TransferData
  replay : GoMap Digest ℤ

/-- `NewMemStore`. -/
def newMemStore : MemStore :=
  ⟨∅, ∅, ∅⟩

/-- Assign a mailbox. -/
def MemStore.setMailbox (s : MemStore) (id : ID) (mb : MailboxData) : MemStore :=
  { s with mailboxes := s.mailboxes.insert id mb }

/-- Assign a transfer. -/
def MemStore.setTransfer (s : MemStore) (id : ID) (t : TransferData) : MemStore :=
  { s with transfers := s.transfers.insert id t }

/-- `TransferView`. -/
structure TransferView where
  id : ID
  mailboxID : ID
  hasMailbox : Bool
  totalSize : ℕ
  chunkSize : ℕ
  chunkCount : ℕ
  manifest : Bytes
  senderPub : Bytes
  state : TransferState
  presentCount : ℕ
  highestContiguous : ℕ
  createdAt : ℤ
  expiresAt : ℤ
deriving DecidableEq

/-- `ResumeEncoding`. -/
inductive ResumeEncoding
  | bitmap
  | ranges
deriving DecidableEq, Repr

/-- `ResumeView`. -/
structure ResumeView where
  chunkCount : ℕ
  highestContiguous : ℕ
  encoding : ResumeEncoding
  bitmap : Bytes
  missingRanges : Bytes
deriving DecidableEq, Repr

/-- An operation's result. -/
abbrev Result := Except ProtocolError

/-- `return ..., &protocol.ProtocolError{Code: code, Detail: detail}`. -/
def fail {α : Type} (s : MemStore) (code : ErrCode) (detail : String) : MemStore × Result α :=
  (s, .error ⟨code, detail, 0⟩)

variable (H : Bytes → Digest)

/-- `secretMatches`. -/
def secretMatches (stored : Digest) (provided : Bytes) : Bool :=
  provided.length = 32 && H provided = stored

/-! ## Deadlines -/

/-- `now + protocol.XxxSeconds*1000`, a sum of `int64`s. -/
def deadline (now ttlSeconds : ℤ) : ℤ :=
  toInt64 (now + ttlSeconds * 1000)

theorem deadline_of_fits {now ttlSeconds : ℤ} (hlo : -2 ^ 63 ≤ now + ttlSeconds * 1000)
    (hhi : now + ttlSeconds * 1000 < 2 ^ 63) :
    deadline now ttlSeconds = now + ttlSeconds * 1000 :=
  toInt64_of_fits hlo hhi

/-! ## Mailboxes -/

/-- `now + protocol.MailboxTTLSeconds*1000`. -/
def mailboxDeadline (now : ℤ) : ℤ :=
  deadline now mailboxTTLSeconds

/-- `mb.expiresAt = now + protocol.MailboxTTLSeconds*1000`. -/
def MailboxData.slide (mb : MailboxData) (now : ℤ) : MailboxData :=
  { mb with expiresAt := mailboxDeadline now }

/-- `CreateMailbox`. Registering again keeps the messages. -/
def createMailbox (s : MemStore) (now : ℤ) (mailboxID : ID) (readSecretHash : Digest) :
    MemStore × Bool :=
  match s.mailboxes.lookup mailboxID with
  | some mb =>
    (s.setMailbox mailboxID
      { mb with readSecretHash := readSecretHash, expiresAt := mailboxDeadline now }, false)
  | none =>
    (s.setMailbox mailboxID ⟨readSecretHash, [], mailboxDeadline now, 0⟩, true)

/-- `getMailboxLocked`. -/
def getMailboxLocked (s : MemStore) (id : ID) (now : ℤ) : Option MailboxData :=
  match s.mailboxes.lookup id with
  | none => none
  | some mb => if mb.expiresAt ≤ now then none else some mb

/-- `MailboxExists`. -/
def mailboxExists (s : MemStore) (now : ℤ) (mailboxID : ID) : Bool :=
  match s.mailboxes.lookup mailboxID with
  | none => false
  | some mb => if mb.expiresAt ≤ now then false else true

/-- `CheckReadSecret`. It does not look at the clock. -/
def checkReadSecret (s : MemStore) (mailboxID : ID) (readSecret : Bytes) : Bool :=
  match s.mailboxes.lookup mailboxID with
  | none => false
  | some mb => if readSecret.length ≠ 32 then false else H readSecret = mb.readSecretHash

/-! ## Messages -/

/-- `for _, m := range msgs { bytes += int64(len(m.Envelope)) }`. -/
def envelopeBytes (msgs : List StoredMessage) : ℕ :=
  (msgs.map fun m => m.envelope.length).sum

/-- `mb.messages = kept; mb.storedBytes = bytes`, where `bytes` is the sum over `kept`. -/
def MailboxData.keep (mb : MailboxData) (kept : List StoredMessage) : MailboxData :=
  { mb with messages := kept, storedBytes := envelopeBytes kept }

/-- `pruneMessagesLocked`. The bytes of the kept messages are added up in the loop that
keeps them. -/
def pruneMessagesLocked (mb : MailboxData) (now : ℤ) : MailboxData :=
  mb.keep (Slice.filterInPlace .zero (fun m => decide (now < m.expiresAt)) mb.messages)

/-- The entry `SendMessage` appends. -/
def newMessage (msg : SendMessage) (id : ID) (now : ℤ) : StoredMessage where
  id := id
  envelope := msg.envelope
  senderPub := msg.senderPub
  enqueuedAt := now
  expiresAt := deadline now msgTTLSeconds

/-- What `SendMessage` writes to the mailbox it accepts a message for. -/
def MailboxData.enqueue (mb : MailboxData) (msg : SendMessage) (id : ID) (now : ℤ) :
    MailboxData :=
  { mb with messages := mb.messages ++ [newMessage msg id now]
            storedBytes := mb.storedBytes + msg.envelope.length
            expiresAt := mailboxDeadline now }

/-- `SendMessage`. `id` is what `NewID` draws. -/
def sendMessage (s : MemStore) (now : ℤ) (msg : SendMessage) (id : ID) :
    MemStore × Result (ID × ℕ) :=
  match validateSendMessage msg with
  | .error e => (s, .error e)
  | .ok () =>
    let mid := copyArr 16 msg.mailboxID
    match getMailboxLocked s mid now with
    | none => fail s .mailboxNotFound "mailbox not found"
    | some mb =>
      let mb := pruneMessagesLocked mb now
      let s := s.setMailbox mid mb
      if maxQueuedMessages ≤ mb.messages.length then
        fail s .quotaExceeded "mailbox full"
      else if maxStoredBytesPerMailbox < mb.storedBytes + msg.envelope.length then
        fail s .quotaExceeded "mailbox byte quota"
      else
        let mb := mb.enqueue msg id now
        (s.setMailbox mid mb, .ok (id, mb.messages.length))

/-- `if limit <= 0 || limit > MaxBatchMessages { limit = MaxBatchMessages }`. -/
def clampLimit (limit : ℤ) : ℕ :=
  if limit ≤ 0 ∨ (maxBatchMessages : ℤ) < limit then maxBatchMessages else limit.toNat

/-- `ReceiveMessages`. -/
def receiveMessages (s : MemStore) (now : ℤ) (mailboxID : ID) (readSecret : Bytes) (limit : ℤ)
    (peek : Bool) : MemStore × Result (List StoredMessage × Bool) :=
  match getMailboxLocked s mailboxID now with
  | none => fail s .mailboxNotFound "mailbox not found"
  | some mb =>
    if !secretMatches H mb.readSecretHash readSecret then
      fail s .authFailed "bad read secret"
    else
      let mb := pruneMessagesLocked mb now
      let r := Slice.takeLoop (clampLimit limit) peek mb.messages
      let mb := if peek then mb else mb.keep r.2
      (s.setMailbox mailboxID (mb.slide now), .ok (r.1, !peek))

/-- The dispositions of an ack. -/
def ackReceived : UInt8 := 1
def ackConsumed : UInt8 := 2

/-- The loop that fills `want` : it stops at the first id that is not 16 bytes. -/
def wantedIDs : List Bytes → Result (List ID)
  | [] => .ok []
  | raw :: rest =>
    if raw.length ≠ 16 then .error ⟨.invalidRequest, "msg_id must be 16 bytes", 0⟩
    else (wantedIDs rest).map fun ids => copyArr 16 raw :: ids

/-- `AckMessages`. -/
def ackMessages (s : MemStore) (now : ℤ) (mailboxID : ID) (readSecret : Bytes)
    (msgIDs : List Bytes) (disposition : UInt8) : MemStore × Result (ℕ × ℕ) :=
  if disposition ≠ ackReceived ∧ disposition ≠ ackConsumed then
    fail s .invalidRequest "bad disposition"
  else if msgIDs.length = 0 ∨ maxBatchMessages < msgIDs.length then
    fail s .invalidRequest "msg_ids count out of bounds"
  else
    match getMailboxLocked s mailboxID now with
    | none => fail s .mailboxNotFound "mailbox not found"
    | some mb =>
      if !secretMatches H mb.readSecretHash readSecret then
        fail s .authFailed "bad read secret"
      else
        let mb := pruneMessagesLocked mb now
        let s := s.setMailbox mailboxID mb
        match wantedIDs msgIDs with
        | .error e => (s, .error e)
        | .ok want =>
          let acked := (mb.messages.filter fun m => decide (m.id ∈ want)).length
          let mb := if disposition = ackConsumed then
              mb.keep (Slice.filterInPlace .zero (fun m => !decide (m.id ∈ want)) mb.messages)
            else mb
          (s.setMailbox mailboxID (mb.slide now), .ok (acked, mb.messages.length))

/-- What `AckMessages` leaves of a mailbox. -/
def MailboxData.afterAck (mb : MailboxData) (now : ℤ) (want : List ID) (disposition : UInt8) :
    MailboxData :=
  let mb := pruneMessagesLocked mb now
  (if disposition = ackConsumed then
    mb.keep (mb.messages.filter fun m => !decide (m.id ∈ want)) else mb).slide now

/-! ## Transfers -/

/-- `t.hasMailbox && t.mailboxID == mailboxID`. -/
def TransferData.boundTo (t : TransferData) (mailboxID : ID) : Bool :=
  t.hasMailbox && t.mailboxID = mailboxID

/-- `t.state == TransferCreated || t.state == TransferUploading`. -/
def TransferState.isOpen : TransferState → Bool
  | .created | .uploading => true
  | _ => false

/-- `activeTransfersLocked`. -/
def activeTransfersLocked (s : MemStore) (mailboxID : ID) (now : ℤ) : ℕ :=
  s.transfers.sumBy fun _ t =>
    if t.boundTo mailboxID && t.state.isOpen && decide (now < t.expiresAt) then 1 else 0

/-- `mailboxStoredBytesLocked`. -/
def mailboxStoredBytesLocked (s : MemStore) (mailboxID : ID) : ℕ :=
  (match s.mailboxes.lookup mailboxID with
    | some mb => mb.storedBytes
    | none => 0) +
  s.transfers.sumBy fun _ t =>
    if t.boundTo mailboxID then t.storedBytes + t.manifest.length else 0

/-- `if mb, ok := s.mailboxes[id]; ok { mb.expiresAt = ... }`. -/
def slideMailbox (s : MemStore) (id : ID) (now : ℤ) : MemStore :=
  match s.mailboxes.lookup id with
  | some mb => s.setMailbox id (mb.slide now)
  | none => s

/-- The record `CreateTransfer` stores. -/
def newTransfer (t : TransferCreate) (mid : ID) (hasMailbox : Bool) (ticket : ByteArr 32)
    (now : ℤ) : TransferData where
  mailboxID := mid
  hasMailbox := hasMailbox
  downloadSecretHash := H ticket.toList
  totalSize := t.totalSize.toNat
  chunkSize := t.chunkSize.toNat
  chunkCount := t.chunkCount.toNat
  manifest := t.manifest
  senderPub := t.senderPub
  state := .created
  present := List.replicate t.chunkCount.toNat false
  chunks := ∅
  hashes := ∅
  presentCount := 0
  highest := 0
  createdAt := now
  expiresAt := deadline now uploadTTLSeconds
  storedBytes := 0

/-- The mailbox checks of `CreateTransfer`. -/
def createTransferQuota (s : MemStore) (now : ℤ) (mid : ID) (totalSize : ℕ) : Check :=
  match getMailboxLocked s mid now with
  | none => .error ⟨.mailboxNotFound, "mailbox not found", 0⟩
  | some _ =>
    failIf (maxActiveTransfersPerMailbox ≤ activeTransfersLocked s mid now) .quotaExceeded
      "too many active transfers" <|
    failIf (maxStoredBytesPerMailbox < mailboxStoredBytesLocked s mid + totalSize) .quotaExceeded
      "mailbox byte quota" <|
    .ok ()

/-- The record for a request, with its mailbox if it names one. -/
def createdTransfer (t : TransferCreate) (ticket : ByteArr 32) (now : ℤ) : TransferData :=
  let hasMailbox := decide (t.mailboxID.length = 16)
  newTransfer H t (if hasMailbox then copyArr 16 t.mailboxID else copyArr 16 []) hasMailbox ticket
    now

/-- `CreateTransfer`. `id` is what `NewID` draws, `ticket` what `rand.Read` fills in, or
`none` if it fails. -/
def createTransfer (s : MemStore) (now : ℤ) (t : TransferCreate) (id : ID)
    (ticket : Option (ByteArr 32)) : MemStore × Result (ID × Bytes × ℤ) :=
  match validateTransferCreateMsg t with
  | .error e => (s, .error e)
  | .ok () =>
    let hasMailbox := decide (t.mailboxID.length = 16)
    let mid := if hasMailbox then copyArr 16 t.mailboxID else copyArr 16 []
    match if hasMailbox then createTransferQuota s now mid t.totalSize.toNat else .ok () with
    | .error e => (s, .error e)
    | .ok () =>
      match ticket with
      | none => fail s .storageUnavailable "rand failed"
      | some ticket =>
        let tr := createdTransfer H t ticket now
        let s := s.setTransfer id tr
        let s := if hasMailbox then slideMailbox s mid now else s
        (s, .ok (id, ticket.toList, tr.expiresAt))

/-- `t.state = TransferExpired`. -/
def TransferData.expire (t : TransferData) : TransferData :=
  { t with state := .expired }

/-- `getTransferLocked`. A transfer past its deadline and not complete is relabelled. -/
def getTransferLocked (s : MemStore) (id : ID) (now : ℤ) : MemStore × Option TransferData :=
  match s.transfers.lookup id with
  | none => (s, none)
  | some t =>
    if t.expiresAt ≤ now ∧ t.state ≠ .complete then
      (s.setTransfer id t.expire, none)
    else (s, some t)

/-- `getTransferLocked` and what its eight callers do with its answer : a transfer that is
not there is `transfer not found`, one that has expired is `transfer expired`. -/
def findTransfer (s : MemStore) (id : ID) (now : ℤ) : MemStore × Result TransferData :=
  match getTransferLocked s id now with
  | (s, some t) => (s, .ok t)
  | (s, none) =>
    match s.transfers.lookup id with
    | some _ => fail s .transferExpired "transfer expired"
    | none => fail s .transferNotFound "transfer not found"

/-- The rest of an operation on the transfer it finds. -/
def onTransfer {α : Type} (s : MemStore) (id : ID) (now : ℤ)
    (rest : MemStore → TransferData → MemStore × Result α) : MemStore × Result α :=
  match findTransfer s id now with
  | (s, .error e) => (s, .error e)
  | (s, .ok t) => rest s t

/-- `for h < t.chunkCount && t.present[h] { h++ }`, with `n` steps left. -/
def contiguousFrom (present : List Bool) : ℕ → ℕ → ℕ
  | 0, h => h
  | n + 1, h => if present.getD h false then contiguousFrom present n (h + 1) else h

/-- The checks of `PutChunk` on an open transfer, up to the duplicate test. -/
def checkChunk (t : TransferData) (c : ChunkUpload) : Check :=
  failIf (t.state = .complete ∨ t.state = .cancelled) .transferConflict "transfer closed" <|
  failIf (t.chunkCount ≤ c.index.toNat) .chunkOutOfRange "index out of range" <|
  failIf (c.offset.toNat ≠ c.index.toNat * t.chunkSize) .chunkInvalid "offset mismatch" <|
  failIf (c.index.toNat ≠ t.chunkCount - 1 ∧ c.payload.length ≠ t.chunkSize) .chunkInvalid
    "non-final chunk must equal chunk_size" <|
  failIf (c.index.toNat = t.chunkCount - 1 ∧
      c.payload.length ≠ t.totalSize - c.index.toNat * t.chunkSize) .chunkInvalid
    "final chunk size mismatch" <|
  failIf (c.chunkHash.length = 32 ∧ (H c.payload).toList ≠ c.chunkHash) .hashMismatch
    "chunk hash mismatch" <|
  .ok ()

/-- The statements of `PutChunk` that store a new chunk. -/
def storeChunk (t : TransferData) (c : ChunkUpload) (now : ℤ) : TransferData :=
  let i := c.index.toNat
  let present := t.present.set i true
  let isNew := !t.present.getD i false
  let expiresAt := deadline now uploadTTLSeconds
  let cap := deadline t.createdAt uploadTTLMaxSeconds
  { t with
    chunks := t.chunks.insert i c.payload
    hashes := t.hashes.insert i
      (if c.chunkHash.length = 32 then c.chunkHash else (H c.payload).toList)
    present := if isNew then present else t.present
    presentCount := if isNew then t.presentCount + 1 else t.presentCount
    storedBytes := if isNew then t.storedBytes + c.payload.length else t.storedBytes
    state := if t.state = .created then .uploading else t.state
    expiresAt := if cap < expiresAt then cap else expiresAt
    highest := contiguousFrom (if isNew then present else t.present) t.chunkCount 0 }

/-- `PutChunk`. -/
def putChunk (s : MemStore) (now : ℤ) (c : ChunkUpload) : MemStore × Result ℕ :=
  match validateChunkUpload c with
  | .error e => (s, .error e)
  | .ok () =>
    let tid := copyArr 16 c.transferID
    onTransfer s tid now fun s t =>
      match checkChunk H t c with
      | .error e => (s, .error e)
      | .ok () =>
        match t.chunks.lookup c.index.toNat with
        | some old =>
          if old.length = c.payload.length ∧ H old = H c.payload then (s, .ok t.presentCount)
          else fail s .chunkConflict "chunk exists with different bytes"
        | none =>
          if t.hasMailbox ∧ maxStoredBytesPerMailbox <
              mailboxStoredBytesLocked s t.mailboxID + c.payload.length then
            fail s .quotaExceeded "mailbox byte quota"
          else
            let t := storeChunk H t c now
            let s := s.setTransfer tid t
            let s := if t.hasMailbox then slideMailbox s t.mailboxID now else s
            (s, .ok t.presentCount)

/-- The owner check of `GetChunk`, `Resume` and `CancelTransfer` : a transfer bound to a
mailbox asks for that mailbox, live, and its read secret, and slides its TTL. A transfer
without a mailbox asks for nothing. -/
def ownerAuth (s : MemStore) (t : TransferData) (mailboxID : ID) (readSecret : Bytes)
    (now : ℤ) : Result MemStore :=
  if t.hasMailbox then
    if t.mailboxID ≠ mailboxID then .error ⟨.authFailed, "mailbox mismatch", 0⟩
    else
      match getMailboxLocked s mailboxID now with
      | none => .error ⟨.mailboxNotFound, "mailbox not found", 0⟩
      | some mb =>
        if !secretMatches H mb.readSecretHash readSecret then
          .error ⟨.authFailed, "bad read secret", 0⟩
        else .ok (s.setMailbox mailboxID (mb.slide now))
  else .ok s

/-- `checkTicketLocked`. -/
def checkTicketLocked (t : TransferData) (ticket : Bytes) : Check :=
  failIf (ticket.length ≠ 32) .authFailed "ticket must be 32 bytes" <|
  failIf (H ticket ≠ t.downloadSecretHash) .authFailed "bad ticket" <|
  .ok ()

/-- The end of `GetChunk` and `GetChunkByTicket`. -/
def readChunk (t : TransferData) (index : ℕ) : Result (Bytes × Bytes) :=
  if t.chunkCount ≤ index then .error ⟨.chunkOutOfRange, "index out of range", 0⟩
  else
    match t.chunks.lookup index with
    | none => .error ⟨.chunkInvalid, "chunk missing", 0⟩
    | some p => .ok (p, (t.hashes.lookup index).getD [])

/-- `GetChunk`. -/
def getChunk (s : MemStore) (now : ℤ) (transferID mailboxID : ID) (readSecret : Bytes)
    (index : UInt32) : MemStore × Result (Bytes × Bytes) :=
  onTransfer s transferID now fun s t =>
    match ownerAuth H s t mailboxID readSecret now with
    | .error e => (s, .error e)
    | .ok s => (s, readChunk t index.toNat)

/-- `GetChunkByTicket`. -/
def getChunkByTicket (s : MemStore) (now : ℤ) (transferID : ID) (ticket : Bytes)
    (index : UInt32) : MemStore × Result (Bytes × Bytes) :=
  onTransfer s transferID now fun s t =>
    match checkTicketLocked H t ticket with
    | .error e => (s, .error e)
    | .ok () => (s, readChunk t index.toNat)

/-! ## Resume views -/

/-- `TransferView` of a record. -/
def TransferData.view (t : TransferData) (id : ID) : TransferView where
  id := id
  mailboxID := t.mailboxID
  hasMailbox := t.hasMailbox
  totalSize := t.totalSize
  chunkSize := t.chunkSize
  chunkCount := t.chunkCount
  manifest := t.manifest
  senderPub := t.senderPub
  state := t.state
  presentCount := t.presentCount
  highestContiguous := t.highest
  createdAt := t.createdAt
  expiresAt := t.expiresAt

/-- `bm[i/8] |= 1 << (i % 8)`. -/
def setBit (bm : Bytes) (i : ℕ) : Bytes :=
  bm.modify (i / 8) fun b => b ||| UInt8.ofNat (2 ^ (i % 8))

/-- The bitmap loop from index `i` with `n` indexes left. -/
def bitmapLoop (present : List Bool) : ℕ → ℕ → Bytes → Bytes
  | 0, _, bm => bm
  | n + 1, i, bm =>
    bitmapLoop present n (i + 1) (if present.getD i false then setBit bm i else bm)

/-- The state of the ranges loop : finished pairs, and the open gap if there is one. -/
structure GapScan where
  ranges : List (ℕ × ℕ)
  start : ℕ
  run : ℕ
  inGap : Bool

/-- The ranges loop from index `i` with `n` indexes left. It stops once
`MaxMissingRanges` pairs are finished. -/
def gapLoop (present : List Bool) : ℕ → ℕ → GapScan → GapScan
  | 0, _, g => g
  | n + 1, i, g =>
    if !present.getD i false then
      if !g.inGap then gapLoop present n (i + 1) { g with start := i, run := 1, inGap := true }
      else gapLoop present n (i + 1) { g with run := g.run + 1 }
    else if g.inGap then
      let g := { g with ranges := g.ranges ++ [(g.start, g.run)], inGap := false }
      if maxMissingRanges ≤ g.ranges.length then g else gapLoop present n (i + 1) g
    else gapLoop present n (i + 1) g

/-- The pairs of the ranges encoding : the loop, then the open gap if there is one. -/
def missingRanges (present : List Bool) (chunkCount : ℕ) : List (ℕ × ℕ) :=
  let g := gapLoop present chunkCount 0 ⟨[], 0, 0, false⟩
  if g.inGap then g.ranges ++ [(g.start, g.run)] else g.ranges

/-- `EncodeRanges`. -/
def encodeRanges (ranges : List (ℕ × ℕ)) : Bytes :=
  ranges.flatMap fun r => putU32 (UInt32.ofNat r.1) ++ putU32 (UInt32.ofNat r.2)

/-- The resume half of `buildResumeViewLocked`. -/
def TransferData.resumeView (t : TransferData) : ResumeView :=
  if t.chunkCount ≤ 256 then
    { chunkCount := t.chunkCount
      highestContiguous := t.highest
      encoding := .bitmap
      bitmap := bitmapLoop t.present t.chunkCount 0
        (List.replicate ((t.chunkCount + 7) / 8) 0)
      missingRanges := [] }
  else
    { chunkCount := t.chunkCount
      highestContiguous := t.highest
      encoding := .ranges
      bitmap := []
      missingRanges := encodeRanges (missingRanges t.present t.chunkCount) }

/-- `buildResumeViewLocked`. -/
def buildResumeViewLocked (t : TransferData) (transferID : ID) : ResumeView × TransferView :=
  (t.resumeView, t.view transferID)

/-- `Resume`. -/
def resume (s : MemStore) (now : ℤ) (transferID mailboxID : ID) (readSecret : Bytes) :
    MemStore × Result (ResumeView × TransferView) :=
  onTransfer s transferID now fun s t =>
    match ownerAuth H s t mailboxID readSecret now with
    | .error e => (s, .error e)
    | .ok s => (s, .ok (buildResumeViewLocked t transferID))

/-- `Progress`. Knowing the transfer id is enough. -/
def progress (s : MemStore) (now : ℤ) (transferID : ID) :
    MemStore × Result (ResumeView × TransferView) :=
  onTransfer s transferID now fun s t => (s, .ok (buildResumeViewLocked t transferID))

/-- `ResumeByTicket`. -/
def resumeByTicket (s : MemStore) (now : ℤ) (transferID : ID) (ticket : Bytes) :
    MemStore × Result (ResumeView × TransferView) :=
  onTransfer s transferID now fun s t =>
    match checkTicketLocked H t ticket with
    | .error e => (s, .error e)
    | .ok () => (s, .ok (buildResumeViewLocked t transferID))

/-! ## Sealing and removal -/

/-- What `CompleteTransfer` writes to a transfer it seals. -/
def TransferData.seal (t : TransferData) (now : ℤ) : TransferData :=
  { t with state := .complete, expiresAt := deadline now completeTTLSeconds }

/-- `CompleteTransfer`. The source also returns the counts next to the `chunks missing`
error, where its caller drops them. -/
def completeTransfer (s : MemStore) (now : ℤ) (r : TransferComplete) :
    MemStore × Result (Bool × ℕ × ℕ) :=
  match validateTransferComplete r with
  | .error e => (s, .error e)
  | .ok () =>
    let tid := copyArr 16 r.transferID
    onTransfer s tid now fun s t =>
      if t.state = .complete then (s, .ok (true, t.presentCount, t.chunkCount))
      else if t.state = .cancelled then fail s .transferConflict "transfer cancelled"
      else if t.presentCount ≠ t.chunkCount then fail s .transferConflict "chunks missing"
      else
        (s.setTransfer tid (t.seal now), .ok (true, t.presentCount, t.chunkCount))

/-- `CancelTransfer`. It looks the transfer up without the expiry test. -/
def cancelTransfer (s : MemStore) (now : ℤ) (transferID mailboxID : ID) (readSecret : Bytes) :
    MemStore × Result Unit :=
  match s.transfers.lookup transferID with
  | none => fail s .transferNotFound "transfer not found"
  | some t =>
    match ownerAuth H s t mailboxID readSecret now with
    | .error e => (s, .error e)
    | .ok s => ({ s with transfers := s.transfers.erase transferID }, .ok ())

/-- `GetTransfer`. -/
def getTransfer (s : MemStore) (now : ℤ) (transferID : ID) : MemStore × Result TransferView :=
  onTransfer s transferID now fun s t => (s, .ok (t.view transferID))

/-! ## Replay cache and sweeper -/

/-- `for k, exp := range replay { if now >= exp { delete(replay, k) } }`. -/
def pruneReplay (replay : GoMap Digest ℤ) (now : ℤ) : GoMap Digest ℤ :=
  GoMap.collect (fun _ exp => if exp ≤ now then none else some exp) replay

/-- A replay test at time `now` against a cache : `true` is a replay, and otherwise the
expired keys are dropped and `key` is marked for the replay window. -/
def markReplay (replay : GoMap Digest ℤ) (key : Digest) (now : ℤ) : GoMap Digest ℤ × Bool :=
  let fresh := ((pruneReplay replay now).insert key (deadline now replayWindowSeconds), false)
  match replay.lookup key with
  | some exp => if now < exp then (replay, true) else fresh
  | none => fresh

/-- `CheckAndMarkReplay`. -/
def checkAndMarkReplay (s : MemStore) (now : ℤ) (key : Digest) : MemStore × Bool :=
  let r := markReplay s.replay key now
  ({ s with replay := r.1 }, r.2)

/-- The mailbox has a transfer whose deadline has not passed. -/
def hasLiveTransfer (transfers : GoMap ID TransferData) (id : ID) (now : ℤ) : Bool :=
  transfers.sumBy (fun _ t => if t.boundTo id && decide (now < t.expiresAt) then 1 else 0) ≠ 0

/-- What the sweeper leaves of one mailbox. The first test looks at the messages as
stored, the second at those left after pruning, and only the second at transfers. -/
def sweepMailbox (transfers : GoMap ID TransferData) (now : ℤ) (id : ID) (mb : MailboxData) :
    Option MailboxData :=
  if mb.expiresAt ≤ now ∧ mb.messages.length = 0 then none
  else
    let mb := pruneMessagesLocked mb now
    if mb.expiresAt ≤ now ∧ mb.messages.length = 0 ∧ !hasLiveTransfer transfers id now then none
    else some mb

/-- What the sweeper leaves of one transfer. Its two branches delete an expired transfer
whatever its state. -/
def sweepTransfer (now : ℤ) (t : TransferData) : Option TransferData :=
  if t.expiresAt ≤ now ∧ t.state ≠ .complete then none
  else if t.state = .complete ∧ t.expiresAt ≤ now then none
  else some t

/-- Messages the sweeper drops from one mailbox. A mailbox reclaimed by the first test
holds none. -/
def sweptMessages (now : ℤ) (mb : MailboxData) : ℕ :=
  mb.messages.length - (pruneMessagesLocked mb now).messages.length

/-- `Sweep`, with the numbers of messages, transfers and mailboxes it drops. -/
def sweep (s : MemStore) (now : ℤ) : MemStore × (ℕ × ℕ × ℕ) :=
  ({ mailboxes := s.mailboxes.collect (sweepMailbox s.transfers now)
     transfers := s.transfers.collect fun _ t => sweepTransfer now t
     replay := pruneReplay s.replay now },
    s.mailboxes.sumBy (fun _ mb => sweptMessages now mb),
    s.transfers.sumBy (fun _ t => if (sweepTransfer now t).isNone then 1 else 0),
    s.mailboxes.sumBy (fun id mb => if (sweepMailbox s.transfers now id mb).isNone then 1 else 0))

end FileRelay
