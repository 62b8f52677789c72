import FileRelay.Queue
import FileRelay.Upload

/-!
# The byte quota of a mailbox

`MaxStoredBytesPerMailbox` is documented to cover messages and chunks together.
`PutChunk` checks the sum of both. `SendMessage` checks the messages alone, so a message
can be accepted for a mailbox whose transfers already fill the quota.

`quota_iff_sends_fit` says that this is the only gap : a run keeps every mailbox within the
quota in all its states exactly when each message that `SendMessage` would accept still
fits next to the chunks (`SendFits`).
-/

namespace FileRelay

variable (H : Bytes → Digest)

/-! ## The bytes of a mailbox -/

/-- What a transfer counts for in the mailbox `mid`. -/
def boundBytes (mid : ID) (_ : ID) (t : TransferData) : ℕ :=
  if t.boundTo mid then t.chunkBytes else 0

/-- The bytes of the chunks of all transfers bound to a mailbox. -/
def boundChunkBytes (s : MemStore) (mid : ID) : ℕ :=
  s.transfers.sumBy (boundBytes mid)

/-- The bytes of a mailbox, messages and chunks together. -/
def mailboxBytes (s : MemStore) (mid : ID) : ℕ :=
  envelopeBytes (messagesOf s mid) + boundChunkBytes s mid

/-- What a transfer counts for in the sum `CreateTransfer` and `PutChunk` check. -/
def countedBytes (mid : ID) (_ : ID) (t : TransferData) : ℕ :=
  if t.boundTo mid then t.storedBytes + t.manifest.length else 0

/-- That sum with the bytes of the messages in place of the counter of the mailbox. -/
theorem mailboxStoredBytesLocked_eq {s : MemStore} (hb : BytesInv s) (mid : ID) :
    mailboxStoredBytesLocked s mid =
      envelopeBytes (messagesOf s mid) + s.transfers.sumBy (countedBytes mid) := by
  unfold mailboxStoredBytesLocked messagesOf countedBytes
  rcases hmb : s.mailboxes.lookup mid with _ | mb
  · rfl
  · dsimp only
    rw [hb mid mb hmb]

/-- A message `SendMessage` would accept, looking at the messages alone, fits next to the
chunks. -/
def SendFits (s : MemStore) (e : Event) : Prop :=
  ∀ msg id mb, e.op = .sendMessage msg id → validateSendMessage msg = .ok () →
    s.mailboxes.lookup (copyArr 16 msg.mailboxID) = some mb → e.now < mb.expiresAt →
    (live e.now mb.messages).length < maxQueuedMessages →
    envelopeBytes (live e.now mb.messages) + msg.envelope.length ≤ maxStoredBytesPerMailbox →
    envelopeBytes (live e.now mb.messages) + msg.envelope.length +
      boundChunkBytes s (copyArr 16 msg.mailboxID) ≤ maxStoredBytesPerMailbox

/-! ## One call -/

theorem envelopeBytes_le_of_sublist {ms ms' : List StoredMessage} (h : ms.Sublist ms') :
    envelopeBytes ms ≤ envelopeBytes ms' :=
  (h.map fun m : StoredMessage => m.envelope.length).sum_le_sum fun _ _ => Nat.zero_le _

/-- What one transfer counts for grows only when `PutChunk` stores a chunk of it. -/
theorem boundBytes_step (s : MemStore) (e : Event) (mid tid : ID) :
    GoMap.valueAt (boundBytes mid) ((store H).step s e).1.transfers tid ≤
        GoMap.valueAt (boundBytes mid) s.transfers tid ∨
      ∃ c, e.op = .putChunk c ∧ copyArr 16 c.transferID = tid ∧
        mailboxStoredBytesLocked s mid + c.payload.length ≤ maxStoredBytesPerMailbox ∧
        GoMap.valueAt (boundBytes mid) ((store H).step s e).1.transfers tid ≤
          GoMap.valueAt (boundBytes mid) s.transfers tid + c.payload.length := by
  have step := step_transfer H s e tid
  unfold GoMap.valueAt
  generalize ((store H).step s e).1.transfers.lookup tid = o at step ⊢
  rcases step with _ | ⟨r, ticket, -⟩ | ⟨h, -, -⟩ | ⟨c, hop, hid, -, h, -, -, hn, hq, -⟩ |
    ⟨r, -, -, h, -⟩ | _ | _
  · exact Or.inl (Nat.le_refl _)
  · refine Or.inl (Nat.le_trans (Nat.le_of_eq ?_) (Nat.zero_le _))
    exact ite_self 0
  · rw [h]
    exact Or.inl (Nat.le_refl _)
  · rename_i t
    rw [h]
    simp only [Option.elim_some, boundBytes]
    have hb : (storeChunk H t c e.now).boundTo mid = t.boundTo mid := rfl
    rw [hb, chunkBytes_storeChunk e.now hn]
    by_cases hm : t.boundTo mid
    · simp only [TransferData.boundTo, Bool.and_eq_true, decide_eq_true_eq] at hm
      have hquota := hq hm.1
      rw [hm.2] at hquota
      refine Or.inr ⟨c, hop, hid, hquota, ?_⟩
      split_ifs <;> omega
    · rw [if_neg hm]
      exact Or.inl (Nat.zero_le _)
  · rw [h]
    exact Or.inl (Nat.le_refl _)
  · exact Or.inl (Nat.zero_le _)
  · exact Or.inl (Nat.zero_le _)

/-- The chunks of a mailbox grow only when `PutChunk` has checked the quota. -/
theorem chunks_step (s : MemStore) (e : Event) (mid : ID) :
    boundChunkBytes ((store H).step s e).1 mid ≤ boundChunkBytes s mid ∨
      ∃ c, e.op = .putChunk c ∧
        mailboxStoredBytesLocked s mid + c.payload.length ≤ maxStoredBytesPerMailbox ∧
        boundChunkBytes ((store H).step s e).1 mid ≤ boundChunkBytes s mid + c.payload.length := by
  have hsum := GoMap.sumBy_le_or_of_valueAt (boundBytes mid) s.transfers
    ((store H).step s e).1.transfers (p := fun tid n => ∃ c, e.op = .putChunk c ∧
      copyArr 16 c.transferID = tid ∧
      mailboxStoredBytesLocked s mid + c.payload.length ≤ maxStoredBytesPerMailbox ∧
      c.payload.length = n) ?_ fun tid => ?_
  · rcases hsum with hle | ⟨tid, n, ⟨c, hop, -, hq, rfl⟩, hle⟩
    · exact Or.inl hle
    · exact Or.inr ⟨c, hop, hq, hle⟩
  · rintro tid n tid' n' ⟨c, hop, rfl, -⟩ ⟨c', hop', rfl, -⟩
    cases hop.symm.trans hop'
    rfl
  · rcases boundBytes_step H s e mid tid with hle | ⟨c, hop, hid, hq, hle⟩
    · exact Or.inl hle
    · exact Or.inr ⟨_, ⟨c, hop, hid, hq, rfl⟩, hle⟩

/-- The sum `PutChunk` checks covers the bytes of the mailbox. -/
theorem mailboxBytes_le_stored {s : MemStore} (hb : BytesInv s) (ht : StoreInv H s) (mid : ID) :
    mailboxBytes s mid ≤ mailboxStoredBytesLocked s mid := by
  rw [mailboxStoredBytesLocked_eq hb]
  refine Nat.add_le_add_left (GoMap.sumBy_mono fun tid t h => ?_) _
  have hbytes : t.storedBytes = t.chunkBytes := (ht tid t h).storedBytes_eq
  unfold boundBytes countedBytes
  split_ifs
  · rw [← hbytes]
    exact Nat.le_add_right _ _
  · exact Nat.le_refl 0

/-- A call whose message fits keeps every mailbox within the quota. -/
theorem quota_step {s : MemStore} {e : Event} (hb : BytesInv s) (ht : StoreInv H s)
    (hq : ∀ mid, mailboxBytes s mid ≤ maxStoredBytesPerMailbox) (hfit : SendFits s e) (mid : ID) :
    mailboxBytes ((store H).step s e).1 mid ≤ maxStoredBytesPerMailbox := by
  have hmid := hq mid
  have hcover := mailboxBytes_le_stored H hb ht mid
  unfold mailboxBytes at hmid hcover ⊢
  rcases messages_step H s e mid with hm | ⟨msg, id, mb, hop, rfl, hv, h, hl, hn, hbytes, hm⟩
  · have hle := envelopeBytes_le_of_sublist hm
    rcases chunks_step H s e mid with hc | ⟨c, -, hput, hc⟩ <;> omega
  · have hroom := hfit msg id mb hop hv h hl hn hbytes
    rw [messagesOf_enqueue hm, envelopeBytes_append]
    have hnew : envelopeBytes [newMessage msg id e.now] = msg.envelope.length := rfl
    rcases chunks_step H s e (copyArr 16 msg.mailboxID) with hc | ⟨c, hop', -⟩
    · omega
    · rw [hop] at hop'
      cases hop'

/-- A message that is accepted adds to the chunks that are there. -/
theorem mailboxBytes_sent {s : MemStore} {e : Event} {msg : SendMessage} {id : ID}
    {mb : MailboxData} (hop : e.op = .sendMessage msg id) (hv : validateSendMessage msg = .ok ())
    (h : s.mailboxes.lookup (copyArr 16 msg.mailboxID) = some mb) (hl : e.now < mb.expiresAt)
    (hn : (live e.now mb.messages).length < maxQueuedMessages)
    (hb : envelopeBytes (live e.now mb.messages) + msg.envelope.length ≤
      maxStoredBytesPerMailbox) :
    mailboxBytes ((store H).step s e).1 (copyArr 16 msg.mailboxID) =
      envelopeBytes (live e.now mb.messages) + msg.envelope.length +
        boundChunkBytes s (copyArr 16 msg.mailboxID) := by
  have hstep : ((store H).step s e).1 = s.setMailbox (copyArr 16 msg.mailboxID)
      ((pruneMessagesLocked mb e.now).enqueue msg id e.now) := by
    have hn' : ¬maxQueuedMessages ≤ (pruneMessagesLocked mb e.now).messages.length := by
      rw [messages_prune]
      omega
    have hb' : ¬maxStoredBytesPerMailbox <
        (pruneMessagesLocked mb e.now).storedBytes + msg.envelope.length := by
      rw [← messages_prune] at hb
      exact not_lt.mpr hb
    obtain ⟨now, op⟩ := e
    cases hop
    rw [store_step]
    simp only [callStore, withOutput_fst, sendMessage, hv, getMailboxLocked_eq_some.mpr ⟨h, hl⟩,
      if_neg hn', if_neg hb', setMailbox_setMailbox]
  unfold mailboxBytes
  rw [hstep, messagesOf_setMailbox]
  change envelopeBytes ((pruneMessagesLocked mb e.now).messages ++ [newMessage msg id e.now]) +
    boundChunkBytes s _ = _
  rw [messages_prune, envelopeBytes_append]
  rfl

/-! ## Whole runs -/

/-- A run keeps every mailbox within the quota, messages and chunks together, in all its
states exactly when every message that `SendMessage` would accept fits next to the chunks. -/
theorem quota_iff_sends_fit (H : Bytes → Digest) (es : List Event) :
    (∀ pre, pre <+: es → ∀ mid, mailboxBytes (runStore H pre) mid ≤ maxStoredBytesPerMailbox) ↔
      (store H).Along SendFits newMemStore es := by
  induction es using List.reverseRecOn with
  | nil =>
    refine ⟨fun _ => trivial, fun _ pre hpre mid => ?_⟩
    rw [List.prefix_nil.mp hpre]
    exact Nat.zero_le _
  | append_singleton es e ih =>
    rw [Machine.along_concat, ← ih]
    constructor
    · intro h
      refine ⟨fun pre hpre => h pre (hpre.trans (List.prefix_append es [e])), ?_⟩
      intro msg id mb hop hv hmb hl hn hb
      have hafter := h (es ++ [e]) (List.prefix_refl _) (copyArr 16 msg.mailboxID)
      unfold runStore at hafter
      rw [Machine.run_concat, mailboxBytes_sent H hop hv hmb hl hn hb] at hafter
      exact hafter
    · rintro ⟨h, hfit⟩ pre hpre mid
      rcases List.prefix_concat_iff.mp hpre with rfl | hpre
      · unfold runStore
        rw [Machine.run_concat]
        exact quota_step H (bytesInv_run H es) (storeInv_run storeInv_newMemStore es)
          (h es (List.prefix_refl es)) hfit mid
      · exact h pre hpre mid

/-! ### A full mailbox takes a message -/

def fullMailbox : ID := copyArr 16 (List.replicate 16 1)

/-- 16 MiB in chunks of 64 KiB for the mailbox. -/
def fillCreate : TransferCreate :=
  { sampleCreate with
    mailboxID := List.replicate 16 1
    totalSize := 16777216
    chunkSize := 65536
    chunkCount := 256 }

def fillChunk (i : ℕ) : ChunkUpload where
  transferID := sampleID.toList
  index := UInt32.ofNat i
  payload := List.replicate 65536 0
  chunkHash := []
  offset := UInt64.ofNat (i * 65536)

def fillChunks : List ChunkUpload :=
  (List.range 256).map fillChunk

def fillStart : List Event :=
  [⟨0, .createMailbox fullMailbox (copyArr 32 [])⟩,
    ⟨0, .createTransfer fillCreate sampleID (some sampleTicket)⟩]

/-- The transfer is uploaded, then a message of one byte is sent. -/
def fillRun : List Event :=
  fillStart ++ putAll 0 fillChunks ++ [⟨0, .sendMessage (queueSampleSend [5]) (copyArr 16 [1])⟩]

theorem fillChunk_index {i : ℕ} (hi : i < 256) : (fillChunk i).index.toNat = i := by
  simp only [fillChunk, UInt32.toNat_ofNat']
  omega

theorem fillChunk_length (i : ℕ) : (fillChunk i).payload.length = 65536 :=
  List.length_replicate

theorem fillChunk_wellShaped {i : ℕ} (hi : i < 256) :
    WellShaped sampleHash (createdTransfer sampleHash fillCreate sampleTicket 0) (fillChunk i) := by
  have hcount : (createdTransfer sampleHash fillCreate sampleTicket 0).chunkCount = 256 := rfl
  have hsize : (createdTransfer sampleHash fillCreate sampleTicket 0).chunkSize = 65536 := rfl
  have htotal : (createdTransfer sampleHash fillCreate sampleTicket 0).totalSize = 16777216 := rfl
  have hlen := fillChunk_length i
  refine ⟨validateChunkUpload_eq_ok.mpr ⟨rfl, ?_, ?_, fun h => absurd rfl h, ?_⟩, ?_, ?_, ?_, ?_,
    fun h => by cases h⟩
  · omega
  · rw [hlen]
    decide
  · rw [fillChunk_index hi]
    unfold maxChunksPerTransfer
    omega
  · rw [fillChunk_index hi, hcount]
    exact hi
  · rw [fillChunk_index hi, hsize]
    simp only [fillChunk, UInt64.toNat_ofNat']
    omega
  · rw [hlen, hsize]
    exact fun _ => rfl
  · rw [fillChunk_index hi, hcount, hlen, hsize, htotal]
    omega

theorem payloadBytes_fillChunks : payloadBytes fillChunks = 16777216 := by
  have hconst : ∀ i ∈ List.range 256, (fillChunk i).payload.length = 65536 :=
    fun i _ => fillChunk_length i
  unfold payloadBytes fillChunks
  rw [List.map_map]
  change (List.map (fun i => (fillChunk i).payload.length) _).sum = _
  rw [List.map_congr_left hconst, List.map_const', List.length_range, List.sum_replicate]
  norm_num

/-- The upload fills the mailbox, which holds no message. -/
theorem fillChunks_stored :
    let s := (store sampleHash).run (runStore sampleHash fillStart) (putAll 0 fillChunks)
    (∃ mb, s.mailboxes.lookup fullMailbox = some mb ∧ mb.messages = [] ∧ 0 < mb.expiresAt) ∧
      16777216 ≤ boundChunkBytes s fullMailbox := by
  have hstart : (runStore sampleHash fillStart).transfers.lookup sampleID =
      some (createdTransfer sampleHash fillCreate sampleTicket 0) := rfl
  have hmb : (runStore sampleHash fillStart).mailboxes.lookup fullMailbox =
      some ⟨copyArr 32 [], [], mailboxDeadline 0, 0⟩ := rfl
  have hid : (createdTransfer sampleHash fillCreate sampleTicket 0).mailboxID = fullMailbox := rfl
  have hto : (createdTransfer sampleHash fillCreate sampleTicket 0).boundTo fullMailbox = true := by
    decide
  have hempty : (createdTransfer sampleHash fillCreate sampleTicket 0).chunkBytes = 0 := rfl
  have hindex : (fillChunks.map fun c => c.index.toNat) = List.range 256 := by
    unfold fillChunks
    rw [List.map_map]
    refine (List.map_congr_left fun i hi => ?_).trans (List.map_id _)
    exact fillChunk_index (List.mem_range.mp hi)
  have hshape : ∀ c ∈ fillChunks, WellShaped sampleHash
      (createdTransfer sampleHash fillCreate sampleTicket 0) c ∧
        copyArr 16 c.transferID = sampleID := by
    intro c hc
    obtain ⟨i, hi, rfl⟩ := List.mem_map.mp hc
    exact ⟨fillChunk_wellShaped (List.mem_range.mp hi), rfl⟩
  have hroom : mailboxStoredBytesLocked (runStore sampleHash fillStart) fullMailbox +
      payloadBytes fillChunks ≤ maxStoredBytesPerMailbox := by
    rw [payloadBytes_fillChunks]
    decide +kernel
  obtain ⟨t', htr, hup, hslides⟩ := uploads_stored 0 fillChunks hstart
    ⟨rfl, by decide, by decide, by decide⟩ ⟨hshape, hindex ▸ List.nodup_range, fun c _ => rfl⟩
    fun _ => hid ▸ hroom
  refine ⟨?_, ?_⟩
  · rcases hslides fullMailbox with h | ⟨mb, h, h'⟩
    · exact ⟨_, h.trans hmb, rfl, by decide⟩
    · rw [hmb] at h
      cases h
      exact ⟨_, h', rfl, by decide⟩
  · have hbound : boundBytes fullMailbox sampleID t' = 16777216 := by
      unfold boundBytes
      rw [hup.boundTo_eq, hup.chunkBytes_eq, payloadBytes_fillChunks, if_pos hto, hempty,
        Nat.zero_add]
    unfold boundChunkBytes
    rw [htr, ← hbound]
    exact GoMap.le_sumBy _ (Finmap.lookup_insert _)

theorem full_mailbox_takes_message :
    ¬mailboxBytes (runStore sampleHash fillRun) fullMailbox ≤ maxStoredBytesPerMailbox := by
  obtain ⟨⟨mb, hmb, hmsgs, hexp⟩, hchunks⟩ := fillChunks_stored
  unfold fillRun runStore
  rw [Machine.run_concat, Machine.run_append]
  unfold runStore at hmb hchunks
  generalize (store sampleHash).run ((store sampleHash).run newMemStore fillStart)
    (putAll 0 fillChunks) = s at hmb hchunks ⊢
  have hlive : live 0 mb.messages = [] := by
    rw [hmsgs]
    rfl
  have hbytes := mailboxBytes_sent sampleHash (e := ⟨0, .sendMessage (queueSampleSend [5])
    (copyArr 16 [1])⟩) rfl rfl hmb hexp (by rw [hlive]; decide) (by rw [hlive]; decide)
  change mailboxBytes _ fullMailbox = _ + boundChunkBytes s fullMailbox at hbytes
  have hlen : (queueSampleSend [5]).envelope.length = 1 := rfl
  rw [hbytes, hlen]
  unfold maxStoredBytesPerMailbox
  omega

end FileRelay
