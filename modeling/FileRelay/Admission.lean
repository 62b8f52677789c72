import FileRelay.Isolation
import FileRelay.Quota
import FileRelay.RoundTrip

/-!
# Admission

`CreateTransfer` admits a transfer if the bytes stored for its mailbox together with its
total size are within the quota. `PutChunk` checks the same quota against a sum that also
counts the manifest of the transfer itself. So within a manifest of the quota a transfer is
admitted whose last chunks are refused.

`Honoured` says what an admission promises : over every `Quiet` continuation, in which
nothing else is added to the mailbox, every missing chunk is accepted, and once all are
there `CompleteTransfer` seals the transfer. `admission_honoured_iff` says that it is kept
exactly when the manifest fits as well.
-/

namespace FileRelay

open Chunking

/-! ## What a create promises -/

/-- The sum `PutChunk` checks, without the transfer `tid`. -/
def bytesWithout (s : MemStore) (tid mid : ID) : ℕ :=
  mailboxStoredBytesLocked { s with transfers := s.transfers.erase tid } mid

/-- A call before the deadline of the transfer `tid` that sends no message to the mailbox
`mid`, creates and writes no other transfer bound to it, and does not take the transfer
away. -/
def Quiet (tid mid : ID) (s : MemStore) (e : Event) : Prop :=
  (∀ t, s.transfers.lookup tid = some t → e.now < t.expiresAt) ∧
    match e.op with
    | .sendMessage msg _ => namedID msg.mailboxID ≠ some mid
    | .createTransfer r id _ => namedID r.mailboxID ≠ some mid ∧ id ≠ tid
    | .putChunk c => namedID c.transferID ≠ some tid →
        (namedID c.transferID).bind (ownerOf s) ≠ some mid
    | .cancelTransfer id _ _ => id ≠ tid
    | _ => True

variable (H : Bytes → Digest)

/-- Every chunk that is missing is accepted, and with all of them there the transfer can be
sealed. -/
def Uploadable (s : MemStore) (tid : ID) (t : TransferData) : Prop :=
  (∀ now c, now < t.expiresAt → copyArr 16 c.transferID = tid → WellShaped H t c →
      t.chunks.lookup c.index.toNat = none → ∃ n, (putChunk H s now c).2 = .ok n) ∧
    ∀ now q, now < t.expiresAt → copyArr 16 q.transferID = tid →
      validateTransferComplete q = .ok () → (∀ i < t.chunkCount, i ∈ t.chunks) →
      (completeTransfer s now q).2 = .ok (true, t.chunkCount, t.chunkCount) ∧
        ∃ t', (completeTransfer s now q).1.transfers.lookup tid = some t' ∧ t'.state = .complete

/-- The admission of the transfer `tid` is honoured at every point of every quiet
continuation. -/
def Honoured (s : MemStore) (tid mid : ID) : Prop :=
  ∀ fs, (store H).Along (Quiet tid mid) s fs →
    ∃ t, ((store H).run s fs).transfers.lookup tid = some t ∧
      Uploadable H ((store H).run s fs) tid t

/-! ## Quiet calls -/

variable {H}

theorem mailboxStoredBytesLocked_bound {s : MemStore} {tid mid : ID} {t : TransferData}
    (h : s.transfers.lookup tid = some t) (hb : t.boundTo mid = true) :
    mailboxStoredBytesLocked s mid =
      bytesWithout s tid mid + (t.storedBytes + t.manifest.length) := by
  have hsum := GoMap.sumBy_erase_add (countedBytes mid) h
  have hcount : countedBytes mid tid t = t.storedBytes + t.manifest.length := if_pos hb
  have hall : mailboxStoredBytesLocked s mid =
      _ + s.transfers.sumBy (countedBytes mid) := rfl
  have hrest : bytesWithout s tid mid =
      _ + GoMap.sumBy (countedBytes mid) (s.transfers.erase tid) := rfl
  rw [hall, hrest, hsum, hcount, Nat.add_comm (_ + _) (GoMap.sumBy _ _), ← Nat.add_assoc]

theorem bytesWithout_eq {s : MemStore} (hb : BytesInv s) (tid mid : ID) :
    bytesWithout s tid mid = envelopeBytes (messagesOf s mid) +
      GoMap.sumBy (countedBytes mid) (s.transfers.erase tid) :=
  mailboxStoredBytesLocked_eq (s := { s with transfers := s.transfers.erase tid }) hb mid

/-- What a transfer other than `tid` counts for does not grow. -/
theorem countedBytes_step {s : MemStore} {e : Event} {tid mid : ID} (hq : Quiet tid mid s e)
    {x : ID} (hx : x ≠ tid) :
    GoMap.valueAt (countedBytes mid) ((store H).step s e).1.transfers x ≤
      GoMap.valueAt (countedBytes mid) s.transfers x := by
  have step := step_transfer H s e x
  unfold GoMap.valueAt
  generalize ((store H).step s e).1.transfers.lookup x = o at step ⊢
  rcases step with _ | ⟨r, ticket, hop, -, -, -⟩ | ⟨h, -, -⟩ | ⟨c, hop, hid, hv, h, -, -, -, -, -⟩ |
    ⟨r, -, -, h, -⟩ | _ | _
  · exact Nat.le_refl _
  · have hne : ¬(createdTransfer H r ticket e.now).boundTo mid = true := by
      rw [boundTo_createdTransfer]
      have hcreate := hq.2
      rw [hop] at hcreate
      exact hcreate.1
    rw [Option.elim_some, countedBytes, if_neg hne]
    exact Nat.zero_le _
  · rw [h]
    exact Nat.le_refl _
  · rename_i t
    have hnamed : namedID c.transferID = some x :=
      namedID_eq_some.mpr ⟨(validateChunkUpload_eq_ok.mp hv).1, hid⟩
    have hne : ¬t.boundTo mid = true := by
      intro hb
      have hput := hq.2
      rw [hop] at hput
      refine hput (by rw [hnamed]; exact fun hc => hx (Option.some.inj hc)) ?_
      rw [hnamed, Option.bind_some]
      exact ownerOf_eq_some.mpr ⟨t, h, hb⟩
    have hne' : ¬(storeChunk H t c e.now).boundTo mid = true := hne
    rw [Option.elim_some, countedBytes, if_neg hne']
    exact Nat.zero_le _
  · rw [h]
    exact Nat.le_refl _
  · exact Nat.zero_le _
  · exact Nat.zero_le _

/-- A quiet call does not raise what the rest of the mailbox counts for. -/
theorem bytesWithout_step {s : MemStore} {e : Event} {tid mid : ID} (hb : BytesInv s)
    (hq : Quiet tid mid s e) :
    bytesWithout ((store H).step s e).1 tid mid ≤ bytesWithout s tid mid := by
  rw [bytesWithout_eq hb, bytesWithout_eq (bytesInv_step H s e hb)]
  refine Nat.add_le_add ?_ (GoMap.sumBy_le_of_valueAt _ fun x => ?_)
  · rcases messages_step H s e mid with hm | ⟨msg, id, mb, hop, hid, hv, -⟩
    · exact envelopeBytes_le_of_sublist hm
    · have hsend := hq.2
      rw [hop] at hsend
      exact absurd (namedID_eq_some.mpr ⟨(validateSendMessage_eq_ok.mp hv).1, hid⟩) hsend
  · rw [GoMap.valueAt_erase, GoMap.valueAt_erase]
    split_ifs with hx
    · exact Nat.le_refl _
    · exact countedBytes_step hq hx

/-- The transfer takes chunks or is sealed. -/
def TransferData.Active (t : TransferData) : Prop :=
  t.state ≠ .cancelled ∧ t.state ≠ .expired

theorem active_created (r : TransferCreate) (ticket : ByteArr 32) (now : ℤ) :
    (createdTransfer H r ticket now).Active :=
  ⟨nofun, nofun⟩

/-- A quiet call keeps the transfer. -/
theorem active_step {s : MemStore} {e : Event} {tid mid : ID} {t : TransferData}
    (hq : Quiet tid mid s e) (ht : s.transfers.lookup tid = some t) (ha : t.Active) :
    ∃ t', ((store H).step s e).1.transfers.lookup tid = some t' ∧ t'.fixed = t.fixed ∧
      t'.Active := by
  have hlive := hq.1 t ht
  have step := step_transfer H s e tid
  generalize ho : ((store H).step s e).1.transfers.lookup tid = o at step
  rcases step with _ | ⟨r, ticket, hop, -, -, -⟩ | ⟨h, late, -⟩ | ⟨c, -, -, -, h, -, -, -, -, -⟩ |
    ⟨r, -, -, h, -⟩ | ⟨mid', secret, hop, -, -, -⟩ | ⟨-, h, late⟩
  · exact ⟨t, ht, rfl, ha⟩
  · have hcreate := hq.2
    rw [hop] at hcreate
    exact absurd rfl hcreate.2
  · cases ht.symm.trans h
    exact absurd hlive (not_lt.mpr late)
  · cases ht.symm.trans h
    refine ⟨_, rfl, rfl, ?_⟩
    change (if t.state = .created then TransferState.uploading else t.state) ≠ _ ∧
      (if t.state = .created then TransferState.uploading else t.state) ≠ _
    split_ifs
    · exact ⟨nofun, nofun⟩
    · exact ha
  · cases ht.symm.trans h
    exact ⟨_, rfl, rfl, nofun, nofun⟩
  · have hcancel := hq.2
    rw [hop] at hcancel
    exact absurd rfl hcancel
  · cases ht.symm.trans h
    exact absurd hlive (not_lt.mpr late)

/-! ## The manifest fits -/

/-- A state a quiet continuation reaches from the create of `t₀`. -/
structure Admitted (H : Bytes → Digest) (tid mid : ID) (t₀ : TransferData) (room : ℕ)
    (s : MemStore) : Prop where
  wellFormed : StoreInv H s
  counters : BytesInv s
  others : bytesWithout s tid mid ≤ room
  transfer : ∃ t, s.transfers.lookup tid = some t ∧ t.fixed = t₀.fixed ∧ t.Active

theorem admitted_step {s : MemStore} {e : Event} {tid mid : ID} {t₀ : TransferData} {room : ℕ}
    (hq : Quiet tid mid s e) (inv : Admitted H tid mid t₀ room s) :
    Admitted H tid mid t₀ room ((store H).step s e).1 := by
  obtain ⟨t, ht, hfixed, ha⟩ := inv.transfer
  obtain ⟨t', ht', hfixed', ha'⟩ := active_step (H := H) hq ht ha
  exact ⟨storeInv_step s e inv.wellFormed, bytesInv_step H s e inv.counters,
    (bytesWithout_step inv.counters hq).trans inv.others, t', ht', hfixed'.trans hfixed, ha'⟩

/-- A missing chunk fits the total size next to the chunks that are there. -/
theorem storedBytes_add_le {t : TransferData} {c : ChunkUpload} (wf : WellFormed H t)
    (hc : WellShaped H t c) (hn : t.chunks.lookup c.index.toNat = none) :
    t.storedBytes + c.payload.length ≤ t.totalSize := by
  have hlen : ∀ i p, (t.chunks.insert c.index.toNat c.payload).lookup i = some p →
      i < t.chunkCount ∧ p.length ≤ chunkLength t.totalSize t.chunkSize t.chunkCount i := by
    intro i p hp
    rw [GoMap.lookup_insert_eq] at hp
    unfold chunkLength lastLength
    split_ifs at hp with hi
    · cases hp
      rw [hi]
      refine ⟨hc.index_lt, ?_⟩
      split_ifs with hlast
      · exact (hc.length_full (by omega)).le
      · have hidx : c.index.toNat = t.chunkCount - 1 := by have := hc.index_lt; omega
        rw [hc.length_last hidx, hidx]
    · have hlt := wf.key_lt i (Finmap.mem_of_lookup_eq_some hp)
      refine ⟨hlt, ?_⟩
      split_ifs with hlast
      · exact (wf.length_full i p hp hlast).le
      · obtain rfl : i = t.chunkCount - 1 := by omega
        exact (wf.length_last p hp).le
  have hsum : GoMap.sumBy (fun _ p => p.length) (t.chunks.insert c.index.toNat c.payload) ≤ _ :=
    GoMap.sumBy_le_range hlen
  rw [wf.fits.sum_chunkLength,
    GoMap.sumBy_insert_of_notMem _ (Finmap.lookup_eq_none.mp hn)] at hsum
  have := wf.storedBytes_eq
  omega

theorem uploadable_of_room {s : MemStore} {tid mid : ID} {t₀ : TransferData} {room : ℕ}
    (inv : Admitted H tid mid t₀ room s) (hb : t₀.boundTo mid = true)
    (hroom : room + t₀.manifest.length + t₀.totalSize ≤ maxStoredBytesPerMailbox) :
    ∃ t, s.transfers.lookup tid = some t ∧ Uploadable H s tid t := by
  obtain ⟨t, ht, hfixed, hcancelled, -⟩ := inv.transfer
  have wf := inv.wellFormed tid t ht
  simp only [TransferData.fixed, Prod.mk.injEq] at hfixed
  obtain ⟨⟨hmid, hhas⟩, -, ⟨htotal, -, -⟩, hman, -, -⟩ := hfixed
  refine ⟨t, ht, ?_, ?_⟩
  · intro now c hlive hid hc hn
    rw [← hid] at ht
    have hopen : t.state ≠ .complete := fun hs =>
      Finmap.lookup_eq_none.mp hn (wf.mem_chunks_of_full (wf.complete hs) _ hc.index_lt)
    refine ⟨_, congrArg Prod.snd
      (putChunk_accepts ht ⟨hopen, hcancelled⟩ hlive hc hn fun _ => ?_)⟩
    have hbt : t.boundTo mid = true := by
      rw [boundTo_iff] at hb ⊢
      rwa [hhas, hmid]
    have hsum := mailboxStoredBytesLocked_bound ht hbt
    have hfit := storedBytes_add_le wf hc hn
    have hothers := inv.others
    rw [hid] at hsum
    rw [(boundTo_iff.mp hbt).2, hsum, hman]
    omega
  · intro now q hlive hid hv hall
    rw [← hid] at ht ⊢
    obtain ⟨s', t', hdo, ht', hs', -⟩ := completeTransfer_seals hv ht hlive hcancelled
      (wf.presentCount_eq_chunkCount hall)
    rw [hdo]
    exact ⟨rfl, t', ht', hs'⟩

/-! ## The manifest does not fit -/

/-- A quiet call keeps the promise. -/
theorem Honoured.step {s : MemStore} {tid mid : ID} (h : Honoured H s tid mid) {e : Event}
    (hq : Quiet tid mid s e) : Honoured H ((store H).step s e).1 tid mid :=
  fun fs hfs => h (e :: fs) ⟨hq, hfs⟩

theorem mailboxStoredBytesLocked_putStore {s : MemStore} (now : ℤ) {t : TransferData}
    {c : ChunkUpload} {mid : ID} (h : s.transfers.lookup (copyArr 16 c.transferID) = some t)
    (hb : t.boundTo mid = true) (wf : WellFormed H t) (hc : checkChunk H t c = .ok ())
    (hn : t.chunks.lookup c.index.toNat = none) :
    mailboxStoredBytesLocked (putStore H s now c t) mid =
      mailboxStoredBytesLocked s mid + c.payload.length := by
  have hlook : (putStore H s now c t).transfers.lookup (copyArr 16 c.transferID) =
      some (storeChunk H t c now) := by
    rw [putStore_transfers, lookup_setTransfer, if_pos rfl]
  have hstored : (storeChunk H t c now).storedBytes = t.storedBytes + c.payload.length := by
    rw [storeChunk_eq now wf hc hn]
  have hwithout : bytesWithout (putStore H s now c t) (copyArr 16 c.transferID) mid =
      bytesWithout s (copyArr 16 c.transferID) mid := by
    unfold bytesWithout mailboxStoredBytesLocked
    rw [putStore_transfers]
    change _ + GoMap.sumBy _ ((s.transfers.insert _ _).erase _) = _
    rw [GoMap.erase_insert_eq]
    rcases onlySlides_putStore H s now c t mid with hm | ⟨mb, hm, hm'⟩
    · rw [hm]
    · rw [hm, hm']
      rfl
  rw [mailboxStoredBytesLocked_bound hlook hb, mailboxStoredBytesLocked_bound h hb, hwithout,
    hstored]
  change _ + (_ + t.manifest.length) = _
  omega

/-- If the promise is kept, pending chunks fit the quota together. -/
theorem room_of_honoured {tid mid : ID} (now : ℤ) : ∀ {cs : List ChunkUpload} {s : MemStore}
    {t : TransferData}, cs ≠ [] → Honoured H s tid mid → StoreInv H s →
    s.transfers.lookup tid = some t → t.boundTo mid = true → Open t now → Pending H tid t cs →
    mailboxStoredBytesLocked s mid + payloadBytes cs ≤ maxStoredBytesPerMailbox
  | [], _, _, hne, _, _, _, _, _, _ => absurd rfl hne
  | c :: cs, s, t, _, hon, inv, ht, hb, ho, hpend => by
    obtain ⟨hshape, rfl⟩ := hpend.shaped c List.mem_cons_self
    have hn := hpend.missing c List.mem_cons_self
    have wf := inv _ t ht
    have hcheck := hshape.checkChunk ho.state_ne
    -- the promise at this point : the chunk is accepted, so it fits
    obtain ⟨n, hput⟩ : ∃ n, (putChunk H s now c).2 = .ok n := by
      obtain ⟨t', ht', hup, -⟩ := hon [] trivial
      cases ht.symm.trans ht'
      exact hup now c ho.live rfl hshape hn
    have hfit : mailboxStoredBytesLocked s mid + c.payload.length ≤ maxStoredBytesPerMailbox := by
      have hout := putChunk_outcome H s now c
      generalize putChunk H s now c = res at hout hput
      rcases hout with _ | _ | ⟨ht', -, -, hold, -, -⟩ | ⟨-, ht', -, -, -, hq⟩
      · cases hput
      · cases hput
      · cases ht.symm.trans ht'
        rw [hn] at hold
        cases hold
      · cases ht.symm.trans ht'
        obtain ⟨hm, rfl⟩ := boundTo_iff.mp hb
        exact hq hm
    have hquiet : Quiet (copyArr 16 c.transferID) mid s ⟨now, .putChunk c⟩ := by
      refine ⟨fun t' ht' => ?_, fun hne => absurd ?_ hne⟩
      · cases ht.symm.trans ht'
        exact ho.live
      · exact namedID_eq_some.mpr ⟨(validateChunkUpload_eq_ok.mp hshape.valid).1, rfl⟩
    have hstep : ((store H).step s ⟨now, .putChunk c⟩).1 = putStore H s now c t :=
      putChunk_store H ht hn hput
    have hon' := hon.step hquiet
    have inv' := storeInv_step s ⟨now, .putChunk c⟩ inv
    rw [hstep] at hon' inv'
    have hsum := mailboxStoredBytesLocked_putStore now ht hb wf hcheck hn
    have hbytes : payloadBytes (c :: cs) = c.payload.length + payloadBytes cs := rfl
    by_cases hlast : cs = []
    · rw [hbytes, hlast]
      exact hfit
    · have ih := room_of_honoured now (t := storeChunk H t c now) hlast hon' inv'
        (by rw [putStore_transfers, lookup_setTransfer, if_pos rfl]) hb (ho.storeChunk c)
        (hpend.storeChunk now)
      rw [hsum] at ih
      omega

/-- The chunk of zeros at an index. -/
def zeroChunk (t : TransferData) (tid : ID) (i : ℕ) : ChunkUpload where
  transferID := tid.toList
  index := UInt32.ofNat i
  payload := List.replicate (chunkLength t.totalSize t.chunkSize t.chunkCount i) 0
  chunkHash := []
  offset := UInt64.ofNat (i * t.chunkSize)

theorem zeroChunk_index {t : TransferData} (wf : WellFormed H t) (tid : ID) {i : ℕ}
    (hi : i < t.chunkCount) : (zeroChunk t tid i).index.toNat = i := by
  have := wf.chunkCount_le
  unfold maxChunksPerTransfer at this
  simp only [zeroChunk, UInt32.toNat_ofNat']
  omega

theorem zeroChunk_wellShaped {t : TransferData} (wf : WellFormed H t) (tid : ID) {i : ℕ}
    (hi : i < t.chunkCount) : WellShaped H t (zeroChunk t tid i) := by
  have hcount := wf.chunkCount_le
  have hsize := wf.chunkSize_le
  have hidx := zeroChunk_index wf tid hi
  have hlen : (zeroChunk t tid i).payload.length =
      chunkLength t.totalSize t.chunkSize t.chunkCount i := List.length_replicate
  have hmul : i * t.chunkSize ≤ 16384 * 65536 :=
    Nat.mul_le_mul (hi.le.trans hcount) hsize
  have hpos := wf.fits.size_pos
  have hlastpos := wf.fits.last_pos
  have hlastle := wf.fits.last_le
  have hbounds : 1 ≤ chunkLength t.totalSize t.chunkSize t.chunkCount i ∧
      chunkLength t.totalSize t.chunkSize t.chunkCount i ≤ t.chunkSize := by
    unfold chunkLength
    split_ifs <;> omega
  refine ⟨validateChunkUpload_eq_ok.mpr ⟨tid.toList_length, by omega, by omega,
    fun h => absurd rfl h, ?_⟩, ?_, ?_, ?_, ?_, fun h => by cases h⟩
  · rw [hidx]
    unfold maxChunksPerTransfer at *
    omega
  · rwa [hidx]
  · rw [hidx]
    simp only [zeroChunk, UInt64.toNat_ofNat']
    omega
  · rw [hidx, hlen]
    intro hlast
    exact if_pos (by omega)
  · rw [hidx, hlen]
    intro hlast
    rw [chunkLength, if_neg (by omega), lastLength, hlast]

/-! ## The theorem -/

theorem bytesWithout_createStore {s : MemStore} (now : ℤ) (r : TransferCreate) (id : ID)
    (ticket : ByteArr 32) (mid : ID) :
    bytesWithout (createStore H s now r id ticket) id mid = bytesWithout s id mid := by
  unfold bytesWithout mailboxStoredBytesLocked
  rw [createStore_transfers]
  change _ + GoMap.sumBy _ ((s.transfers.insert _ _).erase _) = _
  rw [GoMap.erase_insert_eq]
  rcases onlySlides_createStore H s now r id ticket mid with hm | ⟨mb, hm, hm'⟩
  · rw [hm]
  · rw [hm, hm']
    rfl

/-- The chunks of zeros of a transfer fill it. -/
theorem payloadBytes_zeroChunks {t : TransferData} (wf : WellFormed H t) (tid : ID) :
    payloadBytes ((List.range t.chunkCount).map (zeroChunk t tid)) = t.totalSize := by
  have hlen : ∀ i ∈ List.range t.chunkCount, (zeroChunk t tid i).payload.length =
      chunkLength t.totalSize t.chunkSize t.chunkCount i := fun i _ => List.length_replicate
  unfold payloadBytes
  rw [List.map_map]
  change (List.map (fun i => (zeroChunk t tid i).payload.length) _).sum = _
  rw [List.map_congr_left hlen, wf.fits.sum_chunkLength]

/-- What a create that succeeds for a mailbox leaves. -/
theorem created_for_mailbox {s : MemStore} {now : ℤ} {r : TransferCreate} {id : ID}
    {ticket : Option (ByteArr 32)} {x : ID × Bytes × ℤ} (hmid : r.mailboxID.length = 16)
    (hok : (createTransfer H s now r id ticket).2 = .ok x) :
    ∃ tk t, (createTransfer H s now r id ticket).1 = createStore H s now r id tk ∧
      t = createdTransfer H r tk now ∧ (createStore H s now r id tk).transfers.lookup id = some t ∧
      t.boundTo (copyArr 16 r.mailboxID) = true ∧ WellFormed H t := by
  have hout := createTransfer_outcome H s now r id ticket
  generalize createTransfer H s now r id ticket = res at hout hok ⊢
  rcases hout with _ | ⟨tk, hv, -⟩
  · cases hok
  · refine ⟨tk, _, rfl, rfl, ?_, ?_, wellFormed_created H tk now hv⟩
    · rw [createStore_transfers, lookup_setTransfer, if_pos rfl]
    · exact (boundTo_createdTransfer H tk now).mpr (namedID_eq_some.mpr ⟨hmid, rfl⟩)

/-- Where the manifest fits as well, the admission is honoured. -/
theorem honoured_of_room {s : MemStore} {now : ℤ} {r : TransferCreate} {id : ID}
    {ticket : Option (ByteArr 32)} {x : ID × Bytes × ℤ} (inv : StoreInv H s) (hb : BytesInv s)
    (hmid : r.mailboxID.length = 16) (hok : (createTransfer H s now r id ticket).2 = .ok x)
    (hroom : bytesWithout s id (copyArr 16 r.mailboxID) + r.manifest.length + r.totalSize.toNat ≤
      maxStoredBytesPerMailbox) :
    Honoured H (createTransfer H s now r id ticket).1 id (copyArr 16 r.mailboxID) := by
  have inv' := storeInv_step s ⟨now, .createTransfer r id ticket⟩ inv
  have hb' := bytesInv_step H s ⟨now, .createTransfer r id ticket⟩ hb
  rw [store_step, callStore, withOutput_fst] at inv' hb'
  obtain ⟨tk, t, hstore, rfl, ht, hbound, -⟩ := created_for_mailbox hmid hok
  rw [hstore] at inv' hb' ⊢
  intro fs hfs
  have start : Admitted H id (copyArr 16 r.mailboxID) (createdTransfer H r tk now)
      (bytesWithout s id (copyArr 16 r.mailboxID)) (createStore H s now r id tk) :=
    ⟨inv', hb', (bytesWithout_createStore now r id tk _).le, _, ht, rfl, active_created r tk now⟩
  have hall := Machine.along_induction (fun s e => admitted_step) hfs start
  exact uploadable_of_room hall hbound hroom

/-- Before its deadline, wherever the sums of the create have put it, a new transfer takes
chunks. -/
theorem exists_open (r : TransferCreate) (tk : ByteArr 32) (now : ℤ) :
    ∃ before, Open (createdTransfer H r tk now) before := by
  have hday := neg_two_pow_le_toInt64 (now + uploadTTLSeconds * 1000)
  have hweek := neg_two_pow_le_toInt64 (now + uploadTTLMaxSeconds * 1000)
  refine ⟨-2 ^ 63 - 1, rfl, ?_, ?_, ?_⟩
  · change _ < toInt64 (now + uploadTTLSeconds * 1000)
    omega
  · rw [deadline_of_fits] <;> unfold uploadTTLSeconds <;> omega
  · change _ < toInt64 (now + uploadTTLMaxSeconds * 1000)
    omega

/-- Where it does not, some chunk is refused. -/
theorem room_of_admission {s : MemStore} {now : ℤ} {r : TransferCreate} {id : ID}
    {ticket : Option (ByteArr 32)} {x : ID × Bytes × ℤ} (inv : StoreInv H s)
    (hmid : r.mailboxID.length = 16) (hok : (createTransfer H s now r id ticket).2 = .ok x)
    (hon : Honoured H (createTransfer H s now r id ticket).1 id (copyArr 16 r.mailboxID)) :
    bytesWithout s id (copyArr 16 r.mailboxID) + r.manifest.length + r.totalSize.toNat ≤
      maxStoredBytesPerMailbox := by
  have inv' := storeInv_step s ⟨now, .createTransfer r id ticket⟩ inv
  rw [store_step, callStore, withOutput_fst] at inv'
  obtain ⟨tk, t, hstore, ht', ht, hbound, wf⟩ := created_for_mailbox hmid hok
  rw [hstore] at hon inv'
  obtain ⟨before, hopen⟩ : ∃ before, Open t before := by
    rw [ht']
    exact exists_open r tk now
  have hidx : ((List.range t.chunkCount).map (zeroChunk t id)).map (fun c => c.index.toNat) =
      List.range t.chunkCount := by
    rw [List.map_map]
    refine (List.map_congr_left fun i hi => ?_).trans (List.map_id _)
    exact zeroChunk_index wf id (List.mem_range.mp hi)
  have hne : (List.range t.chunkCount).map (zeroChunk t id) ≠ [] := by
    have := wf.fits.count_pos
    simp only [ne_eq, List.map_eq_nil_iff, List.range_eq_nil]
    omega
  have hpend : Pending H id t ((List.range t.chunkCount).map (zeroChunk t id)) := by
    refine ⟨fun c hc => ?_, by rw [hidx]; exact List.nodup_range, fun c _ => by rw [ht']; rfl⟩
    obtain ⟨i, hi, rfl⟩ := List.mem_map.mp hc
    exact ⟨zeroChunk_wellShaped wf id (List.mem_range.mp hi), copyArr_self id⟩
  have hroom := room_of_honoured before hne hon inv' ht hbound hopen hpend
  rw [payloadBytes_zeroChunks wf, mailboxStoredBytesLocked_bound ht hbound,
    bytesWithout_createStore, ht'] at hroom
  change _ + (0 + r.manifest.length) + r.totalSize.toNat ≤ _ at hroom
  omega

/-- In a reachable store, the admission of a transfer for a mailbox is honoured exactly when
the manifest fits the quota next to the bytes that are stored and the total size. -/
theorem admission_honoured_iff (H : Bytes → Digest) (es : List Event) (now : ℤ)
    (r : TransferCreate) (id : ID) (ticket : Option (ByteArr 32)) (x : ID × Bytes × ℤ)
    (hmid : r.mailboxID.length = 16)
    (hok : (createTransfer H (runStore H es) now r id ticket).2 = .ok x) :
    Honoured H (createTransfer H (runStore H es) now r id ticket).1 id (copyArr 16 r.mailboxID) ↔
      bytesWithout (runStore H es) id (copyArr 16 r.mailboxID) + r.manifest.length +
        r.totalSize.toNat ≤ maxStoredBytesPerMailbox :=
  ⟨room_of_admission (storeInv_run storeInv_newMemStore es) hmid hok,
    honoured_of_room (storeInv_run storeInv_newMemStore es) (bytesInv_run H es) hmid hok⟩

/-- The mailbox is registered. -/
def admissionStart : List Event :=
  [⟨0, .createMailbox fullMailbox (copyArr 32 [])⟩]

theorem admission_honoured_sampleCreate :
    Honoured sampleHash (createTransfer sampleHash (runStore sampleHash admissionStart) 0
      { sampleCreate with mailboxID := List.replicate 16 1, manifest := [0] } sampleID
      (some sampleTicket)).1 sampleID fullMailbox :=
  (admission_honoured_iff sampleHash admissionStart 0
    { sampleCreate with mailboxID := List.replicate 16 1, manifest := [0] } sampleID
    (some sampleTicket) _ rfl rfl).mpr (by decide +kernel)

/-- 16 MiB with a manifest of one byte are admitted for an empty mailbox, but the chunks do
not all fit. -/
theorem manifest_breaks_admission :
    (∃ x, (createTransfer sampleHash (runStore sampleHash admissionStart) 0
        { fillCreate with manifest := [0] } sampleID (some sampleTicket)).2 = .ok x) ∧
      ¬Honoured sampleHash (createTransfer sampleHash (runStore sampleHash admissionStart) 0
        { fillCreate with manifest := [0] } sampleID (some sampleTicket)).1 sampleID
        fullMailbox := by
  refine ⟨⟨_, rfl⟩, fun hon => ?_⟩
  have inv := storeInv_run (H := sampleHash) storeInv_newMemStore admissionStart
  have hroom := room_of_admission (r := { fillCreate with manifest := [0] }) inv rfl rfl hon
  exact absurd hroom (by decide +kernel)

end FileRelay
