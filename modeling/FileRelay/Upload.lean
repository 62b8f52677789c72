import FileRelay.TransferInv

/-!
# Uploads that are accepted

`PutChunk` accepts a new chunk of the right shape for an open transfer as long as the bytes
fit the mailbox (`putChunk_accepts`). `uploads_stored` carries this over a whole upload : any
list of such chunks with distinct indices is stored chunk by chunk.
-/

namespace FileRelay

variable (H : Bytes → Digest)

/-- A chunk `PutChunk` has nothing to object to, but for the quota and the chunks that are
there. -/
structure WellShaped (t : TransferData) (c : ChunkUpload) : Prop where
  valid : validateChunkUpload c = .ok ()
  index_lt : c.index.toNat < t.chunkCount
  offset_eq : c.offset.toNat = c.index.toNat * t.chunkSize
  length_full : c.index.toNat ≠ t.chunkCount - 1 → c.payload.length = t.chunkSize
  length_last : c.index.toNat = t.chunkCount - 1 →
    c.payload.length = t.totalSize - c.index.toNat * t.chunkSize
  hash : c.chunkHash.length = 32 → (H c.payload).toList = c.chunkHash

/-- A transfer that takes chunks at `now` and still does after one more : the two deadlines
`PutChunk` chooses from are ahead. -/
structure Open (t : TransferData) (now : ℤ) : Prop where
  isOpen : t.state.isOpen = true
  live : now < t.expiresAt
  slid : now < deadline now uploadTTLSeconds
  cap : now < deadline t.createdAt uploadTTLMaxSeconds

/-- The bytes of a list of chunks. -/
def payloadBytes (cs : List ChunkUpload) : ℕ :=
  (cs.map fun c => c.payload.length).sum

/-- The bytes of the chunks a transfer holds. -/
def TransferData.chunkBytes (t : TransferData) : ℕ :=
  t.chunks.sumBy fun _ p => p.length

/-- The chunks `cs` can still be uploaded : they have the shape of the transfer and distinct
indices that are missing. -/
structure Pending (tid : ID) (t : TransferData) (cs : List ChunkUpload) : Prop where
  shaped : ∀ c ∈ cs, WellShaped H t c ∧ copyArr 16 c.transferID = tid
  distinct : (cs.map fun c => c.index.toNat).Nodup
  missing : ∀ c ∈ cs, t.chunks.lookup c.index.toNat = none

/-- What an upload of `cs` makes of the transfer `t`. -/
structure Uploaded (now : ℤ) (t : TransferData) (cs : List ChunkUpload) (t' : TransferData) :
    Prop where
  isOpen : Open t' now
  chunkCount_eq : t'.chunkCount = t.chunkCount
  boundTo_eq : ∀ mid, t'.boundTo mid = t.boundTo mid
  mem_chunks : ∀ i, i ∈ t'.chunks ↔ i ∈ t.chunks ∨ i ∈ cs.map fun c => c.index.toNat
  chunkBytes_eq : t'.chunkBytes = t.chunkBytes + payloadBytes cs

variable {H}

/-! ## One chunk -/

/-- A chunk of the right shape passes the checks of a transfer that is not closed. -/
theorem WellShaped.checkChunk {t : TransferData} {c : ChunkUpload} (h : WellShaped H t c)
    (hs : t.state ≠ .complete ∧ t.state ≠ .cancelled) : checkChunk H t c = .ok () :=
  (checkChunk_eq_ok H).mpr
    ⟨hs, h.index_lt, h.offset_eq, h.length_full, h.length_last, h.hash⟩

theorem TransferData.state_ne_of_isOpen {t : TransferData} (h : t.state.isOpen = true) :
    t.state ≠ .complete ∧ t.state ≠ .cancelled := by
  constructor <;> intro hs <;> rw [hs] at h <;> cases h

theorem Open.state_ne {t : TransferData} {now : ℤ} (h : Open t now) :
    t.state ≠ .complete ∧ t.state ≠ .cancelled :=
  t.state_ne_of_isOpen h.isOpen

theorem Open.storeChunk {t : TransferData} {now : ℤ} (h : Open t now) (c : ChunkUpload) :
    Open (storeChunk H t c now) now := by
  refine ⟨?_, ?_, h.slid, h.cap⟩
  · have := h.isOpen
    change (if t.state = .created then TransferState.uploading else t.state).isOpen = true
    split_ifs
    · rfl
    · exact this
  · change now < if deadline t.createdAt uploadTTLMaxSeconds < deadline now uploadTTLSeconds
      then deadline t.createdAt uploadTTLMaxSeconds else deadline now uploadTTLSeconds
    split_ifs
    · exact h.cap
    · exact h.slid

theorem chunkBytes_storeChunk {t : TransferData} {c : ChunkUpload} (now : ℤ)
    (hn : t.chunks.lookup c.index.toNat = none) :
    (storeChunk H t c now).chunkBytes = t.chunkBytes + c.payload.length := by
  unfold TransferData.chunkBytes
  change GoMap.sumBy _ (t.chunks.insert _ _) = _
  rw [GoMap.sumBy_insert_of_notMem _ (Finmap.lookup_eq_none.mp hn), Nat.add_comm]

/-- With the first of them stored the others are still pending. -/
theorem Pending.storeChunk {tid : ID} {t : TransferData} {c : ChunkUpload}
    {cs : List ChunkUpload} (h : Pending H tid t (c :: cs)) (now : ℤ) :
    Pending H tid (storeChunk H t c now) cs := by
  obtain ⟨hfresh, hdistinct⟩ := List.nodup_cons.mp h.distinct
  refine ⟨fun c' hc' => ?_, hdistinct, fun c' hc' => ?_⟩
  · obtain ⟨hs, hid⟩ := h.shaped c' (List.mem_cons_of_mem _ hc')
    exact ⟨⟨hs.valid, hs.index_lt, hs.offset_eq, hs.length_full, hs.length_last, hs.hash⟩, hid⟩
  · have hne : c'.index.toNat ≠ c.index.toNat := fun he =>
      hfresh (List.mem_map.mpr ⟨c', hc', he⟩)
    change (t.chunks.insert _ _).lookup _ = none
    rw [Finmap.lookup_insert_of_ne _ hne]
    exact h.missing c' (List.mem_cons_of_mem _ hc')

/-- `PutChunk` stores a new chunk of the right shape that fits the quota. -/
theorem putChunk_accepts {s : MemStore} {now : ℤ} {t : TransferData} {c : ChunkUpload}
    (h : s.transfers.lookup (copyArr 16 c.transferID) = some t)
    (hs : t.state ≠ .complete ∧ t.state ≠ .cancelled) (hl : now < t.expiresAt)
    (hc : WellShaped H t c) (hn : t.chunks.lookup c.index.toNat = none)
    (hq : t.hasMailbox = true → mailboxStoredBytesLocked s t.mailboxID + c.payload.length ≤
      maxStoredBytesPerMailbox) :
    putChunk H s now c = (putStore H s now c t, .ok (storeChunk H t c now).presentCount) := by
  have hcheck := hc.checkChunk hs
  have hroom : ¬(t.hasMailbox = true ∧ maxStoredBytesPerMailbox <
      mailboxStoredBytesLocked s t.mailboxID + c.payload.length) :=
    fun hf => absurd (hq hf.1) (not_le.mpr hf.2)
  unfold putChunk
  simp only [hc.valid, onTransfer_live _ h fun _ => hl, hcheck, hn, if_neg hroom]
  rfl

/-- Storing a chunk raises the sum `PutChunk` checks by no more than its bytes. -/
theorem mailboxStoredBytesLocked_putStore_le {s : MemStore} (now : ℤ) {t : TransferData}
    {c : ChunkUpload} (h : s.transfers.lookup (copyArr 16 c.transferID) = some t) (mid : ID) :
    mailboxStoredBytesLocked (putStore H s now c t) mid ≤
      mailboxStoredBytesLocked s mid + c.payload.length := by
  have hstored : (storeChunk H t c now).storedBytes ≤ t.storedBytes + c.payload.length := by
    unfold storeChunk
    dsimp only
    split_ifs <;> omega
  have hsum : ∀ f : ID → TransferData → ℕ,
      f (copyArr 16 c.transferID) (storeChunk H t c now) ≤
        f (copyArr 16 c.transferID) t + c.payload.length →
      GoMap.sumBy f (putStore H s now c t).transfers ≤
        s.transfers.sumBy f + c.payload.length := by
    intro f hf
    have hadd := GoMap.sumBy_insert_add f (w := storeChunk H t c now) h
    rw [putStore_transfers]
    change GoMap.sumBy f (s.transfers.insert _ _) ≤ _
    omega
  have hbound : (if t.boundTo mid then (storeChunk H t c now).storedBytes + t.manifest.length
      else 0) ≤ (if t.boundTo mid then t.storedBytes + t.manifest.length else 0) +
        c.payload.length := by
    split_ifs <;> omega
  unfold mailboxStoredBytesLocked
  rw [Nat.add_assoc]
  rcases onlySlides_putStore H s now c t mid with hm | ⟨mb, hm, hm'⟩
  · rw [hm]
    exact Nat.add_le_add_left (hsum _ hbound) _
  · rw [hm, hm']
    exact Nat.add_le_add_left (hsum _ hbound) _

/-! ## A whole upload -/

theorem OnlySlides.trans {s s' s'' : MemStore} {now : ℤ} (h : OnlySlides s s' now)
    (h' : OnlySlides s' s'' now) : OnlySlides s s'' now := by
  intro k
  rcases h' k with h' | ⟨mb', hmb', h'⟩
  · rw [h']
    exact h k
  · rcases h k with h | ⟨mb, hmb, h⟩
    · exact Or.inr ⟨mb', h ▸ hmb', h'⟩
    · rw [h] at hmb'
      cases hmb'
      exact Or.inr ⟨mb, hmb, h'⟩

/-- The calls that upload `cs` at one clock reading. -/
def putAll (now : ℤ) (cs : List ChunkUpload) : List Event :=
  cs.map fun c => ⟨now, .putChunk c⟩

/-- Pending chunks that fit the quota are all stored. -/
theorem uploads_stored (now : ℤ) {tid : ID} : ∀ (cs : List ChunkUpload) {s : MemStore}
    {t : TransferData}, s.transfers.lookup tid = some t → Open t now → Pending H tid t cs →
    (t.hasMailbox = true → mailboxStoredBytesLocked s t.mailboxID + payloadBytes cs ≤
      maxStoredBytesPerMailbox) →
    ∃ t', ((store H).run s (putAll now cs)).transfers = s.transfers.insert tid t' ∧
      Uploaded now t cs t' ∧ OnlySlides s ((store H).run s (putAll now cs)) now
  | [], s, t, h, ho, _, _ => by
    refine ⟨t, (GoMap.insert_lookup_eq h).symm, ⟨ho, rfl, fun _ => rfl, fun i => ?_, rfl⟩,
      onlySlides_of_eq rfl⟩
    simp
  | c :: cs, s, t, h, ho, hpend, hq => by
    obtain ⟨hshape, rfl⟩ := hpend.shaped c List.mem_cons_self
    have hn := hpend.missing c List.mem_cons_self
    have hbytes : payloadBytes (c :: cs) = c.payload.length + payloadBytes cs := rfl
    have hstep : ((store H).step s ⟨now, .putChunk c⟩).1 = putStore H s now c t := by
      rw [store_step]
      simp only [callStore, withOutput_fst]
      rw [putChunk_accepts h ho.state_ne ho.live hshape hn fun hm => by have := hq hm; omega]
    have hlook : (putStore H s now c t).transfers =
        s.transfers.insert (copyArr 16 c.transferID) (storeChunk H t c now) := putStore_transfers ..
    obtain ⟨t', hrun, hup, hslides⟩ := uploads_stored now cs (s := putStore H s now c t)
      (t := storeChunk H t c now) (by rw [hlook, Finmap.lookup_insert]) (ho.storeChunk c)
      (hpend.storeChunk now)
      (fun hm => by
        have hle := mailboxStoredBytesLocked_putStore_le (H := H) now h t.mailboxID
        have := hq hm
        change mailboxStoredBytesLocked (putStore H s now c t) t.mailboxID + _ ≤ _
        omega)
    have hall : (store H).run s (putAll now (c :: cs)) =
        (store H).run (putStore H s now c t) (putAll now cs) := by
      rw [← hstep]
      rfl
    rw [hall]
    refine ⟨t', ?_, ⟨hup.isOpen, hup.chunkCount_eq, hup.boundTo_eq, fun i => ?_, ?_⟩,
      (onlySlides_putStore H s now c t).trans hslides⟩
    · rw [hrun, hlook, Finmap.insert_insert]
    · rw [hup.mem_chunks]
      change i ∈ t.chunks.insert _ _ ∨ _ ↔ _
      rw [Finmap.mem_insert, List.map_cons, List.mem_cons]
      tauto
    · rw [hup.chunkBytes_eq, hbytes, chunkBytes_storeChunk now hn]
      exact Nat.add_assoc _ _ _

end FileRelay
