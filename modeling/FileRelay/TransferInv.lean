import FileRelay.Steps

/-!
# The representation invariant of a transfer

A transfer record keeps seven views of one thing, the chunks stored so far : the map
`chunks` itself, the map `hashes`, the flags `present`, and the counters `presentCount`,
`highest` and `storedBytes`, next to the `state`. `WellFormed` says that they agree with
each other and with the geometry the create check admitted.

`PutChunk` is the only call that touches them (`wellFormed_storeChunk`), so the records of
a store stay well formed over every call (`storeInv_step`) and every run
(`transfers_wellFormed`), whatever the arguments and the clock readings.
-/

namespace FileRelay

open Chunking

/-! ## The first missing index -/

/-- `h` is the first index below `count` whose flag is not set, or `count` if all are. -/
structure LeastMissing (present : List Bool) (count h : ℕ) : Prop where
  le : h ≤ count
  below : ∀ i < h, present[i]? = some true
  missing : h < count → present[h]? ≠ some true

theorem getD_eq_true_iff {l : List Bool} {i : ℕ} : l.getD i false = true ↔ l[i]? = some true := by
  rw [List.getD_eq_getElem?_getD]
  rcases l[i]? with _ | b <;> simp

/-- The counting loop finds the first missing index. -/
theorem contiguousFrom_spec (present : List Bool) :
    ∀ n h, (∀ i < h, present[i]? = some true) →
      LeastMissing present (h + n) (contiguousFrom present n h)
  | 0, h, hb => ⟨le_refl _, hb, fun hlt => absurd hlt (lt_irrefl _)⟩
  | n + 1, h, hb => by
    unfold contiguousFrom
    by_cases hp : present.getD h false = true
    · rw [if_pos hp]
      have hb' : ∀ i < h + 1, present[i]? = some true := by
        intro i hi
        rcases Nat.lt_succ_iff_lt_or_eq.mp hi with hi | rfl
        · exact hb i hi
        · exact getD_eq_true_iff.mp hp
      have := contiguousFrom_spec present n (h + 1) hb'
      rwa [Nat.add_right_comm] at this
    · rw [if_neg hp]
      exact ⟨Nat.le_add_right _ _, hb, fun _ => fun hs => hp (getD_eq_true_iff.mpr hs)⟩

/-! ## Well-formed records -/

variable (H : Bytes → Digest)

/-- The views a transfer record keeps of its chunks agree. -/
structure WellFormed (t : TransferData) : Prop where
  length_present : t.present.length = t.chunkCount
  mem_chunks : ∀ i, i ∈ t.chunks ↔ t.present[i]? = some true
  mem_hashes : ∀ i, i ∈ t.hashes ↔ i ∈ t.chunks
  key_lt : ∀ i ∈ t.chunks, i < t.chunkCount
  presentCount_eq : t.presentCount = t.present.count true
  storedBytes_eq : t.storedBytes = t.chunks.sumBy fun _ p => p.length
  hash_eq : ∀ i p, t.chunks.lookup i = some p → t.hashes.lookup i = some (H p).toList
  highest_eq : LeastMissing t.present t.chunkCount t.highest
  length_full : ∀ i p, t.chunks.lookup i = some p → i < t.chunkCount - 1 → p.length = t.chunkSize
  length_last : ∀ p, t.chunks.lookup (t.chunkCount - 1) = some p →
    p.length = t.totalSize - (t.chunkCount - 1) * t.chunkSize
  fits : Fits t.totalSize t.chunkSize t.chunkCount
  last_pos : 1 ≤ t.totalSize - (t.chunkCount - 1) * t.chunkSize
  last_le : t.totalSize - (t.chunkCount - 1) * t.chunkSize ≤ t.chunkSize
  created : t.state = .created → t.presentCount = 0
  uploading : t.state = .uploading → 1 ≤ t.presentCount
  complete : t.state = .complete → t.presentCount = t.chunkCount
  chunkSize_le : t.chunkSize ≤ maxChunkBytes
  chunkCount_le : t.chunkCount ≤ maxChunksPerTransfer
  totalSize_le : t.totalSize ≤ maxFileBytes

theorem wellFormed_created {r : TransferCreate} (ticket : ByteArr 32) (now : ℤ)
    (hv : validateTransferCreateMsg r = .ok ()) :
    WellFormed H (createdTransfer H r ticket now) := by
  obtain ⟨-, hg, -⟩ := validateTransferCreateMsg_eq_ok.mp hv
  obtain ⟨hsize, hcount, htotal, hfits⟩ := validateTransferCreate_spec hg
  have hnone : ∀ i : ℕ, (List.replicate r.chunkCount.toNat false)[i]? ≠ some true := by
    intro i hi
    have := List.mem_of_getElem? hi
    rw [List.mem_replicate] at this
    exact absurd this.2 (by decide)
  refine
    { length_present := List.length_replicate
      mem_chunks := fun i => ?_
      mem_hashes := fun i => Iff.rfl
      key_lt := fun i hi => absurd hi (Finmap.notMem_empty)
      presentCount_eq := ?_
      storedBytes_eq := rfl
      hash_eq := fun i p hp => ?_
      highest_eq := ⟨Nat.zero_le _, fun i hi => absurd hi (Nat.not_lt_zero i), fun _ => hnone 0⟩
      length_full := fun i p hp => ?_
      length_last := fun p hp => ?_
      fits := hfits
      last_pos := hfits.last_pos
      last_le := hfits.last_le
      created := fun _ => rfl
      uploading := fun h => by cases h
      complete := fun h => by cases h
      chunkSize_le := hsize
      chunkCount_le := hcount
      totalSize_le := htotal }
  · exact iff_of_false Finmap.notMem_empty (hnone i)
  · exact (List.count_eq_zero.mpr fun hm => absurd (List.mem_replicate.mp hm).2 (by decide)).symm
  · exact absurd hp (GoMap.lookup_empty_ne_some _ _)
  · exact absurd hp (GoMap.lookup_empty_ne_some _ _)
  · exact absurd hp (GoMap.lookup_empty_ne_some _ _)

theorem checkChunk_eq_ok {t : TransferData} {c : ChunkUpload} : checkChunk H t c = .ok () ↔
    (t.state ≠ .complete ∧ t.state ≠ .cancelled) ∧ c.index.toNat < t.chunkCount ∧
      c.offset.toNat = c.index.toNat * t.chunkSize ∧
      (c.index.toNat ≠ t.chunkCount - 1 → c.payload.length = t.chunkSize) ∧
      (c.index.toNat = t.chunkCount - 1 →
        c.payload.length = t.totalSize - c.index.toNat * t.chunkSize) ∧
      (c.chunkHash.length = 32 → (H c.payload).toList = c.chunkHash) := by
  simp [checkChunk]

variable {H}

/-- The fields `storeChunk` writes when the chunk is new. -/
theorem storeChunk_eq {t : TransferData} {c : ChunkUpload} (now : ℤ) (wf : WellFormed H t)
    (hc : checkChunk H t c = .ok ()) (hn : t.chunks.lookup c.index.toNat = none) :
    storeChunk H t c now =
      { t with
        chunks := t.chunks.insert c.index.toNat c.payload
        hashes := t.hashes.insert c.index.toNat (H c.payload).toList
        present := t.present.set c.index.toNat true
        presentCount := t.presentCount + 1
        storedBytes := t.storedBytes + c.payload.length
        state := if t.state = .created then .uploading else t.state
        expiresAt := if deadline t.createdAt uploadTTLMaxSeconds < deadline now uploadTTLSeconds
          then deadline t.createdAt uploadTTLMaxSeconds else deadline now uploadTTLSeconds
        highest := contiguousFrom (t.present.set c.index.toNat true) t.chunkCount 0 } := by
  have hnew : t.present.getD c.index.toNat false = false := by
    rw [Bool.eq_false_iff]
    intro hp
    have hm := (wf.mem_chunks _).mpr (getD_eq_true_iff.mp hp)
    exact Finmap.lookup_eq_none.mp hn hm
  have hash : (if c.chunkHash.length = 32 then c.chunkHash else (H c.payload).toList) =
      (H c.payload).toList := by
    obtain ⟨-, -, -, -, -, hh⟩ := (checkChunk_eq_ok H).mp hc
    split_ifs with h
    · exact (hh h).symm
    · rfl
  unfold storeChunk
  simp only [hnew, Bool.not_false, if_true, hash]

/-- Storing a new chunk keeps the views in agreement. -/
theorem wellFormed_storeChunk {t : TransferData} {c : ChunkUpload} (now : ℤ)
    (wf : WellFormed H t) (hc : checkChunk H t c = .ok ())
    (hn : t.chunks.lookup c.index.toNat = none) : WellFormed H (storeChunk H t c now) := by
  rw [storeChunk_eq now wf hc hn]
  obtain ⟨⟨hs, -⟩, hi, -, hfull, hlast, -⟩ := (checkChunk_eq_ok H).mp hc
  generalize c.index.toNat = i at *
  have hil : i < t.present.length := by rw [wf.length_present]; exact hi
  have hset : ∀ j : ℕ, (t.present.set i true)[j]? = some true ↔
      j = i ∨ t.present[j]? = some true := by
    intro j
    rw [List.getElem?_set]
    by_cases hj : i = j
    · subst hj
      simp [hil]
    · simp [hj, Ne.symm hj]
  have hflag : t.present.get ⟨i, hil⟩ = false := by
    rw [Bool.eq_false_iff]
    intro hp
    have hg : t.present[i]? = some true := by rw [← hp]; exact List.getElem?_eq_getElem hil
    exact Finmap.lookup_eq_none.mp hn ((wf.mem_chunks i).mpr hg)
  have hlook : ∀ j p, (t.chunks.insert i c.payload).lookup j = some p →
      (j = i ∧ p = c.payload) ∨ (j ≠ i ∧ t.chunks.lookup j = some p) := by
    intro j p hp
    rw [GoMap.lookup_insert_eq] at hp
    split_ifs at hp with hj
    · exact Or.inl ⟨hj, (Option.some.inj hp).symm⟩
    · exact Or.inr ⟨hj, hp⟩
  have hstate : (if t.state = .created then TransferState.uploading else t.state) ≠ .created ∧
      (if t.state = .created then TransferState.uploading else t.state) ≠ .complete := by
    split_ifs with hst
    · exact ⟨by decide, by decide⟩
    · exact ⟨hst, hs⟩
  refine
    { length_present := ?_
      mem_chunks := fun j => ?_
      mem_hashes := fun j => ?_
      key_lt := fun j hj => ?_
      presentCount_eq := ?_
      storedBytes_eq := ?_
      hash_eq := fun j p hp => ?_
      highest_eq := ?_
      length_full := fun j p hp hj => ?_
      length_last := fun p hp => ?_
      fits := wf.fits
      last_pos := wf.last_pos
      last_le := wf.last_le
      created := fun h => absurd h hstate.1
      uploading := fun _ => Nat.succ_pos _
      complete := fun h => absurd h hstate.2
      chunkSize_le := wf.chunkSize_le
      chunkCount_le := wf.chunkCount_le
      totalSize_le := wf.totalSize_le }
  · rw [List.length_set]
    exact wf.length_present
  · rw [Finmap.mem_insert, hset j, wf.mem_chunks j]
  · rw [Finmap.mem_insert, Finmap.mem_insert, wf.mem_hashes j]
  · rcases Finmap.mem_insert.mp hj with rfl | hj
    · exact hi
    · exact wf.key_lt j hj
  · have hcount := List.count_set (a := true) (b := true) hil
    have hb : (t.present.get ⟨i, hil⟩ == true) = false := by rw [hflag]; rfl
    rw [List.get_eq_getElem] at hb
    rw [hcount, hb]
    simp [wf.presentCount_eq]
  · rw [GoMap.sumBy_insert_of_notMem _ (Finmap.lookup_eq_none.mp hn), ← wf.storedBytes_eq]
    exact Nat.add_comm _ _
  · rw [GoMap.lookup_insert_eq]
    rcases hlook j p hp with ⟨rfl, rfl⟩ | ⟨hj, hp⟩
    · rw [if_pos rfl]
    · rw [if_neg hj]
      exact wf.hash_eq j p hp
  · have := contiguousFrom_spec (t.present.set i true) t.chunkCount 0
      fun j hj => absurd hj (Nat.not_lt_zero j)
    rwa [Nat.zero_add] at this
  · rcases hlook j p hp with ⟨rfl, rfl⟩ | ⟨-, hp⟩
    · exact hfull (Nat.ne_of_lt hj)
    · exact wf.length_full j p hp hj
  · rcases hlook _ p hp with ⟨hj, rfl⟩ | ⟨-, hp⟩
    · rw [hlast hj.symm, hj]
    · exact wf.length_last p hp

/-- Relabelling and sealing write only the state and the deadline. -/
theorem WellFormed.relabel {t : TransferData} (wf : WellFormed H t) {st : TransferState}
    (deadline : ℤ) (hcreated : st ≠ .created) (huploading : st ≠ .uploading)
    (hcomplete : st = .complete → t.presentCount = t.chunkCount) :
    WellFormed H { t with state := st, expiresAt := deadline } :=
  { wf with
    created := fun h => absurd h hcreated
    uploading := fun h => absurd h huploading
    complete := hcomplete }

/-! ## Runs -/

variable (H) in
/-- Every transfer of the store is well formed. -/
def StoreInv (s : MemStore) : Prop :=
  ∀ tid t, s.transfers.lookup tid = some t → WellFormed H t

theorem storeInv_newMemStore : StoreInv H newMemStore := by
  intro tid t h
  exact absurd h (GoMap.lookup_empty_ne_some _ _)

theorem storeInv_step (s : MemStore) (e : Event) (inv : StoreInv H s) :
    StoreInv H ((store H).step s e).1 := by
  intro tid t' h
  have step := step_transfer H s e tid
  rw [h] at step
  generalize ho : some t' = o at step
  rcases step with _ | ⟨r, ticket, -, hv⟩ | ⟨ht, -, -⟩ | ⟨c, -, -, -, ht, -, hc, hn⟩ |
    ⟨r, -, -, ht, -, -, hall⟩ | _ | _
  · exact inv tid t' ho.symm
  · cases ho
    exact wellFormed_created H ticket e.now hv
  · cases ho
    exact (inv tid _ ht).relabel _ (by decide) (by decide) nofun
  · cases ho
    exact wellFormed_storeChunk e.now (inv tid _ ht) hc hn
  · cases ho
    exact (inv tid _ ht).relabel _ (by decide) (by decide) fun _ => hall
  · cases ho
  · cases ho

theorem storeInv_run {s : MemStore} (inv : StoreInv H s) (es : List Event) :
    StoreInv H ((store H).run s es) :=
  Machine.run_induction storeInv_step inv es

/-- In every state the store reaches, by any calls at any clock readings, the views each
transfer record keeps of its chunks agree. -/
theorem transfers_wellFormed (H : Bytes → Digest) (es : List Event) (tid : ID) (t : TransferData)
    (h : (runStore H es).transfers.lookup tid = some t) : WellFormed H t :=
  storeInv_run storeInv_newMemStore es tid t h

/-! ### A sample run -/

/-- A stand-in for SHA-256. -/
def sampleHash (b : Bytes) : Digest := copyArr 32 b

def sampleID : ID := copyArr 16 [7]

def sampleTicket : ByteArr 32 := copyArr 32 [9]

/-- Three bytes in chunks of two, for no mailbox. -/
def sampleCreate : TransferCreate where
  mailboxID := []
  totalSize := 3
  chunkSize := 2
  chunkCount := 2
  manifest := []
  senderPub := List.replicate 32 0
  timestamp := 0
  nonce := List.replicate 16 0
  signature := List.replicate 64 0

/-- A chunk of the sample transfer. -/
def sampleChunk (index : UInt32) (payload chunkHash : Bytes) : ChunkUpload where
  transferID := sampleID.toList
  index := index
  payload := payload
  chunkHash := chunkHash
  offset := index.toUInt64 * 2

def sampleUpload : List Event :=
  [⟨0, .createTransfer sampleCreate sampleID (some sampleTicket)⟩,
    ⟨1, .putChunk (sampleChunk 1 [3] [])⟩]

theorem transfers_wellFormed_sampleUpload :
    ∃ t, (runStore sampleHash sampleUpload).transfers.lookup sampleID = some t ∧
      t.state = .uploading ∧ WellFormed sampleHash t := by
  have hrun : ((runStore sampleHash sampleUpload).transfers.lookup sampleID).map (·.state) =
      some .uploading := by decide
  obtain ⟨t, ht, hs⟩ := Option.map_eq_some_iff.mp hrun
  exact ⟨t, ht, hs, transfers_wellFormed sampleHash sampleUpload sampleID t ht⟩

end FileRelay
