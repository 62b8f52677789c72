import FileRelay.PutAck
import FileRelay.Upload
import FileRelay.Expiry

/-!
# Retried chunks

A put whose ack was lost is sent again. `RetrySafe` is what the client hopes for : the same
bytes are acknowledged with the current count, other bytes of the same length are refused,
and neither touches the store. `retry_safe_iff` says when it has that : at every stage but
the last, since `PutChunk` turns a sealed transfer away before it looks for a duplicate.
`lost_ack_retried` is the same for a put that a run accepted earlier.
-/

namespace FileRelay

variable (H : Bytes → Digest)

/-- A put for index `i` of the transfer. -/
structure PutFor (tid : ID) (i : ℕ) (c : ChunkUpload) : Prop where
  transferID : c.transferID = tid.toList
  index : c.index.toNat = i

/-- Puts of index `i`, which holds `p`, are acknowledged again or refused, and change
nothing. -/
structure RetrySafe (s : MemStore) (now : ℤ) (tid : ID) (t : TransferData) (i : ℕ) (p : Bytes) :
    Prop where
  same : ∀ c, PutFor tid i c → c.payload = p → c.offset.toNat = i * t.chunkSize →
    (c.chunkHash = [] ∨ c.chunkHash = (H p).toList) →
      putChunk H s now c = (s, .ok t.presentCount)
  other : ∀ c, PutFor tid i c → c.payload ≠ p → c.payload.length = p.length →
    (H c.payload = H p → c.payload = p) → ∃ e, putChunk H s now c = (s, .error e)

variable {H}

/-! ## Stored chunks -/

/-- No transfer is ever in the state `cancelled` : a cancel removes the record. -/
theorem not_cancelled (es : List Event) : ∀ tid t,
    (runStore H es).transfers.lookup tid = some t → t.state ≠ .cancelled := by
  refine Machine.run_induction (M := store H)
    (P := fun s => ∀ tid t, s.transfers.lookup tid = some t → t.state ≠ .cancelled) ?_ ?_ es
  · intro s e ih tid t' ht'
    have step := step_transfer H s e tid
    rw [ht'] at step
    generalize ho : some t' = o at step
    rcases step with _ | _ | _ | ⟨c, -, -, -, ht, -⟩ | _ | _ | _
    · exact ih tid t' ho.symm
    · cases ho
      nofun
    · cases ho
      nofun
    · have hold := ih tid _ ht
      cases ho
      unfold storeChunk
      dsimp only
      split_ifs
      · nofun
      · exact hold
    · cases ho
      nofun
    · cases ho
    · cases ho
  · intro tid t h
    exact absurd h (GoMap.lookup_empty_ne_some _ _)

theorem WellFormed.index_lt {t : TransferData} (wf : WellFormed H t) {i : ℕ} {p : Bytes}
    (hp : t.chunks.lookup i = some p) : i < t.chunkCount :=
  wf.key_lt i (Finmap.mem_of_lookup_eq_some hp)

/-- Stored bytes have the length their index asks for. -/
theorem WellFormed.length_eq {t : TransferData} (wf : WellFormed H t) {i : ℕ} {p : Bytes}
    (hp : t.chunks.lookup i = some p) : (i ≠ t.chunkCount - 1 → p.length = t.chunkSize) ∧
      (i = t.chunkCount - 1 → p.length = t.totalSize - i * t.chunkSize) := by
  have hi := wf.index_lt hp
  refine ⟨fun hne => wf.length_full i p hp (by omega), ?_⟩
  rintro rfl
  exact wf.length_last p hp

theorem WellFormed.length_pos {t : TransferData} (wf : WellFormed H t) {i : ℕ} {p : Bytes}
    (hp : t.chunks.lookup i = some p) : 0 < p.length ∧ p.length ≤ maxChunkBytes := by
  have hlen := wf.length_eq hp
  have hpos := wf.last_pos
  have hle := wf.last_le
  have hmax := wf.chunkSize_le
  by_cases hi : i = t.chunkCount - 1
  · have := hlen.2 hi
    subst hi
    omega
  · have := hlen.1 hi
    omega

/-- A put of what is stored has the shape of the transfer. -/
theorem PutFor.wellShaped {tid : ID} {t : TransferData} {c : ChunkUpload} {i : ℕ} {p : Bytes}
    (hc : PutFor tid i c) (wf : WellFormed H t) (hp : t.chunks.lookup i = some p)
    (hpay : c.payload = p) (hoff : c.offset.toNat = i * t.chunkSize)
    (hhash : c.chunkHash = [] ∨ c.chunkHash = (H p).toList) : WellShaped H t c := by
  obtain ⟨htid, rfl⟩ := hc
  subst hpay
  obtain ⟨hfull, hlast⟩ := wf.length_eq hp
  have hlen := wf.length_pos hp
  have hi := wf.index_lt hp
  have hcount := wf.chunkCount_le
  have hhashlen : c.chunkHash.length = 0 ∨ c.chunkHash.length = 32 := by
    rcases hhash with h | h
    · exact Or.inl (by rw [h]; rfl)
    · exact Or.inr (by rw [h]; exact List.Vector.toList_length _)
  refine ⟨?_, hi, hoff, hfull, hlast, fun h32 => ?_⟩
  · have htlen : c.transferID.length = 16 := by rw [htid]; exact List.Vector.toList_length _
    simp only [validateChunkUpload, failIf_eq_ok]
    refine ⟨by omega, by omega, by omega, by omega, trivial⟩
  · rcases hhash with h | h
    · rw [h] at h32
      cases h32
    · exact h.symm

theorem PutFor.copyArr_transferID {tid : ID} {i : ℕ} {c : ChunkUpload} (hc : PutFor tid i c) :
    copyArr 16 c.transferID = tid := by
  rw [hc.transferID, copyArr_self]

/-! ## One state -/

section Retry

variable {s : MemStore} {now : ℤ} {tid : ID} {t : TransferData} {i : ℕ} {p : Bytes}
  {c : ChunkUpload}

/-- The same bytes again are acknowledged with the current count, and nothing changes. -/
theorem putChunk_again (h : s.transfers.lookup (copyArr 16 c.transferID) = some t)
    (live : now < t.expiresAt) (hs : t.state ≠ .complete ∧ t.state ≠ .cancelled)
    (hw : WellShaped H t c) (hp : t.chunks.lookup c.index.toNat = some c.payload) :
    putChunk H s now c = (s, .ok t.presentCount) := by
  unfold putChunk
  simp only [hw.valid, onTransfer_live _ h fun _ => live, hw.checkChunk hs, hp, and_self, if_true]

/-- Other bytes for an index that is taken are refused, and nothing changes. -/
theorem putChunk_other (h : s.transfers.lookup tid = some t) (live : now < t.expiresAt)
    (hp : t.chunks.lookup i = some p) (hc : PutFor tid i c) (hne : H c.payload ≠ H p) :
    ∃ e, putChunk H s now c = (s, .error e) := by
  have hout := putChunk_outcome H s now c
  have hlook := h
  rw [← hc.copyArr_transferID] at hlook
  generalize putChunk H s now c = r at hout
  rcases hout with e | ⟨e, h', late, -⟩ | ⟨h', -, -, ho, -, hh⟩ | ⟨-, h', -, -, hn, -⟩
  · exact ⟨e, rfl⟩
  · cases hlook.symm.trans h'
    exact absurd late (not_le.mpr live)
  · cases hlook.symm.trans h'
    rw [hc.index, hp] at ho
    cases ho
    exact absurd hh.symm hne
  · cases hlook.symm.trans h'
    rw [hc.index, hp] at hn
    cases hn

/-- A sealed transfer refuses every put. -/
theorem putChunk_sealed (h : s.transfers.lookup tid = some t) (hs : t.state = .complete)
    (hc : copyArr 16 c.transferID = tid) : ∃ e, (putChunk H s now c).2 = .error e := by
  unfold putChunk
  rcases validateChunkUpload c with e | ⟨⟩
  · exact ⟨e, rfl⟩
  · rw [hc, onTransfer_live _ h fun hne => absurd hs hne]
    simp only [checkChunk, hs, failIf, true_or, if_true]
    exact ⟨_, rfl⟩

/-- The put a client sends for index `i`, without a hash. -/
def plainPut (tid : ID) (t : TransferData) (i : ℕ) (p : Bytes) : ChunkUpload where
  transferID := tid.toList
  index := UInt32.ofNat i
  payload := p
  chunkHash := []
  offset := UInt64.ofNat (i * t.chunkSize)

theorem plainPut_for (wf : WellFormed H t) (hi : i < t.chunkCount) :
    PutFor tid i (plainPut tid t i p) ∧ (plainPut tid t i p).offset.toNat = i * t.chunkSize := by
  have hcount : t.chunkCount ≤ 16384 := wf.chunkCount_le
  have hsize : t.chunkSize ≤ 65536 := wf.chunkSize_le
  have hoff : i * t.chunkSize ≤ 16384 * 65536 := Nat.mul_le_mul (by omega) hsize
  refine ⟨⟨rfl, ?_⟩, ?_⟩
  · exact UInt32.toNat_ofNat_of_lt' (by change _ < 4294967296; omega)
  · exact UInt64.toNat_ofNat_of_lt' (by change _ < 18446744073709551616; omega)

end Retry

/-- In every state the store reaches, puts of a stored chunk of an unexpired transfer can be
retried exactly if the transfer is not sealed. -/
theorem retry_safe_iff (H : Bytes → Digest) (es : List Event) (now : ℤ) (tid : ID)
    (t : TransferData) (i : ℕ) (p : Bytes) (h : (runStore H es).transfers.lookup tid = some t)
    (live : now < t.expiresAt) (hp : t.chunks.lookup i = some p) :
    RetrySafe H (runStore H es) now tid t i p ↔ t.state ≠ .complete := by
  have wf : WellFormed H t := storeInv_run storeInv_newMemStore es tid t h
  constructor
  · intro hr hs
    obtain ⟨hfor, hoff⟩ : PutFor tid i (plainPut tid t i p) ∧ _ := plainPut_for wf (wf.index_lt hp)
    have hok := hr.same _ hfor rfl hoff (Or.inl rfl)
    obtain ⟨e, he⟩ := putChunk_sealed h hs hfor.copyArr_transferID
    rw [hok] at he
    cases he
  · intro hs
    refine ⟨fun c hc hpay hoff hhash => ?_, fun c hc hne _ hfree => ?_⟩
    · have hw := hc.wellShaped wf hp hpay hoff hhash
      obtain rfl := hc.index
      subst hpay
      exact putChunk_again (by rw [hc.copyArr_transferID, h]) live
        ⟨hs, not_cancelled es tid t h⟩ hw hp
    · exact putChunk_other h live hp hc fun heq => hne (hfree heq)

/-- In the sample upload the second chunk is stored and can be retried. -/
theorem retry_safe_iff_sampleUpload :
    ∃ t, (runStore sampleHash sampleUpload).transfers.lookup sampleID = some t ∧
      t.state = .uploading ∧
      RetrySafe sampleHash (runStore sampleHash sampleUpload) 2 sampleID t 1 [3] := by
  have hrun : ((runStore sampleHash sampleUpload).transfers.lookup sampleID).map
      (fun t => (t.state, t.expiresAt, t.chunks.lookup 1)) =
        some (.uploading, 86400001, some [3]) := by decide
  obtain ⟨t, ht, hf⟩ := Option.map_eq_some_iff.mp hrun
  simp only [Prod.mk.injEq] at hf
  obtain ⟨hs, hexp, hp⟩ := hf
  refine ⟨t, ht, hs, ?_⟩
  have live : (2 : ℤ) < t.expiresAt := by omega
  exact (retry_safe_iff sampleHash sampleUpload 2 sampleID t 1 [3] ht live hp).mpr
    (by rw [hs]; nofun)

/-- The second chunk of the sample upload is put again after the seal, with the bytes that
were acknowledged before it, and is turned away. -/
theorem sealed_retry_refused :
    ((runStore sampleHash sealedRun).transfers.lookup sampleID).map
        (fun t => (t.state, t.expiresAt, t.chunks.lookup 1)) =
      some (.complete, 1209600003, some [3]) ∧
    ((store sampleHash).trace newMemStore sealedRun).map (fun r => r.2) =
      [.created (.ok (sampleID, sampleTicket.toList, 86400000)), .put (.ok 1), .put (.ok 2),
        .put (.ok 2), .completed (.ok (true, 2, 2))] ∧
    (putChunk sampleHash (runStore sampleHash sealedRun) 4 (sampleChunk 1 [3] [])).2 =
      .error ⟨.transferConflict, "transfer closed", 0⟩ :=
  ⟨by decide, rfl, rfl⟩

/-! ## Whole runs -/

theorem valid_of_put {s : MemStore} {now : ℤ} {c : ChunkUpload} {n : ℕ}
    (h : (putChunk H s now c).2 = .ok n) : validateChunkUpload c = .ok () := by
  rcases hv : validateChunkUpload c with e | ⟨⟩
  · unfold putChunk at h
    simp only [hv, reduceCtorEq] at h
  · rfl

theorem wellShaped_of_checkChunk {t : TransferData} {c : ChunkUpload}
    (hv : validateChunkUpload c = .ok ()) (hc : checkChunk H t c = .ok ()) : WellShaped H t c := by
  obtain ⟨-, hi, hoff, hfull, hlast, hhash⟩ := (checkChunk_eq_ok H).mp hc
  exact ⟨hv, hi, hoff, hfull, hlast, hhash⟩

/-- The shape of a put is that of what `CreateTransfer` fixed. -/
theorem WellShaped.of_fixed {t t' : TransferData} {c : ChunkUpload} (hw : WellShaped H t c)
    (hfixed : t'.fixed = t.fixed) : WellShaped H t' c := by
  simp only [TransferData.fixed, Prod.mk.injEq] at hfixed
  obtain ⟨-, -, ⟨htotal, hsize, hcount⟩, -⟩ := hfixed
  refine ⟨hw.valid, ?_, ?_, ?_, ?_, hw.hash⟩
  · rw [hcount]
    exact hw.index_lt
  · rw [hsize]
    exact hw.offset_eq
  · rw [hcount, hsize]
    exact hw.length_full
  · rw [hcount, hsize, htotal]
    exact hw.length_last

/-- An accepted put has the shape of its transfer. -/
theorem accepted_put_shaped {s : MemStore} {now : ℤ} {c : ChunkUpload} {n : ℕ}
    (h : (putChunk H s now c).2 = .ok n) :
    ∃ t, (putChunk H s now c).1.transfers.lookup (copyArr 16 c.transferID) = some t ∧
      WellShaped H t c := by
  have hv := valid_of_put h
  have hout := putChunk_outcome H s now c
  generalize putChunk H s now c = r at h hout
  rcases hout with _ | _ | ⟨ht, -, hc, -⟩ | ⟨-, ht, -, hc, -, -⟩
  · cases h
  · cases h
  · exact ⟨_, ht, wellShaped_of_checkChunk hv hc⟩
  · refine ⟨storeChunk H _ c now, ?_, (wellShaped_of_checkChunk hv hc).of_fixed rfl⟩
    rw [putStore_transfers]
    exact Finmap.lookup_insert _

/-- A put accepted in a run is acknowledged again at any later moment before its transfer
is sealed, expires or is removed. -/
theorem lost_ack_retried {es₀ es : List Event} {now now' : ℤ} {c : ChunkUpload} {n : ℕ}
    (hput : (putChunk H (runStore H es₀) now c).2 = .ok n)
    (hfree : CollisionFree H (es₀ ++ [⟨now, .putChunk c⟩]))
    (hfresh : (store H).Along (FreshID H) (runStore H (es₀ ++ [⟨now, .putChunk c⟩])) es)
    (hkept : (store H).Along (fun s e => ¬Removes H (copyArr 16 c.transferID) s e)
      (runStore H (es₀ ++ [⟨now, .putChunk c⟩])) es)
    (hopen : ∀ t, (runStore H (es₀ ++ [⟨now, .putChunk c⟩] ++ es)).transfers.lookup
      (copyArr 16 c.transferID) = some t → now' < t.expiresAt ∧ t.state ≠ .complete) :
    ∃ k, putChunk H (runStore H (es₀ ++ [⟨now, .putChunk c⟩] ++ es)) now' c =
      (runStore H (es₀ ++ [⟨now, .putChunk c⟩] ++ es), .ok k) := by
  have hrun : runStore H (es₀ ++ [⟨now, .putChunk c⟩]) =
      (putChunk H (runStore H es₀) now c).1 := by
    unfold runStore
    rw [Machine.run_concat]
    rfl
  obtain ⟨t, ht, hw⟩ := accepted_put_shaped hput
  have hself : PayloadIn (es₀ ++ [⟨now, .putChunk c⟩]) c.payload :=
    ⟨_, List.mem_append_right _ (List.mem_singleton_self _), c, rfl, rfl⟩
  obtain ⟨t', ht', hp⟩ := accepted_put_stored hput fun t old ht hold hh => by
    obtain ⟨e, he, hpay⟩ := chunks_uploaded es₀ _ _ _ _ ht hold
    exact hfree old c.payload ⟨e, List.mem_append_left _ he, hpay⟩ hself hh
  cases ht.symm.trans ht'
  rw [← hrun] at ht
  obtain ⟨u, hu, hext⟩ := extends_run es (storeInv_run storeInv_newMemStore _) hfresh hkept ht
  have hu' : (runStore H (es₀ ++ [⟨now, .putChunk c⟩] ++ es)).transfers.lookup
      (copyArr 16 c.transferID) = some u := by
    unfold runStore
    rw [Machine.run_append]
    exact hu
  obtain ⟨hlive, hs⟩ := hopen u hu'
  exact ⟨_, putChunk_again hu' hlive ⟨hs, not_cancelled _ _ u hu'⟩ (hw.of_fixed hext.fixed)
    (hext.chunks _ _ hp)⟩

end FileRelay
