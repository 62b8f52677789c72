import FileRelay.Requests
import FileRelay.TransferInv

/-!
# Fields that are not there

No decoder remembers which fields it has seen. A field that is not there stays zero, and the
validator is left to notice it (`Notices`). It notices an identity, a nonce, a signature, a
payload or a size that is missing; a timestamp, the index and the offset of a chunk may be zero.

`missing_refused_iff` : a decoder refuses every list of fields without the ids `absent` exactly
when one of them is an id its validator notices. An upload without an index or an offset goes to
chunk 0, and nowhere else (`index_zero_of_put`).
-/

namespace FileRelay

open NanoPack (Field Codec layout)

/-! ## What a validator notices -/

section Notices

variable {α : Type}

/-- The list has no field with one of these ids. -/
def Lacks (absent : List UInt8) (fs : List Field) : Prop :=
  ∀ f ∈ fs, f.id ∉ absent

/-- Every list of fields without these ids is refused, whatever its other fields are. -/
def RefusesWithout (np : Codec) (decode : Codec → Bytes → Wire α) (absent : List UInt8) : Prop :=
  ∀ fs : List Field, fs.length ≤ 255 → Lacks absent fs → ∃ e, decode np (layout fs) = .error e

/-- A slot is an id with the size of what its field sets : zero at first, and as long as no such
field comes. -/
structure HasSlots (c : RequestCodec α α) (slots : List (UInt8 × (α → ℕ))) : Prop where
  zero : ∀ p ∈ slots, p.2 c.zero = 0
  set : ∀ a f a', c.set a f = .ok a' → ∀ p ∈ slots, f.id ≠ p.1 → p.2 a' = p.2 a

/-- The validator notices a missing field with one of the ids of `slots`, and does without all
others. -/
structure Notices (c : RequestCodec α α) (slots : List (UInt8 × (α → ℕ))) : Prop
    extends HasSlots c slots where
  finish : ∀ a b, c.finish a = .ok b → c.check a = .ok ()
  check : ∀ a, c.check a = .ok () → ∀ p ∈ slots, p.2 a ≠ 0
  enough : ∃ fs a, (∀ f ∈ fs, f.id ∈ slots.map Prod.fst) ∧ fs.length ≤ 255 ∧
    (layout fs).length ≤ c.limit ∧ fs.foldlM c.set c.zero = .ok a ∧ c.finish a = .ok a

variable {c : RequestCodec α α} {slots : List (UInt8 × (α → ℕ))}

/-- A field the list does not have is not set by the loop over the list. -/
theorem HasSlots.unset_of_foldlM (h : HasSlots c slots) {p : UInt8 × (α → ℕ)} (hp : p ∈ slots)
    {fs : List Field} {a : α} (hfs : ∀ f ∈ fs, f.id ≠ p.1) (ha : fs.foldlM c.set c.zero = .ok a) :
    p.2 a = 0 :=
  foldlM_ok_induction fs
    (fun f hf a a' hzero hset => (h.set a f a' hset p hp (hfs f hf)).trans hzero) (h.zero p hp) ha

theorem HasSlots.mono {slots' : List (UInt8 × (α → ℕ))} (h : HasSlots c slots')
    (hs : slots ⊆ slots') : HasSlots c slots where
  zero p hp := h.zero p (hs hp)
  set a f a' ha p hp := h.set a f a' ha p (hs hp)

/-- What was decoded from a list of fields is what the loop over the list has set. -/
theorem foldlM_of_unmarshal {np : Codec} (hnp : np.Lawful) {fs : List Field} {b : α}
    (hlen : fs.length ≤ 255) (h : c.unmarshal np (layout fs) = .ok b) :
    ∃ a, fs.foldlM c.set c.zero = .ok a ∧ c.finish a = .ok b := by
  obtain ⟨a, hloop, hfinish⟩ := wire_bind_eq_ok.mp h
  obtain ⟨-, fs', hfs', hfold, -⟩ := unmarshal_eq_ok hloop
  rw [decodeFields_eq hnp hlen] at hfs'
  cases hfs'
  exact ⟨a, hfold, hfinish⟩

theorem Notices.refusesWithout_iff (h : Notices c slots) {np : Codec} (hnp : np.Lawful)
    (absent : List UInt8) :
    RefusesWithout np (fun np => c.unmarshal np) absent ↔
      ∃ k ∈ absent, k ∈ slots.map Prod.fst := by
  constructor
  · intro href
    by_contra hnone
    obtain ⟨fs, a, hids, hlen, hsize, hfold, hfinish⟩ := h.enough
    obtain ⟨e, he⟩ := href fs hlen fun f hf hk => hnone ⟨f.id, hk, hids f hf⟩
    dsimp only at he
    rw [RequestCodec.Lawful.unmarshal_layout hnp hlen hsize, hfold, ok_bind, hfinish] at he
    cases he
  · rintro ⟨k, hk, hslot⟩ fs hlen hlacks
    obtain ⟨p, hp, rfl⟩ := List.mem_map.mp hslot
    rcases hres : c.unmarshal np (layout fs) with e | b
    · exact ⟨e, hres⟩
    · obtain ⟨a, hfold, hfinish⟩ := foldlM_of_unmarshal hnp hlen hres
      have hunset : p.2 a = 0 := h.unset_of_foldlM hp (fun f hf hid => hlacks f hf (hid ▸ hk)) hfold
      exact absurd hunset (h.check a (h.finish a b hfinish) p hp)

/-- A codec that validates what it has set. -/
theorem notices_checked {known : List UInt8} {limit : ℕ} {check : α → Wire Unit}
    {fields : α → List Field} {zero : α} {set : α → Field → Wire α}
    (hslots : HasSlots (RequestCodec.checked known limit check fields zero set) slots)
    (hcheck : ∀ a, check a = .ok () → ∀ p ∈ slots, p.2 a ≠ 0) (fs : List Field) (a : α)
    (hids : ∀ f ∈ fs, f.id ∈ slots.map Prod.fst)
    (hsize : fs.length ≤ 255 ∧ (layout fs).length ≤ limit) (hfold : fs.foldlM set zero = .ok a)
    (ha : check a = .ok ()) :
    Notices (RequestCodec.checked known limit check fields zero set) slots where
  toHasSlots := hslots
  finish a b h := by
    obtain ⟨⟨⟩, ha, -⟩ := wire_bind_eq_ok.mp h
    exact ha
  check := hcheck
  enough := ⟨fs, a, hids, hsize.1, hsize.2, hfold, wire_bind_eq_ok.mpr ⟨(), ha, rfl⟩⟩

end Notices

/-! ## The decoders -/

/-- The fields `ValidateRegister` notices. -/
def Register.slots : List (UInt8 × (Register → ℕ)) :=
  [(1, fun r => r.clientPub.length), (3, fun r => r.nonce.length),
    (4, fun r => r.signature.length)]

theorem register_hasSlots : HasSlots registerCodec Register.slots := by
  refine ⟨by decide, fun a f a' h => ?_⟩
  change Register.set a f = .ok a' at h
  simp only [Register.set, switch_eq_ok, wire_map_eq_ok, Except.ok.injEq] at h
  rcases h with ⟨hid, rfl⟩ | ⟨-, ⟨hid, v, -, rfl⟩ | ⟨-, ⟨hid, rfl⟩ | ⟨-, ⟨hid, rfl⟩ | ⟨-, rfl⟩⟩⟩⟩
  all_goals simp [Register.slots, *]

theorem register_notices : Notices registerCodec Register.slots := by
  refine notices_checked register_hasSlots ?_
    [⟨1, List.replicate 32 1⟩, ⟨3, List.replicate 16 1⟩, ⟨4, List.replicate 64 1⟩]
    ⟨List.replicate 32 1, 0, List.replicate 16 1, List.replicate 64 1⟩ (by decide)
    ⟨by decide, NanoPack.length_layout_le (by decide) (by decide)⟩ rfl rfl
  intro a h
  have hv := validateRegister_eq_ok.mp (wireCheck_eq_ok.mp h)
  simp [Register.slots, hv]

/-- The fields `ValidateSendMessage` notices. -/
def SendMessage.slots : List (UInt8 × (SendMessage → ℕ)) :=
  [(1, fun m => m.mailboxID.length), (2, fun m => m.envelope.length),
    (3, fun m => m.senderPub.length), (5, fun m => m.nonce.length),
    (6, fun m => m.signature.length)]

theorem sendMessage_hasSlots : HasSlots sendMessageCodec SendMessage.slots := by
  refine ⟨by decide, fun a f a' h => ?_⟩
  change SendMessage.set a f = .ok a' at h
  simp only [SendMessage.set, switch_eq_ok, wire_map_eq_ok, Except.ok.injEq] at h
  rcases h with ⟨hid, rfl⟩ | ⟨-, ⟨hid, rfl⟩ | ⟨-, ⟨hid, rfl⟩ | ⟨-, ⟨hid, v, -, rfl⟩ |
      ⟨-, ⟨hid, rfl⟩ | ⟨-, ⟨hid, rfl⟩ | ⟨-, ⟨hid, v, -, rfl⟩ | ⟨-, ⟨hid, v, -, rfl⟩ |
      ⟨-, rfl⟩⟩⟩⟩⟩⟩⟩⟩
  all_goals simp [SendMessage.slots, *]

theorem sendMessage_notices : Notices sendMessageCodec SendMessage.slots := by
  refine notices_checked sendMessage_hasSlots ?_
    [⟨1, List.replicate 16 1⟩, ⟨2, [1]⟩, ⟨3, List.replicate 32 1⟩, ⟨5, List.replicate 16 1⟩,
      ⟨6, List.replicate 64 1⟩]
    ⟨List.replicate 16 1, [1], List.replicate 32 1, 0, List.replicate 16 1, List.replicate 64 1, 0,
      0⟩ (by decide)
    ⟨by decide, NanoPack.length_layout_le (by decide) (by decide)⟩ rfl rfl
  intro a h
  obtain ⟨hmid, ⟨henv, -⟩, hpub, hnonce, hsig⟩ :=
    validateSendMessage_eq_ok.mp (wireCheck_eq_ok.mp h)
  simp [SendMessage.slots, hmid, List.length_eq_zero_iff.not.mp henv, hpub, hnonce, hsig]

/-- The fields `ValidateTransferCreateMsg` notices. -/
def TransferCreate.slots : List (UInt8 × (TransferCreate → ℕ)) :=
  [(2, fun t => t.totalSize.toNat), (3, fun t => t.chunkSize.toNat),
    (4, fun t => t.chunkCount.toNat), (6, fun t => t.senderPub.length),
    (8, fun t => t.nonce.length), (9, fun t => t.signature.length)]

theorem transferCreate_hasSlots : HasSlots transferCreateCodec TransferCreate.slots := by
  refine ⟨by decide, fun a f a' h => ?_⟩
  change TransferCreate.set a f = .ok a' at h
  simp only [TransferCreate.set, switch_eq_ok, wire_map_eq_ok, Except.ok.injEq] at h
  rcases h with ⟨hid, rfl⟩ | ⟨-, ⟨hid, v, -, rfl⟩ | ⟨-, ⟨hid, v, -, rfl⟩ | ⟨-, ⟨hid, v, -, rfl⟩ |
      ⟨-, ⟨hid, rfl⟩ | ⟨-, ⟨hid, rfl⟩ | ⟨-, ⟨hid, v, -, rfl⟩ | ⟨-, ⟨hid, rfl⟩ | ⟨-, ⟨hid, rfl⟩ |
      ⟨-, rfl⟩⟩⟩⟩⟩⟩⟩⟩⟩
  all_goals simp [TransferCreate.slots, *]

theorem transferCreate_notices : Notices transferCreateCodec TransferCreate.slots := by
  refine notices_checked transferCreate_hasSlots ?_
    [⟨2, putU64 3⟩, ⟨3, putU32 2⟩, ⟨4, putU32 2⟩, ⟨6, List.replicate 32 1⟩,
      ⟨8, List.replicate 16 1⟩, ⟨9, List.replicate 64 1⟩]
    ⟨[], 3, 2, 2, [], List.replicate 32 1, 0, List.replicate 16 1, List.replicate 64 1⟩ (by decide)
    ⟨by decide, NanoPack.length_layout_le (by decide) (by decide)⟩ rfl rfl
  intro a h
  obtain ⟨-, hsizes, -, hpub, hnonce, hsig⟩ :=
    validateTransferCreateMsg_eq_ok.mp (wireCheck_eq_ok.mp h)
  simp only [validateTransferCreate, failIf_eq_ok, not_or] at hsizes
  obtain ⟨⟨hsize, -⟩, ⟨hcount, -⟩, ⟨htotal, -⟩, -⟩ := hsizes
  simp only [TransferCreate.slots, List.forall_mem_cons, hpub, hnonce, hsig]
  exact ⟨htotal, hsize, hcount, by decide, by decide, by decide, List.forall_mem_nil _⟩

/-- The fields `ValidateChunkUpload` notices. -/
def ChunkUpload.slots : List (UInt8 × (ChunkUpload → ℕ)) :=
  [(1, fun c => c.transferID.length), (3, fun c => c.payload.length)]

/-- The fields `ValidateChunkUpload` does not notice, though `MarshalChunkUpload` adds them. -/
def ChunkUpload.defaulted : List (UInt8 × (ChunkUpload → ℕ)) :=
  [(2, fun c => c.index.toNat), (5, fun c => c.offset.toNat)]

theorem chunkUpload_hasSlots :
    HasSlots chunkUploadCodec (ChunkUpload.slots ++ ChunkUpload.defaulted) := by
  refine ⟨by decide, fun a f a' h => ?_⟩
  change ChunkUpload.set a f = .ok a' at h
  simp only [ChunkUpload.set, switch_eq_ok, wire_map_eq_ok, Except.ok.injEq] at h
  rcases h with ⟨hid, rfl⟩ | ⟨-, ⟨hid, v, -, rfl⟩ | ⟨-, ⟨hid, rfl⟩ | ⟨-, ⟨hid, rfl⟩ |
      ⟨-, ⟨hid, v, -, rfl⟩ | ⟨-, rfl⟩⟩⟩⟩⟩
  all_goals simp [ChunkUpload.slots, ChunkUpload.defaulted, *]

theorem chunkUpload_notices : Notices chunkUploadCodec ChunkUpload.slots := by
  refine notices_checked (chunkUpload_hasSlots.mono (List.subset_append_left _ _)) ?_
    [⟨1, sampleID.toList⟩, ⟨3, [1, 2]⟩]
    (sampleChunk 0 [1, 2] []) (by decide)
    ⟨by decide, NanoPack.length_layout_le (by decide) (by decide)⟩ rfl rfl
  intro a h
  obtain ⟨hid, hpayload, -⟩ := validateChunkUpload_eq_ok.mp (wireCheck_eq_ok.mp h)
  simp [ChunkUpload.slots, hid, List.length_eq_zero_iff.not.mp hpayload]

/-- The fields `ValidateTransferComplete` notices. -/
def TransferComplete.slots : List (UInt8 × (TransferComplete → ℕ)) :=
  [(1, fun t => t.transferID.length), (2, fun t => t.manifestHash.length),
    (4, fun t => t.senderPub.length), (6, fun t => t.nonce.length),
    (7, fun t => t.signature.length)]

theorem transferComplete_hasSlots : HasSlots transferCompleteCodec TransferComplete.slots := by
  refine ⟨by decide, fun a f a' h => ?_⟩
  change TransferComplete.set a f = .ok a' at h
  simp only [TransferComplete.set, switch_eq_ok, wire_map_eq_ok, Except.ok.injEq] at h
  rcases h with ⟨hid, rfl⟩ | ⟨-, ⟨hid, rfl⟩ | ⟨-, ⟨hid, rfl⟩ | ⟨-, ⟨hid, rfl⟩ |
      ⟨-, ⟨hid, v, -, rfl⟩ | ⟨-, ⟨hid, rfl⟩ | ⟨-, ⟨hid, rfl⟩ | ⟨-, rfl⟩⟩⟩⟩⟩⟩⟩
  all_goals simp [TransferComplete.slots, *]

theorem transferComplete_notices : Notices transferCompleteCodec TransferComplete.slots := by
  refine notices_checked transferComplete_hasSlots ?_
    [⟨1, List.replicate 16 1⟩, ⟨2, List.replicate 32 1⟩, ⟨4, List.replicate 32 1⟩,
      ⟨6, List.replicate 16 1⟩, ⟨7, List.replicate 64 1⟩]
    ⟨List.replicate 16 1, List.replicate 32 1, [], List.replicate 32 1, 0, List.replicate 16 1,
      List.replicate 64 1⟩ (by decide)
    ⟨by decide, NanoPack.length_layout_le (by decide) (by decide)⟩ rfl rfl
  intro a h
  have hv := (validateTransferComplete_eq_ok.mp (wireCheck_eq_ok.mp h)).1
  simp [TransferComplete.slots, hv]

/-! ## Uploads without an index or an offset -/

section Upload

variable {np : Codec} {H : Bytes → Digest} {now : ℤ} {fs : List Field}

/-- The list is decoded to an upload whose payload the store puts at index 0 of a transfer that
had no chunk there. -/
def StoresChunkZero (np : Codec) (H : Bytes → Digest) (s : MemStore) (now : ℤ)
    (fs : List Field) : Prop :=
  ∃ c t t', unmarshalChunkUpload np (layout fs) = .ok c ∧
    s.transfers.lookup (copyArr 16 c.transferID) = some t ∧ t.chunks.lookup 0 = none ∧
    (putChunk H s now c).1.transfers.lookup (copyArr 16 c.transferID) = some t' ∧
    t'.chunks.lookup 0 = some c.payload

/-- The index or the offset that is not there is read as zero. -/
theorem zero_of_lacks {c : ChunkUpload} (hnp : np.Lawful) (hlen : fs.length ≤ 255)
    (h : unmarshalChunkUpload np (layout fs) = .ok c) :
    (Lacks [2] fs → c.index.toNat = 0) ∧ (Lacks [5] fs → c.offset.toNat = 0) := by
  obtain ⟨a, hfold, hfinish⟩ := foldlM_of_unmarshal hnp hlen h
  obtain ⟨⟨⟩, -, hret⟩ := wire_bind_eq_ok.mp hfinish
  cases hret
  refine ⟨fun hlacks => ?_, fun hlacks => ?_⟩
  · exact chunkUpload_hasSlots.unset_of_foldlM (p := (2, fun c => c.index.toNat))
      (by simp [ChunkUpload.defaulted]) (fun f hf hid => hlacks f hf (by simp [hid])) hfold
  · exact chunkUpload_hasSlots.unset_of_foldlM (p := (5, fun c => c.offset.toNat))
      (by simp [ChunkUpload.defaulted]) (fun f hf hid => hlacks f hf (by simp [hid])) hfold

/-- An upload without an index or an offset that the store takes is chunk 0. -/
theorem index_zero_of_put {es : List Event} {c : ChunkUpload} {n : ℕ} (hnp : np.Lawful)
    (hlen : fs.length ≤ 255) (hlacks : Lacks [2] fs ∨ Lacks [5] fs)
    (h : unmarshalChunkUpload np (layout fs) = .ok c)
    (hput : (putChunk H (runStore H es) now c).2 = .ok n) : c.index.toNat = 0 := by
  obtain ⟨hindex, hoffset⟩ := zero_of_lacks hnp hlen h
  rcases hlacks with hlacks | hlacks
  · exact hindex hlacks
  have hout := putChunk_outcome H (runStore H es) now c
  generalize putChunk H (runStore H es) now c = res at hout hput
  have hmul : ∀ t, (runStore H es).transfers.lookup (copyArr 16 c.transferID) = some t →
      checkChunk H t c = .ok () → c.index.toNat = 0 := by
    intro t ht hc
    have wf : WellFormed H t := storeInv_run storeInv_newMemStore es _ t ht
    simp only [checkChunk, failIf_eq_ok, not_not] at hc
    have hprod : c.index.toNat * t.chunkSize = 0 := hc.2.2.1.symm.trans (hoffset hlacks)
    exact (Nat.mul_eq_zero.mp hprod).resolve_right wf.fits.size_pos.ne'
  rcases hout with _ | _ | ⟨ht, -, hc, -, -, -⟩ | ⟨-, ht, -, hc, -, -⟩
  · cases hput
  · cases hput
  · exact hmul _ ht hc
  · exact hmul _ ht hc

/-- An upload to the sample transfer with neither index nor offset. -/
def bareUpload : List Field :=
  [⟨1, sampleID.toList⟩, ⟨3, [1, 2]⟩]

theorem unmarshal_bareUpload (hnp : np.Lawful) :
    unmarshalChunkUpload np (layout bareUpload) = .ok (sampleChunk 0 [1, 2] []) :=
  (RequestCodec.Lawful.unmarshal_layout hnp (by decide)
    (NanoPack.length_layout_le (by decide) (by decide))).trans rfl

theorem bareUpload_stored (hnp : np.Lawful) :
    StoresChunkZero np sampleHash
      (runStore sampleHash [⟨0, .createTransfer sampleCreate sampleID (some sampleTicket)⟩]) 1
      bareUpload := by
  have hnone : ((runStore sampleHash
      [⟨0, .createTransfer sampleCreate sampleID (some sampleTicket)⟩]).transfers.lookup
        sampleID).map (fun t => t.chunks.lookup 0) = some none := by decide
  have hput : ((putChunk sampleHash (runStore sampleHash
      [⟨0, .createTransfer sampleCreate sampleID (some sampleTicket)⟩]) 1
        (sampleChunk 0 [1, 2] [])).1.transfers.lookup sampleID).map (fun t => t.chunks.lookup 0) =
      some (some [1, 2]) := by decide
  obtain ⟨t, ht, hchunk⟩ := Option.map_eq_some_iff.mp hnone
  obtain ⟨t', ht', hchunk'⟩ := Option.map_eq_some_iff.mp hput
  exact ⟨_, t, t', unmarshal_bareUpload hnp, ht, hchunk, ht', hchunk'⟩

end Upload

/-- A decoder refuses every list of fields without the ids `absent` exactly when it has one of
them that its validator notices, and exactly then no such upload is ever stored as chunk 0. -/
theorem missing_refused_iff (np : Codec) (hnp : np.Lawful) (absent : List UInt8) :
    (RefusesWithout np unmarshalRegister absent ↔ ∃ k ∈ absent, k ∈ [1, 3, 4]) ∧
    (RefusesWithout np unmarshalSendMessage absent ↔ ∃ k ∈ absent, k ∈ [1, 2, 3, 5, 6]) ∧
    (RefusesWithout np unmarshalTransferCreate absent ↔
      ∃ k ∈ absent, k ∈ [2, 3, 4, 6, 8, 9]) ∧
    (RefusesWithout np unmarshalChunkUpload absent ↔ ∃ k ∈ absent, k ∈ [1, 3]) ∧
    (RefusesWithout np unmarshalTransferComplete absent ↔ ∃ k ∈ absent, k ∈ [1, 2, 4, 6, 7]) ∧
    ((∀ (H : Bytes → Digest) (es : List Event) (now : ℤ) (fs : List Field), fs.length ≤ 255 →
        Lacks absent fs → ¬StoresChunkZero np H (runStore H es) now fs) ↔
      ∃ k ∈ absent, k ∈ [1, 3]) := by
  refine ⟨register_notices.refusesWithout_iff hnp absent,
    sendMessage_notices.refusesWithout_iff hnp absent,
    transferCreate_notices.refusesWithout_iff hnp absent,
    chunkUpload_notices.refusesWithout_iff hnp absent,
    transferComplete_notices.refusesWithout_iff hnp absent, fun h => ?_, fun h => ?_⟩
  · by_contra hnone
    have hids : ∀ f ∈ bareUpload, f.id ∈ [1, 3] := by decide
    exact h sampleHash _ 1 bareUpload (by decide) (fun f hf hk => hnone ⟨f.id, hk, hids f hf⟩)
      (bareUpload_stored hnp)
  · rintro H es now fs hlen hlacks ⟨c, -, -, hdecode, -⟩
    obtain ⟨e, he⟩ := (chunkUpload_notices.refusesWithout_iff hnp absent).mpr h fs hlen hlacks
    cases he.symm.trans hdecode

/-- With the reference codec : an upload without a payload is refused. -/
theorem missing_refused_reference :
    ∃ e, unmarshalChunkUpload NanoPack.reference (layout [⟨1, sampleID.toList⟩]) = .error e :=
  ((missing_refused_iff NanoPack.reference NanoPack.reference_lawful [3]).2.2.2.1.mpr
    ⟨3, by decide, by decide⟩) _ (by decide) (by unfold Lacks; decide)

/-- A registration without a timestamp is accepted, and an upload with neither index nor offset
is accepted and stored as chunk 0. -/
theorem missing_fields_accepted :
    unmarshalRegister NanoPack.reference (layout [⟨1, List.replicate 32 1⟩,
        ⟨3, List.replicate 16 1⟩, ⟨4, List.replicate 64 1⟩]) =
      .ok ⟨List.replicate 32 1, 0, List.replicate 16 1, List.replicate 64 1⟩ ∧
    unmarshalChunkUpload NanoPack.reference (layout [⟨1, sampleID.toList⟩, ⟨3, [1, 2]⟩]) =
      .ok ⟨sampleID.toList, 0, [1, 2], [], 0⟩ ∧
    StoresChunkZero NanoPack.reference sampleHash
      (runStore sampleHash [⟨0, .createTransfer sampleCreate sampleID (some sampleTicket)⟩]) 1
      [⟨1, sampleID.toList⟩, ⟨3, [1, 2]⟩] := by
  refine ⟨?_, unmarshal_bareUpload NanoPack.reference_lawful,
    bareUpload_stored NanoPack.reference_lawful⟩
  exact (RequestCodec.Lawful.unmarshal_layout NanoPack.reference_lawful (by decide)
    (NanoPack.length_layout_le (by decide) (by decide))).trans rfl

end FileRelay
