import FileRelay.TransferInv

/-!
# A file survives upload and download

`splitOpaque` is `SplitOpaque` of `client/adapter.go`. Its pieces are the chunks of the
data at the count the create check expects (`splitOpaque_eq`).

The upload is any run in which the transfer stays before its deadline and is not
cancelled, and in which every chunk the store accepts for it is the uploader's
(`UploadStep`). Over such a run the record holds pieces of the data only, and all those
accepted so far (`holds_run`). Once every piece has been accepted the transfer can be
sealed, and reading it back gives the data (`upload_round_trip`).
-/

namespace FileRelay

open Chunking

/-! ## The splitter -/

/-- `for off := 0; off < len(data); off += chunkSize`, with `n` turns left. -/
def splitLoop (data : Bytes) (chunkSize : ℕ) : ℕ → ℕ → List Bytes
  | 0, _ => []
  | n + 1, off =>
    if off < data.length then
      let stop := if data.length < off + chunkSize then data.length else off + chunkSize
      (data.drop off).take (stop - off) :: splitLoop data chunkSize n (off + chunkSize)
    else []

/-- `SplitOpaque`. Each turn advances by at least one, so there are at most
`len(data)` of them. -/
def splitOpaque (data : Bytes) (chunkSize : ℤ) : Result (List Bytes) :=
  if chunkSize ≤ 0 ∨ (maxChunkBytes : ℤ) < chunkSize then .error ⟨.chunkInvalid, "", 0⟩
  else if maxFileBytes < data.length then .error ⟨.payloadTooLarge, "", 0⟩
  else .ok (splitLoop data chunkSize.toNat data.length 0)

theorem splitLoop_eq {data : Bytes} {size count : ℕ} (h : Fits data.length size count) :
    ∀ n i, i ≤ count → count ≤ i + n →
      splitLoop data size n (i * size) = (List.range' i (count - i)).map (piece size data)
  | 0, i, hi, hn => by
    have : count - i = 0 := by omega
    rw [this]
    rfl
  | n + 1, i, hi, hn => by
    unfold splitLoop
    rcases Nat.lt_or_eq_of_le hi with hlt | rfl
    · have hoff : i * size ≤ (count - 1) * size := Nat.mul_le_mul_right _ (by omega)
      have hin : i * size < data.length := lt_of_le_of_lt hoff h.lower
      obtain ⟨k, hk⟩ : ∃ k, count - i = k + 1 := ⟨count - i - 1, by omega⟩
      have hrest : count - (i + 1) = k := by omega
      rw [if_pos hin, hk, List.range'_succ, List.map_cons, ← Nat.succ_mul,
        splitLoop_eq h n (i + 1) hlt (by omega), hrest]
      refine congrArg (· :: _) ?_
      rw [Nat.succ_mul]
      unfold piece
      split_ifs with hstop
      · rw [List.take_of_length_le (by rw [List.length_drop]),
          List.take_of_length_le (by rw [List.length_drop]; omega)]
      · rw [Nat.add_sub_cancel_left]
    · rw [if_neg (not_lt.mpr h.upper), Nat.sub_self]
      rfl

/-- The pieces `SplitOpaque` cuts. -/
theorem splitOpaque_eq {data : Bytes} {size count : ℕ} {pieces : List Bytes}
    (h : Fits data.length size count) (hs : splitOpaque data size = .ok pieces) :
    pieces = (List.range count).map (piece size data) := by
  unfold splitOpaque at hs
  split_ifs at hs
  have hcount : count ≤ data.length := by
    have hm : (count - 1) * 1 ≤ (count - 1) * size := Nat.mul_le_mul_left _ h.size_pos
    have := h.lower
    omega
  have hloop := splitLoop_eq h data.length 0 (Nat.zero_le _) (by omega)
  rw [Nat.zero_mul, Nat.sub_zero, ← List.range_eq_range'] at hloop
  rw [Int.toNat_natCast, hloop] at hs
  exact (Except.ok.inj hs).symm

/-! ## The upload -/

variable (H : Bytes → Digest)

/-- The create request announces the pieces `SplitOpaque` cuts the data into. -/
structure Announces (r : TransferCreate) (data : Bytes) (pieces : List Bytes) : Prop where
  split : splitOpaque data r.chunkSize.toNat = .ok pieces
  totalSize : r.totalSize.toNat = data.length
  chunkCount : r.chunkCount.toNat = pieces.length

/-- A step of the upload : the transfer is before its deadline, no other transfer draws its
id, nobody cancels it, and a chunk the store accepts for it is the uploader's. -/
def UploadStep (tid : ID) (pieces : List Bytes) (s : MemStore) (e : Event) : Prop :=
  (∀ t ∈ s.transfers.lookup tid, e.now < t.expiresAt) ∧
  match e.op, ((store H).step s e).2 with
  | .createTransfer _ id _, _ => id ≠ tid
  | .cancelTransfer id _ _, .cancelled (.ok ()) => id ≠ tid
  | .putChunk c, .put (.ok _) =>
    copyArr 16 c.transferID = tid → pieces[c.index.toNat]? = some c.payload
  | _, _ => True

/-- The store accepted a chunk of the transfer at index `i` during the trace. -/
def AcceptedIn (tid : ID) (trace : List (Event × Output)) (i : ℕ) : Prop :=
  ∃ eo ∈ trace, ∃ c n, eo.1.op = .putChunk c ∧ copyArr 16 c.transferID = tid ∧
    c.index.toNat = i ∧ eo.2 = .put (.ok n)

/-- The record holds pieces only, and those at the indexes `A`. -/
structure Holds (pieces : List Bytes) (ticket : ByteArr 32) (A : ℕ → Prop) (t : TransferData) :
    Prop where
  chunkCount : t.chunkCount = pieces.length
  ticket : t.downloadSecretHash = H ticket.toList
  cancelled : t.state ≠ .cancelled
  content : ∀ i p, t.chunks.lookup i = some p → pieces[i]? = some p
  accepted : ∀ i, A i → i ∈ t.chunks

variable {H}

/-- An accepted chunk is in the record. -/
theorem mem_chunks_of_accepted {s : MemStore} {now : ℤ} {c : ChunkUpload} {n : ℕ}
    (h : (putChunk H s now c).2 = .ok n) :
    ∃ t, (putChunk H s now c).1.transfers.lookup (copyArr 16 c.transferID) = some t ∧
      c.index.toNat ∈ t.chunks := by
  obtain ⟨t, p, ht, hp, -⟩ := putChunk_accepted H h
  exact ⟨t, ht, Finmap.mem_of_lookup_eq_some hp⟩

variable {tid : ID} {pieces : List Bytes} {ticket : ByteArr 32}

/-- The record over one step of the upload, the acceptance of this step aside. -/
theorem holds_step_content {s : MemStore} {e : Event} {A : ℕ → Prop} {t : TransferData}
    (ht : s.transfers.lookup tid = some t) (hold : Holds H pieces ticket A t)
    (hs : UploadStep H tid pieces s e) :
    ∃ t', ((store H).step s e).1.transfers.lookup tid = some t' ∧
      Holds H pieces ticket A t' := by
  have step := step_transfer H s e tid
  have hlive : e.now < t.expiresAt := hs.1 t ht
  have hguard := hs.2
  generalize ((store H).step s e).1.transfers.lookup tid = o at step
  generalize ((store H).step s e).2 = out at step hguard
  rcases step with _ | ⟨r, tk, hop, hv, hq, hout⟩ | ⟨ht', late, -⟩ |
    ⟨c, hop, hid, -, ht', -, -, hn, -, hout⟩ | ⟨r, -, -, ht', -, -, hall, hout⟩ |
    ⟨mid, secret, hop, ht', ha, hout⟩ | ⟨hop, ht', late⟩
  · exact ⟨t, ht, hold⟩
  · simp only [hop] at hguard
    exact absurd rfl hguard
  · cases ht.symm.trans ht'
    exact absurd hlive (not_lt.mpr late)
  · cases ht.symm.trans ht'
    simp only [hop, hout] at hguard
    refine ⟨_, rfl, hold.chunkCount, hold.ticket, ?_, fun i p hp => ?_, fun i hi => ?_⟩
    · change (if t.state = .created then TransferState.uploading else t.state) ≠ .cancelled
      split_ifs
      · decide
      · exact hold.cancelled
    · change (t.chunks.insert c.index.toNat c.payload).lookup i = some p at hp
      rw [GoMap.lookup_insert_eq] at hp
      split_ifs at hp with hi
      · rw [hi, ← hp]
        exact hguard hid
      · exact hold.content i p hp
    · exact Finmap.mem_insert.mpr (Or.inr (hold.accepted i hi))
  · cases ht.symm.trans ht'
    exact ⟨_, rfl, hold.chunkCount, hold.ticket, nofun, hold.content, hold.accepted⟩
  · simp only [hop, hout] at hguard
    exact absurd rfl hguard
  · cases ht.symm.trans ht'
    exact absurd hlive (not_lt.mpr late)

/-- One step of the upload. -/
theorem holds_step {s : MemStore} {e : Event} {A : ℕ → Prop} {t : TransferData}
    (ht : s.transfers.lookup tid = some t) (hold : Holds H pieces ticket A t)
    (hs : UploadStep H tid pieces s e) :
    ∃ t', ((store H).step s e).1.transfers.lookup tid = some t' ∧
      Holds H pieces ticket (fun i => A i ∨ AcceptedIn tid [(e, ((store H).step s e).2)] i) t' := by
  obtain ⟨t', ht', hold'⟩ := holds_step_content ht hold hs
  refine ⟨t', ht', { hold' with accepted := ?_ }⟩
  rintro i (hi | ⟨eo, heo, c, n, hop, hid, hidx, hout⟩)
  · exact hold'.accepted i hi
  · obtain rfl := List.mem_singleton.mp heo
    obtain ⟨now, op⟩ := e
    dsimp only at hop hout
    subst hop
    have hok : (putChunk H s now c).2 = .ok n := by
      rw [store_step] at hout
      exact Output.put.inj hout
    obtain ⟨t'', ht'', hmem⟩ := mem_chunks_of_accepted hok
    rw [hid] at ht''
    rw [← hidx]
    have heq : some t' = some t'' := ht'.symm.trans ht''
    rw [Option.some.inj heq]
    exact hmem

/-- A run of the upload. -/
theorem holds_run : ∀ (es : List Event) {s : MemStore} {A : ℕ → Prop} {t : TransferData},
    s.transfers.lookup tid = some t → Holds H pieces ticket A t →
    (store H).Along (UploadStep H tid pieces) s es →
    ∃ t', ((store H).run s es).transfers.lookup tid = some t' ∧
      Holds H pieces ticket (fun i => A i ∨ AcceptedIn tid ((store H).trace s es) i) t'
  | [], s, A, t, ht, hold, _ => by
    refine ⟨t, ht, { hold with accepted := ?_ }⟩
    rintro i (hi | ⟨eo, heo, -⟩)
    · exact hold.accepted i hi
    · cases heo
  | e :: es, s, A, t, ht, hold, hs => by
    obtain ⟨t₁, ht₁, hold₁⟩ := holds_step ht hold hs.1
    obtain ⟨t₂, ht₂, hold₂⟩ := holds_run es ht₁ hold₁ hs.2
    refine ⟨t₂, ht₂, { hold₂ with accepted := ?_ }⟩
    rintro i (hi | ⟨eo, heo, hacc⟩)
    · exact hold₂.accepted i (Or.inl (Or.inl hi))
    · rcases List.mem_cons.mp heo with rfl | heo
      · exact hold₂.accepted i (Or.inl (Or.inr ⟨_, List.mem_singleton_self _, hacc⟩))
      · exact hold₂.accepted i (Or.inr ⟨eo, heo, hacc⟩)

/-! ## Sealing -/

/-- With every chunk stored the counter is the number of chunks. -/
theorem WellFormed.presentCount_eq_chunkCount {t : TransferData} (wf : WellFormed H t)
    (hall : ∀ i < t.chunkCount, i ∈ t.chunks) : t.presentCount = t.chunkCount := by
  rw [wf.presentCount_eq, ← wf.length_present, List.count_eq_length]
  intro b hb
  obtain ⟨i, hi⟩ := List.mem_iff_getElem?.mp hb
  obtain ⟨hlt, -⟩ := List.getElem?_eq_some_iff.mp hi
  rw [wf.length_present] at hlt
  have htrue := (wf.mem_chunks i).mp (hall i hlt)
  exact Option.some.inj (htrue.symm.trans hi)

/-- The counter is the number of chunks only if every chunk is stored. -/
theorem WellFormed.mem_chunks_of_full {t : TransferData} (wf : WellFormed H t)
    (hall : t.presentCount = t.chunkCount) : ∀ i < t.chunkCount, i ∈ t.chunks := by
  rw [wf.presentCount_eq, ← wf.length_present, List.count_eq_length] at hall
  intro i hi
  rw [← wf.length_present] at hi
  rw [wf.mem_chunks, List.getElem?_eq_getElem hi, hall _ (List.getElem_mem hi)]

theorem completeTransfer_seals {s : MemStore} {now : ℤ} {rc : TransferComplete} {t : TransferData}
    (hrc : validateTransferComplete rc = .ok ())
    (ht : s.transfers.lookup (copyArr 16 rc.transferID) = some t) (hlive : now < t.expiresAt)
    (hc : t.state ≠ .cancelled) (hall : t.presentCount = t.chunkCount) :
    ∃ s' t', completeTransfer s now rc = (s', .ok (true, t.chunkCount, t.chunkCount)) ∧
      s'.transfers.lookup (copyArr 16 rc.transferID) = some t' ∧ t'.state = .complete ∧
      (t' = t ∨ t' = t.seal now) := by
  unfold completeTransfer
  rw [hrc]
  dsimp only
  rw [onTransfer_live _ ht fun _ => hlive]
  by_cases hs : t.state = .complete
  · refine ⟨s, t, ?_, ht, hs, Or.inl rfl⟩
    rw [if_pos hs, hall]
  · refine ⟨s.setTransfer (copyArr 16 rc.transferID) (t.seal now), t.seal now, ?_, ?_, rfl,
      Or.inr rfl⟩
    · rw [if_neg hs, if_neg hc, if_neg (not_not.mpr hall), hall]
    · rw [lookup_setTransfer, if_pos rfl]

/-! ## The download -/

/-- What a read of one chunk returns : with the ticket, or with the secret of the owner's
live mailbox. -/
inductive Download (H : Bytes → Digest) (s : MemStore) (now : ℤ) (tid : ID) (ticket : Bytes)
    (index : UInt32) : Result (Bytes × Bytes) → Prop
  | byTicket : Download H s now tid ticket index (getChunkByTicket H s now tid ticket index).2
  | byOwner {t : TransferData} {mb : MailboxData} (secret : Bytes)
      (ht : s.transfers.lookup tid = some t) (hm : t.hasMailbox = true)
      (hmb : s.mailboxes.lookup t.mailboxID = some mb) (hl : now < mb.expiresAt)
      (hs : secretMatches H mb.readSecretHash secret = true) :
    Download H s now tid ticket index (getChunk H s now tid t.mailboxID secret index).2

theorem readChunk_eq {t : TransferData} {A : ℕ → Prop} {i : ℕ} (wf : WellFormed H t)
    (hold : Holds H pieces ticket A t) (hi : i ∈ t.chunks) :
    ∃ p, pieces[i]? = some p ∧ readChunk t i = .ok (p, (H p).toList) := by
  obtain ⟨p, hp⟩ := Finmap.mem_iff.mp hi
  refine ⟨p, hold.content i p hp, ?_⟩
  unfold readChunk
  rw [if_neg (not_le.mpr (wf.key_lt i hi)), hp, wf.hash_eq i p hp]
  rfl

/-- A stored piece is read back, with its hash. -/
theorem download_eq {s : MemStore} {now : ℤ} {index : UInt32} {r : Result (Bytes × Bytes)}
    {A : ℕ → Prop} {t : TransferData} (ht : s.transfers.lookup tid = some t)
    (hlive : now < t.expiresAt) (wf : WellFormed H t) (hold : Holds H pieces ticket A t)
    (hi : index.toNat ∈ t.chunks) (hd : Download H s now tid ticket.toList index r) :
    ∃ p, pieces[index.toNat]? = some p ∧ r = .ok (p, (H p).toList) := by
  obtain ⟨p, hp, hread⟩ := readChunk_eq wf hold hi
  refine ⟨p, hp, ?_⟩
  rw [← hread]
  rcases hd with _ | ⟨secret, ht', hm, hmb, hl, hs⟩
  · have hticket : checkTicketLocked H t ticket.toList = .ok () := by
      simp [checkTicketLocked, hold.ticket]
    unfold getChunkByTicket
    rw [onTransfer_live _ ht fun _ => hlive, hticket]
  · cases ht.symm.trans ht'
    have hauth := (ownerAuth_eq_ok H).mpr (Or.inr ⟨hm, rfl, _, hmb, hl, hs, rfl⟩)
    unfold getChunk
    rw [onTransfer_live _ ht fun _ => hlive, hauth]

/-- The payload a read returned. -/
def payload : Result (Bytes × Bytes) → Bytes
  | .ok (p, _) => p
  | .error _ => []

/-- `r` is what reading index `i` returned at some moment after `s`, with any calls that
leave the transfer to its uploader before the read. -/
def ReadAfter (H : Bytes → Digest) (tid : ID) (pieces : List Bytes) (ticket : Bytes)
    (s : MemStore) (i : ℕ) (r : Result (Bytes × Bytes)) : Prop :=
  ∃ es now index, (store H).Along (UploadStep H tid pieces) s es ∧
    (∀ t ∈ ((store H).run s es).transfers.lookup tid, now < t.expiresAt) ∧
    index.toNat = i ∧ Download H ((store H).run s es) now tid ticket index r

/-- A created transfer holds nothing yet. -/
theorem holds_created {r : TransferCreate} (now : ℤ) (hcount : r.chunkCount.toNat = pieces.length) :
    Holds H pieces ticket (fun _ => False) (createdTransfer H r ticket now) where
  chunkCount := hcount
  ticket := rfl
  cancelled := nofun
  content := fun i p hp => by
    exact absurd hp (GoMap.lookup_empty_ne_some _ _)
  accepted := fun _ hi => hi.elim

/-- What a successful create has established. -/
theorem createTransfer_stored {s s₁ : MemStore} {now deadline : ℤ} {r : TransferCreate} {tk : Bytes}
    (h : createTransfer H s now r tid (some ticket) = (s₁, .ok (tid, tk, deadline))) :
    validateTransferCreateMsg r = .ok () ∧
      s₁.transfers.lookup tid = some (createdTransfer H r ticket now) := by
  have hc := createTransfer_outcome H s now r tid (some ticket)
  rw [h] at hc
  generalize htk : some ticket = tk at hc
  generalize hres : (s₁, (Except.ok _ : Result (ID × Bytes × ℤ))) = res at hc
  rcases hc with ⟨tk, e⟩ | ⟨tk, hv, hq⟩
  · cases hres
  · obtain rfl := Option.some.inj htk
    obtain rfl := (Prod.mk.inj hres).1
    refine ⟨hv, ?_⟩
    rw [createStore_transfers, lookup_setTransfer, if_pos rfl]

/-- A file survives upload and download : create a transfer for the pieces of the data,
let every piece be accepted, in any order and with any repetitions, between any other
calls. Then it can be sealed, and what is read back at the indexes in order is the data,
each payload with its own hash. -/
theorem upload_round_trip (H : Bytes → Digest) {es₀ : List Event} {now₀ deadline : ℤ}
    {r : TransferCreate} {tid : ID} {ticket : ByteArr 32} {data : Bytes} {pieces : List Bytes}
    {s₁ : MemStore} (hr : Announces r data pieces)
    (hcreate : createTransfer H (runStore H es₀) now₀ r tid (some ticket) =
      (s₁, .ok (tid, ticket.toList, deadline)))
    {es : List Event} (hrun : (store H).Along (UploadStep H tid pieces) s₁ es)
    (hall : ∀ i < pieces.length, AcceptedIn tid ((store H).trace s₁ es) i)
    {now : ℤ} {rc : TransferComplete} (hrc : validateTransferComplete rc = .ok ())
    (hid : copyArr 16 rc.transferID = tid)
    (hlive : ∀ t ∈ ((store H).run s₁ es).transfers.lookup tid, now < t.expiresAt) :
    ∃ s₂, completeTransfer ((store H).run s₁ es) now rc =
        (s₂, .ok (true, pieces.length, pieces.length)) ∧
      (∃ t, s₂.transfers.lookup tid = some t ∧ t.state = .complete) ∧
      ∀ reads : ℕ → Result (Bytes × Bytes),
        (∀ i < pieces.length, ReadAfter H tid pieces ticket.toList s₂ i (reads i)) →
        (∀ i < pieces.length, ∃ p, reads i = .ok (p, (H p).toList)) ∧
          ((List.range pieces.length).map fun i => payload (reads i)).flatten = data := by
  subst hid
  obtain ⟨hv, ht₁⟩ := createTransfer_stored hcreate
  have inv₁ : StoreInv H s₁ := by
    have := storeInv_step (runStore H es₀)
      ⟨now₀, .createTransfer r (copyArr 16 rc.transferID) (some ticket)⟩
      (storeInv_run storeInv_newMemStore es₀)
    rwa [store_step, callStore, withOutput_fst, hcreate] at this
  obtain ⟨-, hg, -⟩ := validateTransferCreateMsg_eq_ok.mp hv
  obtain ⟨-, -, -, hfits⟩ := validateTransferCreate_spec hg
  rw [hr.totalSize, hr.chunkCount] at hfits
  have hpieces := splitOpaque_eq hfits hr.split
  -- the record at the end of the upload
  obtain ⟨t, ht, hold⟩ := holds_run es ht₁ (holds_created now₀ hr.chunkCount) hrun
  have inv : StoreInv H ((store H).run s₁ es) := storeInv_run inv₁ es
  have hin : ∀ i < t.chunkCount, i ∈ t.chunks := by
    intro i hi
    rw [hold.chunkCount] at hi
    exact hold.accepted i (Or.inr (hall i hi))
  obtain ⟨s₂, t₂, hseal, ht₂, hs₂, hst⟩ := completeTransfer_seals hrc ht (hlive t ht)
    hold.cancelled ((inv _ t ht).presentCount_eq_chunkCount hin)
  rw [hold.chunkCount] at hseal
  have inv₂ : StoreInv H s₂ := by
    have := storeInv_step ((store H).run s₁ es) ⟨now, .completeTransfer rc⟩ inv
    rwa [store_step, callStore, withOutput_fst, hseal] at this
  have hold₂ : Holds H pieces ticket (fun i => i < pieces.length) t₂ := by
    have hacc : ∀ i < pieces.length, i ∈ t.chunks := fun i hi =>
      hin i (by rw [hold.chunkCount]; exact hi)
    rcases hst with rfl | rfl
    · exact { hold with accepted := hacc }
    · have hsealed : TransferState.complete ≠ .cancelled := by decide
      exact ⟨hold.chunkCount, hold.ticket, hsealed, hold.content, hacc⟩
  refine ⟨s₂, hseal, ⟨t₂, ht₂, hs₂⟩, fun reads hreads => ?_⟩
  have hread : ∀ i < pieces.length, ∃ p, pieces[i]? = some p ∧ reads i = .ok (p, (H p).toList) := by
    intro i hi
    obtain ⟨es', now', index, hrun', hlive', rfl, hd⟩ := hreads i hi
    obtain ⟨t₃, ht₃, hold₃⟩ := holds_run es' ht₂ hold₂ hrun'
    exact download_eq ht₃ (hlive' t₃ ht₃) (storeInv_run inv₂ es' _ t₃ ht₃) hold₃
      (hold₃.accepted _ (Or.inl hi)) hd
  refine ⟨fun i hi => ?_, ?_⟩
  · obtain ⟨p, -, hp⟩ := hread i hi
    exact ⟨p, hp⟩
  · have hmap : ((List.range pieces.length).map fun i => payload (reads i)) =
        (List.range pieces.length).map (piece r.chunkSize.toNat data) := by
      refine List.map_congr_left fun i hi => ?_
      obtain ⟨p, hp, hreadi⟩ := hread i (List.mem_range.mp hi)
      rw [hreadi]
      rw [hpieces, List.getElem?_map, List.getElem?_range (List.mem_range.mp hi)] at hp
      exact (Option.some.inj hp).symm
    rw [hmap, hfits.flatten_pieces]

/-! ### A sample upload -/

/-- The second piece first, then the first one with its hash, then the second again. -/
def samplePuts : List Event :=
  [⟨1, .putChunk (sampleChunk 1 [3] [])⟩,
    ⟨2, .putChunk (sampleChunk 0 [1, 2] (sampleHash [1, 2]).toList)⟩,
    ⟨2, .putChunk (sampleChunk 1 [3] [])⟩]

def sampleComplete : TransferComplete where
  transferID := sampleID.toList
  manifestHash := List.replicate 32 0
  mailboxID := []
  senderPub := List.replicate 32 0
  timestamp := 0
  nonce := List.replicate 16 0
  signature := List.replicate 64 0

/-- The store after the sample create. -/
def sampleCreated : MemStore :=
  (createTransfer sampleHash newMemStore 0 sampleCreate sampleID (some sampleTicket)).1

theorem samplePuts_upload :
    (store sampleHash).Along (UploadStep sampleHash sampleID [[1, 2], [3]]) sampleCreated
      samplePuts := by
  refine ⟨⟨by decide, ?_⟩, ⟨by decide, ?_⟩, ⟨by decide, ?_⟩, trivial⟩ <;>
    exact fun _ => rfl

theorem samplePuts_accepted (i : ℕ) (hi : i < 2) :
    AcceptedIn sampleID ((store sampleHash).trace sampleCreated samplePuts) i := by
  rcases Nat.lt_succ_iff_lt_or_eq.mp hi with hi | rfl
  · obtain rfl : i = 0 := by omega
    exact ⟨_, List.mem_cons_of_mem _ List.mem_cons_self, _, 2, rfl, by decide, by decide, rfl⟩
  · exact ⟨_, List.mem_cons_self, _, 1, rfl, by decide, by decide, rfl⟩

theorem upload_round_trip_samplePuts :
    ∃ s₂, completeTransfer ((store sampleHash).run sampleCreated samplePuts) 3 sampleComplete =
        (s₂, .ok (true, 2, 2)) ∧
      (∃ t, s₂.transfers.lookup sampleID = some t ∧ t.state = .complete) ∧
      ∀ reads : ℕ → Result (Bytes × Bytes),
        (∀ i < 2, ReadAfter sampleHash sampleID [[1, 2], [3]] sampleTicket.toList s₂ i (reads i)) →
        (∀ i < 2, ∃ p, reads i = .ok (p, (sampleHash p).toList)) ∧
          ((List.range 2).map fun i => payload (reads i)).flatten = [1, 2, 3] := by
  have hr : Announces sampleCreate [1, 2, 3] [[1, 2], [3]] := ⟨rfl, rfl, rfl⟩
  have hcreate : createTransfer sampleHash (runStore sampleHash []) 0 sampleCreate sampleID
      (some sampleTicket) = (sampleCreated, .ok (sampleID, sampleTicket.toList, 86400000)) := rfl
  exact upload_round_trip sampleHash hr hcreate samplePuts_upload samplePuts_accepted (by decide)
    (by decide) (by decide)

end FileRelay
