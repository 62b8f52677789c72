import FileRelay.Admission
import FileRelay.FirstWrite
import FileRelay.Retries

/-!
# Uploads commute

A run of puts writes each chunk once : after it the chunks are those of `FirstWrite.writeAll`,
and the bytes the mailbox is charged for have grown by as much (`Filled`, `filled_of_allPut`).
Whether a run of consistent puts succeeds depends on the set of the puts only : each has to be
`Welcome`, and the chunks written in the end have to fit the quota (`allPut_of_welcome`).

`uploads_commute` : if the puts succeed in one order, they succeed in every order and repeated,
with the same record.
-/

namespace FileRelay

open FirstWrite (write writeAll Consistent)

variable (H : Bytes → Digest)

/-! ## Runs of puts -/

/-- The calls of a run of puts, each with its clock. -/
def puts (cs : List (ℤ × ChunkUpload)) : List Event :=
  cs.map fun p => ⟨p.1, .putChunk p.2⟩

/-- Every call of the run is a put that succeeds. -/
def AllPut (s : MemStore) (es : List Event) : Prop :=
  ∀ r ∈ (store H).trace s es, ∃ n, r.2 = .put (.ok n)

/-- The transfer is not expired at any call of the run. -/
def NeverExpired (tid : ID) (s : MemStore) (es : List Event) : Prop :=
  (store H).Along (fun s e => ∀ t, s.transfers.lookup tid = some t → e.now < t.expiresAt) s es

/-- The chunk a put asks for. -/
def ChunkUpload.entry (c : ChunkUpload) : ℕ × Bytes :=
  (c.index.toNat, c.payload)

/-- The bytes of stored chunks. -/
def bytesOf (chunks : GoMap ℕ Bytes) : ℕ :=
  chunks.sumBy fun _ p => p.length

/-- An open transfer of the store. -/
structure Taking (tid : ID) (s : MemStore) (t : TransferData) : Prop where
  lookup : s.transfers.lookup tid = some t
  wf : WellFormed H t
  isOpen : t.state.isOpen = true

/-- The transfer has nothing against the put but for the quota. -/
structure Welcome (t : TransferData) (c : ChunkUpload) : Prop where
  shaped : WellShaped H t c
  agrees : ∀ old, t.chunks.lookup c.index.toNat = some old →
    old.length = c.payload.length ∧ H old = H c.payload

/-- The chunks of the transfer with those of the puts. -/
def TransferData.chunksWith (t : TransferData) (cs : List ChunkUpload) : GoMap ℕ Bytes :=
  writeAll t.chunks (cs.map ChunkUpload.entry)

/-- The puts can be made : they are welcome and consistent, and the chunks they leave fit the
quota. -/
structure Fillable (tid : ID) (s : MemStore) (t : TransferData) (cs : List ChunkUpload) :
    Prop where
  transferID : ∀ c ∈ cs, copyArr 16 c.transferID = tid
  welcome : ∀ c ∈ cs, Welcome H t c
  consistent : Consistent (cs.map ChunkUpload.entry)
  quota : t.hasMailbox = true → t.chunksWith cs ≠ t.chunks →
    mailboxStoredBytesLocked s t.mailboxID + bytesOf (t.chunksWith cs) ≤
      maxStoredBytesPerMailbox + bytesOf t.chunks

/-- What successful puts make of the transfer `t` of `s`. -/
structure Filled (tid : ID) (s : MemStore) (t : TransferData) (cs : List ChunkUpload)
    (s' : MemStore) (t' : TransferData) : Prop where
  taking : Taking H tid s' t'
  fixed : t'.fixed = t.fixed
  chunks : t'.chunks = t.chunksWith cs
  stored : t.hasMailbox = true →
    mailboxStoredBytesLocked s' t.mailboxID + bytesOf t.chunks =
      mailboxStoredBytesLocked s t.mailboxID + bytesOf t'.chunks
  quota : t.hasMailbox = true → t'.chunks ≠ t.chunks →
    mailboxStoredBytesLocked s' t.mailboxID ≤ maxStoredBytesPerMailbox

variable {H}

theorem allPut_cons {s : MemStore} {p : ℤ × ChunkUpload} {cs : List (ℤ × ChunkUpload)} :
    AllPut H s (puts (p :: cs)) ↔
      (∃ n, (putChunk H s p.1 p.2).2 = .ok n) ∧ AllPut H (putChunk H s p.1 p.2).1 (puts cs) := by
  have hout : ((store H).step s ⟨p.1, .putChunk p.2⟩).2 = .put (putChunk H s p.1 p.2).2 := rfl
  have hstep : ((store H).step s ⟨p.1, .putChunk p.2⟩).1 = (putChunk H s p.1 p.2).1 := rfl
  unfold AllPut puts
  rw [List.map_cons, Machine.trace_cons, List.forall_mem_cons, hout, hstep]
  simp only [Output.put.injEq]

theorem neverExpired_cons {tid : ID} {s : MemStore} {p : ℤ × ChunkUpload}
    {cs : List (ℤ × ChunkUpload)} :
    NeverExpired H tid s (puts (p :: cs)) ↔
      (∀ t, s.transfers.lookup tid = some t → p.1 < t.expiresAt) ∧
        NeverExpired H tid (putChunk H s p.1 p.2).1 (puts cs) :=
  Machine.along_cons _

theorem mailbox_of_fixed {t t' : TransferData} (h : t'.fixed = t.fixed) :
    t'.mailboxID = t.mailboxID ∧ t'.hasMailbox = t.hasMailbox ∧ t'.chunkCount = t.chunkCount := by
  simp only [TransferData.fixed, Prod.mk.injEq] at h
  exact ⟨h.1.1, h.1.2, h.2.2.1.2.2⟩

/-! ## One put -/

section OnePut

variable {tid : ID} {s : MemStore} {t : TransferData} {now : ℤ} {c : ChunkUpload}

theorem Taking.storeChunk (h : Taking H tid s t) (hid : copyArr 16 c.transferID = tid)
    (hcheck : checkChunk H t c = .ok ()) (hn : t.chunks.lookup c.index.toNat = none) :
    Taking H tid (putStore H s now c t) (storeChunk H t c now) := by
  refine ⟨?_, wellFormed_storeChunk now h.wf hcheck hn, ?_⟩
  · rw [putStore_transfers, hid]
    exact Finmap.lookup_insert _
  · have hopen := h.isOpen
    rw [storeChunk_eq now h.wf hcheck hn]
    dsimp only
    split_ifs
    · rfl
    · exact hopen

theorem filled_storeChunk (h : Taking H tid s t) (hid : copyArr 16 c.transferID = tid)
    (hcheck : checkChunk H t c = .ok ()) (hn : t.chunks.lookup c.index.toNat = none)
    (hq : t.hasMailbox = true → mailboxStoredBytesLocked s t.mailboxID + c.payload.length ≤
      maxStoredBytesPerMailbox) :
    Filled H tid s t [c] (putStore H s now c t) (storeChunk H t c now) := by
  have hlook : s.transfers.lookup (copyArr 16 c.transferID) = some t := by rw [hid, h.lookup]
  have hbytes : bytesOf (storeChunk H t c now).chunks = bytesOf t.chunks + c.payload.length :=
    chunkBytes_storeChunk now hn
  have hsum : t.hasMailbox = true →
      mailboxStoredBytesLocked (putStore H s now c t) t.mailboxID =
        mailboxStoredBytesLocked s t.mailboxID + c.payload.length := fun hm =>
    mailboxStoredBytesLocked_putStore now hlook (boundTo_iff.mpr ⟨hm, rfl⟩) h.wf hcheck hn
  refine ⟨h.storeChunk hid hcheck hn, rfl, ?_, fun hm => ?_, fun hm _ => ?_⟩
  · exact (FirstWrite.write_free (e := c.entry) hn).symm
  · rw [hsum hm, hbytes]
    omega
  · rw [hsum hm]
    exact hq hm

theorem filled_duplicate (h : Taking H tid s t) {old : Bytes}
    (ho : t.chunks.lookup c.index.toNat = some old) : Filled H tid s t [c] s t := by
  refine ⟨h, rfl, ?_, fun _ => rfl, fun _ hne => absurd rfl hne⟩
  exact (FirstWrite.write_taken (e := c.entry) ho).symm

/-- What a put that succeeds was and did. -/
theorem filled_of_put (h : Taking H tid s t) (hid : copyArr 16 c.transferID = tid) {n : ℕ}
    (hok : (putChunk H s now c).2 = .ok n) :
    Welcome H t c ∧ ∃ t', Filled H tid s t [c] (putChunk H s now c).1 t' := by
  have hlook : s.transfers.lookup (copyArr 16 c.transferID) = some t := by rw [hid, h.lookup]
  have hv := valid_of_put hok
  have hout := putChunk_outcome H s now c
  generalize putChunk H s now c = r at hok hout
  rcases hout with _ | _ | ⟨ht, -, hc, ho, hlen, hh⟩ | ⟨-, ht, -, hc, hn, hq⟩
  · cases hok
  · cases hok
  · cases hlook.symm.trans ht
    refine ⟨⟨wellShaped_of_checkChunk hv hc, fun old' hold => ?_⟩, t, filled_duplicate h ho⟩
    cases ho.symm.trans hold
    exact ⟨hlen, hh⟩
  · cases hlook.symm.trans ht
    refine ⟨⟨wellShaped_of_checkChunk hv hc, fun old hold => ?_⟩, _,
      filled_storeChunk h hid hc hn hq⟩
    rw [hn] at hold
    cases hold

/-- A welcome put that fits the quota succeeds. -/
theorem put_of_welcome (h : Taking H tid s t) (hid : copyArr 16 c.transferID = tid)
    (live : now < t.expiresAt) (hw : Welcome H t c)
    (hq : t.hasMailbox = true → t.chunks.lookup c.index.toNat = none →
      mailboxStoredBytesLocked s t.mailboxID + c.payload.length ≤ maxStoredBytesPerMailbox) :
    ∃ n, (putChunk H s now c).2 = .ok n := by
  have hlook : s.transfers.lookup (copyArr 16 c.transferID) = some t := by rw [hid, h.lookup]
  cases ho : t.chunks.lookup c.index.toNat with
  | none =>
    rw [putChunk_accepts hlook (t.state_ne_of_isOpen h.isOpen) live hw.shaped ho fun hm => hq hm ho]
    exact ⟨_, rfl⟩
  | some old =>
    unfold putChunk
    simp only [hw.shaped.valid, onTransfer_live _ hlook fun _ => live,
      hw.shaped.checkChunk (t.state_ne_of_isOpen h.isOpen), ho, if_pos (hw.agrees old ho)]
    exact ⟨_, rfl⟩

end OnePut

/-! ## Whole runs -/

section Runs

variable {tid : ID} {s : MemStore} {t : TransferData}

theorem filled_nil (h : Taking H tid s t) : Filled H tid s t [] s t :=
  ⟨h, rfl, rfl, fun _ => rfl, fun _ hne => absurd rfl hne⟩

theorem chunksWith_of_fixed {c : ChunkUpload} {cs : List ChunkUpload} {s' : MemStore}
    {t' : TransferData} (h : Filled H tid s t [c] s' t') :
    t'.chunksWith cs = t.chunksWith (c :: cs) := by
  unfold TransferData.chunksWith
  rw [h.chunks]
  rfl

theorem Filled.cons {c : ChunkUpload} {cs : List ChunkUpload} {s₁ s₂ : MemStore}
    {t₁ t₂ : TransferData} (h : Filled H tid s t [c] s₁ t₁) (h' : Filled H tid s₁ t₁ cs s₂ t₂) :
    Filled H tid s t (c :: cs) s₂ t₂ := by
  obtain ⟨hmid, hm, -⟩ := mailbox_of_fixed h.fixed
  have hstored := h'.stored
  have hquota := h'.quota
  rw [hmid, hm] at hstored hquota
  refine ⟨h'.taking, h'.fixed.trans h.fixed, ?_, fun hb => ?_, fun hb hne => ?_⟩
  · rw [h'.chunks, chunksWith_of_fixed h]
  · have h₁ := h.stored hb
    have h₂ := hstored hb
    omega
  · by_cases hlast : t₂.chunks = t₁.chunks
    · -- nothing new after the first put, so it was the one that wrote
      have h₁ := h.quota hb fun heq => hne (hlast.trans heq)
      have h₂ := hstored hb
      rw [hlast] at h₂
      omega
    · exact hquota hb hlast

/-- Successful puts were all welcome, and fill the transfer. -/
theorem filled_of_allPut : ∀ (cs : List (ℤ × ChunkUpload)) {s : MemStore} {t : TransferData},
    Taking H tid s t → (∀ c ∈ cs.map Prod.snd, copyArr 16 c.transferID = tid) →
    AllPut H s (puts cs) →
    (∀ c ∈ cs.map Prod.snd, Welcome H t c) ∧
      ∃ t', Filled H tid s t (cs.map Prod.snd) ((store H).run s (puts cs)) t'
  | [], s, t, h, _, _ => ⟨nofun, t, filled_nil h⟩
  | p :: cs, s, t, h, hid, hall => by
    obtain ⟨⟨n, hn⟩, hrest⟩ := allPut_cons.mp hall
    obtain ⟨hw, t₁, hfirst⟩ := filled_of_put h (hid p.2 List.mem_cons_self) hn
    obtain ⟨hws, t₂, hfilled⟩ := filled_of_allPut cs hfirst.taking
      (fun c hc => hid c (List.mem_cons_of_mem p.2 hc)) hrest
    refine ⟨fun c hc => ?_, t₂, hfirst.cons hfilled⟩
    rcases List.mem_cons.mp hc with rfl | hc
    · exact hw
    · refine ⟨(hws c hc).shaped.of_fixed hfirst.fixed.symm, fun old hold => ?_⟩
      refine (hws c hc).agrees old ?_
      rw [hfirst.chunks]
      exact FirstWrite.lookup_writeAll_of_lookup _ hold

theorem fillable_of_allPut {cs : List (ℤ × ChunkUpload)} (h : Taking H tid s t)
    (hid : ∀ c ∈ cs.map Prod.snd, copyArr 16 c.transferID = tid)
    (hcons : Consistent ((cs.map Prod.snd).map ChunkUpload.entry)) (hall : AllPut H s (puts cs)) :
    Fillable H tid s t (cs.map Prod.snd) := by
  obtain ⟨hw, t', hfilled⟩ := filled_of_allPut cs h hid hall
  refine ⟨hid, hw, hcons, fun hm hne => ?_⟩
  rw [← hfilled.chunks] at hne ⊢
  have hstored := hfilled.stored hm
  have hquota := hfilled.quota hm hne
  omega

/-- Only the set of the puts counts. -/
theorem Fillable.congr {cs cs' : List ChunkUpload} (h : Fillable H tid s t cs)
    (hsame : ∀ c, c ∈ cs' ↔ c ∈ cs) : Fillable H tid s t cs' := by
  have hentries : ∀ e, e ∈ cs'.map ChunkUpload.entry ↔ e ∈ cs.map ChunkUpload.entry := by
    intro e
    simp only [List.mem_map, hsame]
  have hchunks : t.chunksWith cs' = t.chunksWith cs :=
    FirstWrite.writeAll_congr h.consistent hentries
  refine ⟨fun c hc => h.transferID c ((hsame c).mp hc), fun c hc => h.welcome c ((hsame c).mp hc),
    fun a ha b hb => h.consistent a ((hentries a).mp ha) b ((hentries b).mp hb), ?_⟩
  rw [hchunks]
  exact h.quota

theorem chunksWith_ne {c : ChunkUpload} (hfree : t.chunks.lookup c.index.toNat = none)
    (cs : List ChunkUpload) : t.chunksWith (c :: cs) ≠ t.chunks := by
  intro heq
  obtain ⟨v, hv⟩ := FirstWrite.exists_lookup_write (m := t.chunks) (e := c.entry)
  have hlook : (writeAll (write t.chunks c.entry) (cs.map ChunkUpload.entry)).lookup
      c.index.toNat = some v := FirstWrite.lookup_writeAll_of_lookup _ hv
  change (t.chunksWith (c :: cs)).lookup _ = _ at hlook
  rw [heq, hfree] at hlook
  cases hlook

/-- The first put fits the quota, if it writes. -/
theorem Fillable.room {c : ChunkUpload} {cs : List ChunkUpload} (h : Fillable H tid s t (c :: cs))
    (hm : t.hasMailbox = true) (hfree : t.chunks.lookup c.index.toNat = none) :
    mailboxStoredBytesLocked s t.mailboxID + c.payload.length ≤ maxStoredBytesPerMailbox := by
  have hbytes : bytesOf (write t.chunks c.entry) = bytesOf t.chunks + c.payload.length := by
    rw [FirstWrite.write_free (e := c.entry) hfree, Nat.add_comm]
    exact GoMap.sumBy_insert_of_notMem _ (Finmap.lookup_eq_none.mp hfree)
  have hle : bytesOf (write t.chunks c.entry) ≤ bytesOf (t.chunksWith (c :: cs)) :=
    FirstWrite.sumBy_le_writeAll _ _
  have hfit := h.quota hm (chunksWith_ne hfree cs)
  omega

/-- A put stays welcome after one it agrees with. -/
theorem Welcome.after {c c' : ChunkUpload} {s' : MemStore} {t' : TransferData}
    (hw : Welcome H t c) (hfilled : Filled H tid s t [c'] s' t')
    (hsame : c.index.toNat = c'.index.toNat → c.payload = c'.payload) : Welcome H t' c := by
  refine ⟨hw.shaped.of_fixed hfilled.fixed, fun old hold => ?_⟩
  rw [hfilled.chunks] at hold
  change (write t.chunks c'.entry).lookup _ = _ at hold
  cases hc : t.chunks.lookup c.index.toNat with
  | some p =>
    rw [FirstWrite.lookup_write hc] at hold
    cases hold
    exact hw.agrees _ hc
  | none =>
    cases hc' : t.chunks.lookup c'.index.toNat with
    | some p =>
      rw [FirstWrite.write_taken (e := c'.entry) hc', hc] at hold
      cases hold
    | none =>
      rw [FirstWrite.write_free (e := c'.entry) hc', GoMap.lookup_insert_eq] at hold
      split_ifs at hold with heq
      · cases hold
        rw [hsame heq]
        exact ⟨rfl, rfl⟩
      · rw [hc] at hold
        cases hold

/-- After the first put the others can still be made. -/
theorem Fillable.tail {c : ChunkUpload} {cs : List ChunkUpload} {s' : MemStore} {t' : TransferData}
    (h : Fillable H tid s t (c :: cs)) (hfirst : Filled H tid s t [c] s' t') :
    Fillable H tid s' t' cs := by
  obtain ⟨hmid, hm, -⟩ := mailbox_of_fixed hfirst.fixed
  refine ⟨fun c' hc' => h.transferID c' (List.mem_cons_of_mem c hc'), fun c' hc' => ?_,
    h.consistent.tail, ?_⟩
  · refine (h.welcome c' (List.mem_cons_of_mem c hc')).after hfirst fun heq => ?_
    exact h.consistent _ (List.mem_map_of_mem (List.mem_cons_of_mem c hc')) _
      List.mem_cons_self heq
  · rw [chunksWith_of_fixed hfirst, hmid, hm]
    intro hb hne
    have hstored := hfirst.stored hb
    have hwrote : t.chunksWith (c :: cs) ≠ t.chunks := by
      cases hc : t.chunks.lookup c.index.toNat with
      | none => exact chunksWith_ne hc cs
      | some old =>
        have hkept : t'.chunks = t.chunks :=
          hfirst.chunks.trans (FirstWrite.write_taken (e := c.entry) hc)
        rwa [hkept] at hne
    have hfit := h.quota hb hwrote
    omega

/-- Puts that can be made succeed in any order. -/
theorem allPut_of_fillable : ∀ (cs : List (ℤ × ChunkUpload)) {s : MemStore} {t : TransferData},
    Taking H tid s t → NeverExpired H tid s (puts cs) → Fillable H tid s t (cs.map Prod.snd) →
    AllPut H s (puts cs)
  | [], _, _, _, _, _ => fun _ hr => absurd hr List.not_mem_nil
  | p :: cs, s, t, h, hlive, hfill => by
    obtain ⟨hnow, hlive⟩ := neverExpired_cons.mp hlive
    have hid := hfill.transferID p.2 List.mem_cons_self
    obtain ⟨n, hn⟩ := put_of_welcome h hid (hnow t h.lookup)
      (hfill.welcome p.2 List.mem_cons_self) hfill.room
    obtain ⟨-, t₁, hfirst⟩ := filled_of_put h hid hn
    exact allPut_cons.mpr ⟨⟨n, hn⟩,
      allPut_of_fillable cs hfirst.taking hlive (hfill.tail hfirst)⟩

end Runs

/-! ## The record -/

/-- The records agree on what a put can change. -/
structure SameUpload (t t' : TransferData) : Prop where
  chunks : t'.chunks = t.chunks
  hashes : t'.hashes = t.hashes
  present : t'.present = t.present
  presentCount : t'.presentCount = t.presentCount
  storedBytes : t'.storedBytes = t.storedBytes
  highest : t'.highest = t.highest
  state : t'.state = t.state

section Record

variable {t t' : TransferData}

theorem WellFormed.hashes_eq (wf : WellFormed H t) (wf' : WellFormed H t')
    (h : t'.chunks = t.chunks) : t'.hashes = t.hashes := by
  refine Finmap.ext_lookup fun i => ?_
  cases hp : t.chunks.lookup i with
  | some p => rw [wf.hash_eq i p hp, wf'.hash_eq i p (h ▸ hp)]
  | none =>
    have hnot : i ∉ t.chunks := Finmap.lookup_eq_none.mp hp
    rw [Finmap.lookup_eq_none.mpr (mt (wf.mem_hashes i).mp hnot),
      Finmap.lookup_eq_none.mpr (mt (wf'.mem_hashes i).mp (h ▸ hnot))]

theorem WellFormed.present_eq (wf : WellFormed H t) (wf' : WellFormed H t')
    (hcount : t'.chunkCount = t.chunkCount) (h : t'.chunks = t.chunks) :
    t'.present = t.present := by
  have hlen : t'.present.length = t.present.length := by
    rw [wf.length_present, wf'.length_present, hcount]
  have hflag : ∀ i : ℕ, t'.present[i]? = some true ↔ t.present[i]? = some true := fun i => by
    rw [← wf.mem_chunks, ← wf'.mem_chunks, h]
  refine List.ext_getElem hlen fun i hi hi' => ?_
  have hi := hflag i
  rw [List.getElem?_eq_getElem hi', List.getElem?_eq_getElem (hlen ▸ hi'), Option.some.injEq,
    Option.some.injEq] at hi
  exact Bool.eq_iff_iff.mpr hi

theorem isOpen_cases {st : TransferState} (h : st.isOpen = true) :
    st = .created ∨ st = .uploading := by
  cases st
  case created => exact .inl rfl
  case uploading => exact .inr rfl
  all_goals cases h

/-- In an open record the chunks determine the rest. -/
theorem sameUpload_of_chunks (wf : WellFormed H t) (wf' : WellFormed H t')
    (hopen : t.state.isOpen = true) (hopen' : t'.state.isOpen = true)
    (hcount : t'.chunkCount = t.chunkCount) (h : t'.chunks = t.chunks) : SameUpload t t' := by
  have hpresent := wf.present_eq wf' hcount h
  have hnumber : t'.presentCount = t.presentCount := by
    rw [wf.presentCount_eq, wf'.presentCount_eq, hpresent]
  have hleast := wf.highest_eq
  have hleast' := wf'.highest_eq
  rw [hpresent, hcount] at hleast'
  refine ⟨h, wf.hashes_eq wf' h, hpresent, hnumber, ?_, ?_, ?_⟩
  · rw [wf.storedBytes_eq, wf'.storedBytes_eq, h]
  · exact le_antisymm (hleast'.mono hleast fun _ hi => hi) (hleast.mono hleast' fun _ hi => hi)
  · rcases isOpen_cases hopen with hs | hs <;> rcases isOpen_cases hopen' with hs' | hs'
    · rw [hs, hs']
    · have hzero := wf.created hs
      have hone := wf'.uploading hs'
      omega
    · have hone := wf.uploading hs
      have hzero := wf'.created hs'
      omega
    · rw [hs, hs']

end Record

/-- In every state the store reaches, consistent puts to an open transfer that succeed in one
order succeed in every order and however often they are repeated, and leave the same record. -/
theorem uploads_commute (H : Bytes → Digest) (es : List Event) {tid : ID} {t : TransferData}
    (h : (runStore H es).transfers.lookup tid = some t) (hopen : t.state.isOpen = true)
    (cs cs' : List (ℤ × ChunkUpload)) (hid : ∀ p ∈ cs, copyArr 16 p.2.transferID = tid)
    (hcons : ∀ p ∈ cs, ∀ q ∈ cs, p.2.index = q.2.index → p.2.payload = q.2.payload)
    (hall : AllPut H (runStore H es) (puts cs))
    (hsame : ∀ c, c ∈ cs'.map Prod.snd ↔ c ∈ cs.map Prod.snd)
    (hlive : NeverExpired H tid (runStore H es) (puts cs')) :
    AllPut H (runStore H es) (puts cs') ∧
      ∃ t₁ t₂, ((store H).run (runStore H es) (puts cs)).transfers.lookup tid = some t₁ ∧
        ((store H).run (runStore H es) (puts cs')).transfers.lookup tid = some t₂ ∧
        SameUpload t₁ t₂ := by
  have htaking : Taking H tid (runStore H es) t :=
    ⟨h, storeInv_run storeInv_newMemStore es tid t h, hopen⟩
  have hid : ∀ c ∈ cs.map Prod.snd, copyArr 16 c.transferID = tid := List.forall_mem_map.mpr hid
  have hcons : Consistent ((cs.map Prod.snd).map ChunkUpload.entry) := by
    intro a ha b hb heq
    rw [List.map_map, List.mem_map] at ha hb
    obtain ⟨p, hp, rfl⟩ := ha
    obtain ⟨q, hq, rfl⟩ := hb
    exact hcons p hp q hq (UInt32.toNat_inj.mp heq)
  have hfill := fillable_of_allPut htaking hid hcons hall
  have hfill' := hfill.congr hsame
  have hall' := allPut_of_fillable cs' htaking hlive hfill'
  obtain ⟨-, t₁, hfilled⟩ := filled_of_allPut cs htaking hid hall
  obtain ⟨-, t₂, hfilled'⟩ := filled_of_allPut cs' htaking hfill'.transferID hall'
  refine ⟨hall', t₁, t₂, hfilled.taking.lookup, hfilled'.taking.lookup, ?_⟩
  refine sameUpload_of_chunks hfilled.taking.wf hfilled'.taking.wf hfilled.taking.isOpen
    hfilled'.taking.isOpen ?_ ?_
  · exact (mailbox_of_fixed (hfilled'.fixed.trans hfilled.fixed.symm)).2.2
  · rw [hfilled.chunks, hfilled'.chunks]
    refine FirstWrite.writeAll_congr hcons fun e => ?_
    simp only [List.mem_map (f := ChunkUpload.entry), hsame]

/-- Both chunks of the sample transfer. -/
def forwardPuts : List (ℤ × ChunkUpload) :=
  [(1, sampleChunk 0 [1, 2] []), (2, sampleChunk 1 [3] [])]

/-- The chunks in the other order, one of them twice. -/
def shuffledPuts : List (ℤ × ChunkUpload) :=
  [(5, sampleChunk 1 [3] []), (6, sampleChunk 0 [1, 2] []), (9, sampleChunk 1 [3] [])]

/-- The shuffled puts succeed as well, and leave the same record. -/
theorem shuffled_puts_commute :
    AllPut sampleHash (runStore sampleHash
        [⟨0, .createTransfer sampleCreate sampleID (some sampleTicket)⟩]) (puts shuffledPuts) ∧
      ∃ t₁ t₂,
        ((store sampleHash).run (runStore sampleHash
          [⟨0, .createTransfer sampleCreate sampleID (some sampleTicket)⟩])
            (puts forwardPuts)).transfers.lookup sampleID = some t₁ ∧
        ((store sampleHash).run (runStore sampleHash
          [⟨0, .createTransfer sampleCreate sampleID (some sampleTicket)⟩])
            (puts shuffledPuts)).transfers.lookup sampleID = some t₂ ∧
        SameUpload t₁ t₂ := by
  have hstate : ((runStore sampleHash
      [⟨0, .createTransfer sampleCreate sampleID (some sampleTicket)⟩]).transfers.lookup
        sampleID).map (fun t => t.state) = some .created := by decide
  obtain ⟨t, ht, hs⟩ := Option.map_eq_some_iff.mp hstate
  have hall : (store sampleHash).trace (runStore sampleHash
      [⟨0, .createTransfer sampleCreate sampleID (some sampleTicket)⟩]) (puts forwardPuts) =
      [(⟨1, .putChunk (sampleChunk 0 [1, 2] [])⟩, .put (.ok 1)),
        (⟨2, .putChunk (sampleChunk 1 [3] [])⟩, .put (.ok 2))] := rfl
  refine uploads_commute sampleHash _ ht (by rw [hs]; rfl) forwardPuts shuffledPuts (by decide)
    (by decide) ?_ (fun c => ?_) ?_
  · unfold AllPut
    rw [hall]
    simp
  · simp [forwardPuts, shuffledPuts]
    tauto
  · have hlive : ∀ (deadline : ℤ) {o : Option TransferData} {now : ℤ},
        o.map (fun t => t.expiresAt) = some deadline → now < deadline →
          ∀ t, o = some t → now < t.expiresAt := by
      rintro deadline _ now hmap hlt t rfl
      cases hmap
      exact hlt
    exact ⟨hlive 86400000 (by decide) (by decide),
      hlive 86400005 (by decide) (by decide),
      hlive 86400006 (by decide) (by decide), trivial⟩

end FileRelay
