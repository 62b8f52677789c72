import FileRelay.TransferInv

/-!
# A transfer only grows

From its creation to its removal the record of a transfer changes in one direction. What
was fixed at the create stays as it was, chunks are added and never replaced, the counters
do not go back, and once it is sealed it does not change at all : `Extends`. Only a cancel
or a sweep removes it (`Removes`), and only a create that draws an id in use could put
another record in its place (`FreshID`).

`extends_step` is one call, `extends_run` a run.
-/

namespace FileRelay

/-- What `CreateTransfer` fixes : the mailbox, the ticket, the geometry, the manifest, the
sender and the time. -/
def TransferData.fixed (t : TransferData) :
    (ID × Bool) × Digest × (ℕ × ℕ × ℕ) × Bytes × Bytes × ℤ :=
  ((t.mailboxID, t.hasMailbox), t.downloadSecretHash, (t.totalSize, t.chunkSize, t.chunkCount),
    t.manifest, t.senderPub, t.createdAt)

/-- `t'` is `t` at a later moment. -/
structure Extends (t t' : TransferData) : Prop where
  fixed : t'.fixed = t.fixed
  chunks : ∀ i p, t.chunks.lookup i = some p → t'.chunks.lookup i = some p
  hashes : ∀ i h, t.hashes.lookup i = some h → t'.hashes.lookup i = some h
  present : ∀ i : ℕ, t.present[i]? = some true → t'.present[i]? = some true
  presentCount : t.presentCount ≤ t'.presentCount
  highest : t.highest ≤ t'.highest
  sealed : t.state = .complete → t' = t

theorem Extends.refl (t : TransferData) : Extends t t :=
  ⟨rfl, fun _ _ h => h, fun _ _ h => h, fun _ h => h, le_refl _, le_refl _, fun _ => rfl⟩

theorem Extends.trans {t t' t'' : TransferData} (h : Extends t t') (h' : Extends t' t'') :
    Extends t t'' where
  fixed := h'.fixed.trans h.fixed
  chunks i p hp := h'.chunks i p (h.chunks i p hp)
  hashes i p hp := h'.hashes i p (h.hashes i p hp)
  present i hi := h'.present i (h.present i hi)
  presentCount := h.presentCount.trans h'.presentCount
  highest := h.highest.trans h'.highest
  sealed hs := by
    obtain rfl := h.sealed hs
    exact h'.sealed hs

/-- With more flags set the first missing index is not smaller. -/
theorem LeastMissing.mono {present present' : List Bool} {count h h' : ℕ}
    (hl : LeastMissing present count h) (hl' : LeastMissing present' count h')
    (hsub : ∀ i : ℕ, present[i]? = some true → present'[i]? = some true) : h ≤ h' := by
  by_contra hlt
  push Not at hlt
  exact hl'.missing (lt_of_lt_of_le hlt hl.le) (hsub h' (hl.below h' hlt))

variable (H : Bytes → Digest)

/-- A create that succeeds has drawn an id no stored transfer has. -/
def FreshID (s : MemStore) (e : Event) : Prop :=
  ∀ id ticket deadline, ((store H).step s e).2 = .created (.ok (id, ticket, deadline)) →
    s.transfers.lookup id = none

/-- The call removes the transfer : a cancel that succeeds, or a sweep after its deadline. -/
def Removes (tid : ID) (s : MemStore) (e : Event) : Prop :=
  ((∃ mid secret, e.op = .cancelTransfer tid mid secret) ∧
      ((store H).step s e).2 = .cancelled (.ok ())) ∨
    (e.op = .sweep ∧ ∃ t, s.transfers.lookup tid = some t ∧ t.expiresAt ≤ e.now)

variable {H}

/-- Storing a new chunk extends the record. -/
theorem extends_storeChunk {t : TransferData} {c : ChunkUpload} (now : ℤ) (wf : WellFormed H t)
    (hc : checkChunk H t c = .ok ()) (hn : t.chunks.lookup c.index.toNat = none) :
    Extends t (storeChunk H t c now) := by
  have wf' := wellFormed_storeChunk now wf hc hn
  have hnotMem : c.index.toNat ∉ t.chunks := Finmap.lookup_eq_none.mp hn
  have hopen := ((checkChunk_eq_ok H).mp hc).1.1
  have hpresent : ∀ i : ℕ, t.present[i]? = some true →
      (storeChunk H t c now).present[i]? = some true := by
    intro i hi
    exact (wf'.mem_chunks i).mp (Finmap.mem_insert.mpr (Or.inr ((wf.mem_chunks i).mpr hi)))
  have hne : ∀ i, i ∈ t.chunks → i ≠ c.index.toNat := by
    rintro i hi rfl
    exact hnotMem hi
  refine ⟨rfl, fun i p hp => ?_, fun i h hh => ?_, hpresent, ?_, wf.highest_eq.mono
    wf'.highest_eq hpresent, fun hs => absurd hs hopen⟩
  · exact (Finmap.lookup_insert_of_ne _ (hne i (Finmap.mem_of_lookup_eq_some hp))).trans hp
  · have hi := (wf.mem_hashes i).mp (Finmap.mem_of_lookup_eq_some hh)
    exact (Finmap.lookup_insert_of_ne _ (hne i hi)).trans hh
  · rw [storeChunk_eq now wf hc hn]
    exact Nat.le_succ _

/-- A call that does not remove a transfer extends it. -/
theorem extends_step {s : MemStore} {e : Event} {tid : ID} {t : TransferData}
    (inv : StoreInv H s) (hf : FreshID H s e) (hr : ¬Removes H tid s e)
    (ht : s.transfers.lookup tid = some t) :
    ∃ t', ((store H).step s e).1.transfers.lookup tid = some t' ∧ Extends t t' := by
  have step := step_transfer H s e tid
  generalize ho : ((store H).step s e).1.transfers.lookup tid = o at step
  rcases step with _ | ⟨r, ticket, -, -, -, hout⟩ | ⟨ht', -, hs⟩ |
    ⟨c, -, -, -, ht', -, hc, hn, -⟩ | ⟨r, -, -, ht', -, hs, -⟩ | ⟨mid, secret, hop, -, -, hout⟩ |
    ⟨hop, ht', late⟩
  · exact ⟨t, ht, .refl t⟩
  · rw [hf _ _ _ hout] at ht
    cases ht
  · cases ht.symm.trans ht'
    exact ⟨_, rfl, { Extends.refl t with sealed := fun h => absurd h hs }⟩
  · cases ht.symm.trans ht'
    exact ⟨_, rfl, extends_storeChunk e.now (inv tid t ht) hc hn⟩
  · cases ht.symm.trans ht'
    exact ⟨_, rfl, { Extends.refl t with sealed := fun h => absurd h hs }⟩
  · exact absurd (Or.inl ⟨⟨mid, secret, hop⟩, hout⟩) hr
  · exact absurd (Or.inr ⟨hop, _, ht', late⟩) hr

/-- From any moment to any later one before it is removed, a transfer has only grown. -/
theorem extends_run {tid : ID} : ∀ {s : MemStore} (es : List Event) {t : TransferData},
    StoreInv H s → (store H).Along (FreshID H) s es →
    (store H).Along (fun s e => ¬Removes H tid s e) s es → s.transfers.lookup tid = some t →
    ∃ t', ((store H).run s es).transfers.lookup tid = some t' ∧ Extends t t'
  | _, [], t, _, _, _, ht => ⟨t, ht, .refl t⟩
  | s, e :: es, t, inv, hf, hr, ht => by
    obtain ⟨t₁, ht₁, h₁⟩ := extends_step inv hf.1 hr.1 ht
    obtain ⟨t₂, ht₂, h₂⟩ := extends_run es (storeInv_step s e inv) hf.2 hr.2 ht₁
    exact ⟨t₂, ht₂, h₁.trans h₂⟩

end FileRelay
