import FileRelay.Step

/-!
# The outcomes of each operation

For each operation of the store, the pairs of store and result it can return, with what
its checks have established in each : `PutOutcome`, `CompleteOutcome`, `CancelOutcome`,
`CreateOutcome`, `SendOutcome`, `ReceiveOutcome` and `AckOutcome`. The six operations that
only read a transfer share `ReadEffect`.
-/

namespace FileRelay

/-! ## Assignments and lookups -/

@[simp] theorem setMailbox_transfers (s : MemStore) (id : ID) (mb : MailboxData) :
    (s.setMailbox id mb).transfers = s.transfers := rfl

@[simp] theorem setMailbox_replay (s : MemStore) (id : ID) (mb : MailboxData) :
    (s.setMailbox id mb).replay = s.replay := rfl

@[simp] theorem setTransfer_mailboxes (s : MemStore) (id : ID) (t : TransferData) :
    (s.setTransfer id t).mailboxes = s.mailboxes := rfl

@[simp] theorem setTransfer_replay (s : MemStore) (id : ID) (t : TransferData) :
    (s.setTransfer id t).replay = s.replay := rfl

theorem lookup_setMailbox (s : MemStore) (id k : ID) (mb : MailboxData) :
    (s.setMailbox id mb).mailboxes.lookup k =
      if k = id then some mb else s.mailboxes.lookup k :=
  GoMap.lookup_insert_eq _ _ _ _

theorem lookup_setTransfer (s : MemStore) (id k : ID) (t : TransferData) :
    (s.setTransfer id t).transfers.lookup k =
      if k = id then some t else s.transfers.lookup k :=
  GoMap.lookup_insert_eq _ _ _ _

@[simp] theorem slideMailbox_transfers (s : MemStore) (id : ID) (now : ℤ) :
    (slideMailbox s id now).transfers = s.transfers := by
  unfold slideMailbox
  split <;> rfl

@[simp] theorem slideMailbox_replay (s : MemStore) (id : ID) (now : ℤ) :
    (slideMailbox s id now).replay = s.replay := by
  unfold slideMailbox
  split <;> rfl

theorem lookup_slideMailbox {s : MemStore} {id : ID} {mb : MailboxData} (now : ℤ)
    (h : s.mailboxes.lookup id = some mb) :
    (slideMailbox s id now).mailboxes.lookup id = some (mb.slide now) := by
  unfold slideMailbox
  simp only [h, lookup_setMailbox, if_true]

theorem boundTo_iff {t : TransferData} {mid : ID} :
    t.boundTo mid = true ↔ t.hasMailbox = true ∧ t.mailboxID = mid := by
  unfold TransferData.boundTo
  rw [Bool.and_eq_true, decide_eq_true_eq]

theorem getMailboxLocked_eq_some {s : MemStore} {id : ID} {now : ℤ} {mb : MailboxData} :
    getMailboxLocked s id now = some mb ↔
      s.mailboxes.lookup id = some mb ∧ now < mb.expiresAt := by
  unfold getMailboxLocked
  cases s.mailboxes.lookup id with
  | none => simp
  | some mb' =>
    by_cases h : mb'.expiresAt ≤ now
    · simp only [h, if_true, reduceCtorEq, Option.some.injEq, false_iff, not_and]
      rintro rfl
      exact not_lt.mpr h
    · simp only [h, if_false, Option.some.injEq]
      refine ⟨?_, fun hm => hm.1⟩
      rintro rfl
      exact ⟨rfl, not_le.mp h⟩

/-- The deadlines of some mailboxes slid and nothing else about mailboxes changed. -/
def OnlySlides (s s' : MemStore) (now : ℤ) : Prop :=
  ∀ k, s'.mailboxes.lookup k = s.mailboxes.lookup k ∨
    ∃ mb, s.mailboxes.lookup k = some mb ∧ s'.mailboxes.lookup k = some (mb.slide now)

theorem onlySlides_of_eq {s s' : MemStore} {now : ℤ} (h : s'.mailboxes = s.mailboxes) :
    OnlySlides s s' now :=
  fun k => Or.inl (by rw [h])

theorem onlySlides_setMailbox {s s' : MemStore} {now : ℤ} {id : ID} {mb : MailboxData}
    (hs : s'.mailboxes = s.mailboxes) (h : s.mailboxes.lookup id = some mb) :
    OnlySlides s (s'.setMailbox id (mb.slide now)) now := by
  intro k
  rw [lookup_setMailbox, hs]
  split_ifs with hk
  · subst hk
    exact Or.inr ⟨mb, h, rfl⟩
  · exact Or.inl rfl

theorem onlySlides_slideMailbox {s s' : MemStore} {now : ℤ} {id : ID}
    (hs : s'.mailboxes = s.mailboxes) : OnlySlides s (slideMailbox s' id now) now := by
  unfold slideMailbox
  split
  · rename_i mb h
    exact onlySlides_setMailbox hs (by rw [← hs, h])
  · exact onlySlides_of_eq hs

/-! ## Finding a transfer -/

/-- The three answers of `findTransfer`. -/
inductive Found (s : MemStore) (id : ID) (now : ℤ) : MemStore × Result TransferData → Prop
  | missing (h : s.transfers.lookup id = none) :
    Found s id now (fail s .transferNotFound "transfer not found")
  | expired {t : TransferData} (h : s.transfers.lookup id = some t) (late : t.expiresAt ≤ now)
      (hs : t.state ≠ .complete) :
    Found s id now (fail (s.setTransfer id t.expire) .transferExpired "transfer expired")
  | live {t : TransferData} (h : s.transfers.lookup id = some t)
      (hl : t.state ≠ .complete → now < t.expiresAt) :
    Found s id now (s, .ok t)

/-- A transfer that is not relabelled is found as it is. -/
theorem findTransfer_live {s : MemStore} {id : ID} {now : ℤ} {t : TransferData}
    (h : s.transfers.lookup id = some t) (hl : t.state ≠ .complete → now < t.expiresAt) :
    findTransfer s id now = (s, .ok t) := by
  have hn : ¬(t.expiresAt ≤ now ∧ t.state ≠ .complete) :=
    fun hc => absurd (hl hc.2) (not_lt.mpr hc.1)
  unfold findTransfer getTransferLocked
  simp only [h]
  rw [if_neg hn]

/-- A transfer past its deadline and not complete is not found. -/
theorem findTransfer_expired {s : MemStore} {id : ID} {now : ℤ} {t : TransferData}
    (h : s.transfers.lookup id = some t) (late : t.expiresAt ≤ now) (hs : t.state ≠ .complete) :
    findTransfer s id now =
      fail (s.setTransfer id t.expire) .transferExpired "transfer expired" := by
  unfold findTransfer getTransferLocked
  simp only [h]
  rw [if_pos ⟨late, hs⟩]
  simp only [lookup_setTransfer, if_true]

theorem findTransfer_found (s : MemStore) (id : ID) (now : ℤ) :
    Found s id now (findTransfer s id now) := by
  cases h : s.transfers.lookup id with
  | none =>
    have hm : findTransfer s id now = fail s .transferNotFound "transfer not found" := by
      unfold findTransfer getTransferLocked
      simp only [h]
    rw [hm]
    exact .missing h
  | some t =>
    by_cases hl : t.state ≠ .complete → now < t.expiresAt
    · rw [findTransfer_live h hl]
      exact .live h hl
    · push Not at hl
      rw [findTransfer_expired h hl.2 hl.1]
      exact .expired h hl.2 hl.1

theorem findTransfer_mailboxes (s : MemStore) (id : ID) (now : ℤ) :
    (findTransfer s id now).1.mailboxes = s.mailboxes := by
  have h := findTransfer_found s id now
  generalize findTransfer s id now = r at h ⊢
  rcases h <;> rfl

theorem findTransfer_replay (s : MemStore) (id : ID) (now : ℤ) :
    (findTransfer s id now).1.replay = s.replay := by
  have h := findTransfer_found s id now
  generalize findTransfer s id now = r at h ⊢
  rcases h <;> rfl

theorem onTransfer_live {α : Type} {s : MemStore} {id : ID} {now : ℤ} {t : TransferData}
    (rest : MemStore → TransferData → MemStore × Result α) (h : s.transfers.lookup id = some t)
    (hl : t.state ≠ .complete → now < t.expiresAt) : onTransfer s id now rest = rest s t := by
  unfold onTransfer
  rw [findTransfer_live h hl]

/-- An operation that succeeds has found its transfer. -/
theorem onTransfer_eq_ok {α : Type} {s : MemStore} {id : ID} {now : ℤ} {r : α}
    {rest : MemStore → TransferData → MemStore × Result α}
    (h : (onTransfer s id now rest).2 = .ok r) :
    ∃ t, s.transfers.lookup id = some t ∧ (t.state ≠ .complete → now < t.expiresAt) ∧
      (rest s t).2 = .ok r := by
  have hf := findTransfer_found s id now
  unfold onTransfer at h
  generalize findTransfer s id now = f at hf h
  rcases hf with hm | ⟨ht, late, hs⟩ | ⟨ht, hl⟩
  · cases h
  · cases h
  · exact ⟨_, ht, hl, h⟩

variable (H : Bytes → Digest)

/-- What the owner check has established when it passes. -/
theorem ownerAuth_eq_ok {s s' : MemStore} {t : TransferData} {mid : ID} {secret : Bytes}
    {now : ℤ} : ownerAuth H s t mid secret now = .ok s' ↔
      (t.hasMailbox = false ∧ s' = s) ∨
      (t.hasMailbox = true ∧ t.mailboxID = mid ∧ ∃ mb, s.mailboxes.lookup mid = some mb ∧
        now < mb.expiresAt ∧ secretMatches H mb.readSecretHash secret = true ∧
        s' = s.setMailbox mid (mb.slide now)) := by
  unfold ownerAuth
  cases hm : t.hasMailbox with
  | false =>
    simp only [Bool.false_eq_true, if_false, Except.ok.injEq, true_and, false_and, or_false]
    exact eq_comm
  | true =>
    by_cases hid : t.mailboxID = mid
    · cases hg : getMailboxLocked s mid now with
      | none =>
        have hno : ∀ mb, s.mailboxes.lookup mid = some mb → ¬now < mb.expiresAt := by
          intro mb hmb hlt
          rw [getMailboxLocked_eq_some.mpr ⟨hmb, hlt⟩] at hg
          cases hg
        simp only [if_true, hid, ne_eq, not_true_eq_false, if_false, reduceCtorEq, false_and,
          true_and, false_or, false_iff, not_exists, not_and]
        exact fun mb hmb hlt => absurd hlt (hno mb hmb)
      | some mb =>
        obtain ⟨hmb, hlt⟩ := getMailboxLocked_eq_some.mp hg
        cases hs : secretMatches H mb.readSecretHash secret with
        | false => simp [hid, hmb, hs]
        | true =>
          simp only [if_true, hid, ne_eq, not_true_eq_false, if_false, hs, Bool.not_true,
            Bool.false_eq_true, Except.ok.injEq, reduceCtorEq, false_and, true_and, false_or, hmb,
            Option.some.injEq, exists_eq_left', hlt]
          exact eq_comm
    · simp [hid]

/-! ## Reads -/

/-- The effect of a call that looks a transfer up and reads it. -/
structure ReadEffect (s : MemStore) (now : ℤ) (tid : ID) (s' : MemStore) : Prop where
  transfers : s'.transfers = (findTransfer s tid now).1.transfers
  mailboxes : OnlySlides s s' now
  replay : s'.replay = s.replay

theorem readEffect_found {s s' : MemStore} {now : ℤ} {tid : ID} {r : Result TransferData}
    (h : findTransfer s tid now = (s', r)) : ReadEffect s now tid s' := by
  have hm := findTransfer_mailboxes s tid now
  have hr := findTransfer_replay s tid now
  rw [h] at hm hr
  exact ⟨by rw [h], onlySlides_of_eq hm, hr⟩

theorem readEffect_auth {s s' s'' : MemStore} {now : ℤ} {tid mid : ID} {secret : Bytes}
    {t : TransferData} {r : Result TransferData} (h : findTransfer s tid now = (s', r))
    (ha : ownerAuth H s' t mid secret now = .ok s'') : ReadEffect s now tid s'' := by
  have hm := findTransfer_mailboxes s tid now
  have hr := findTransfer_replay s tid now
  rw [h] at hm hr
  rcases (ownerAuth_eq_ok H).mp ha with ⟨-, rfl⟩ | ⟨-, -, mb, hmb, -, -, rfl⟩
  · exact readEffect_found h
  · refine ⟨by rw [h]; rfl, onlySlides_setMailbox hm ?_, hr⟩
    rw [← hm]
    exact hmb

theorem getChunk_effect (s : MemStore) (now : ℤ) (tid mid : ID) (secret : Bytes)
    (index : UInt32) : ReadEffect s now tid (getChunk H s now tid mid secret index).1 := by
  unfold getChunk onTransfer
  rcases h : findTransfer s tid now with ⟨s', e | t⟩
  · exact readEffect_found h
  · rcases ha : ownerAuth H s' t mid secret now with e | s''
    · simpa only [ha] using readEffect_found h
    · simpa only [ha] using readEffect_auth H h ha

theorem resume_effect (s : MemStore) (now : ℤ) (tid mid : ID) (secret : Bytes) :
    ReadEffect s now tid (resume H s now tid mid secret).1 := by
  unfold resume onTransfer
  rcases h : findTransfer s tid now with ⟨s', e | t⟩
  · exact readEffect_found h
  · rcases ha : ownerAuth H s' t mid secret now with e | s''
    · simpa only [ha] using readEffect_found h
    · simpa only [ha] using readEffect_auth H h ha

theorem getChunkByTicket_effect (s : MemStore) (now : ℤ) (tid : ID) (ticket : Bytes)
    (index : UInt32) : ReadEffect s now tid (getChunkByTicket H s now tid ticket index).1 := by
  unfold getChunkByTicket onTransfer
  rcases h : findTransfer s tid now with ⟨s', e | t⟩
  · exact readEffect_found h
  · rcases ha : checkTicketLocked H t ticket with e | ⟨⟩ <;>
      simpa only [ha] using readEffect_found h

theorem resumeByTicket_effect (s : MemStore) (now : ℤ) (tid : ID) (ticket : Bytes) :
    ReadEffect s now tid (resumeByTicket H s now tid ticket).1 := by
  unfold resumeByTicket onTransfer
  rcases h : findTransfer s tid now with ⟨s', e | t⟩
  · exact readEffect_found h
  · rcases ha : checkTicketLocked H t ticket with e | ⟨⟩ <;>
      simpa only [ha] using readEffect_found h

theorem progress_effect (s : MemStore) (now : ℤ) (tid : ID) :
    ReadEffect s now tid (progress s now tid).1 := by
  unfold progress onTransfer
  rcases h : findTransfer s tid now with ⟨s', e | t⟩ <;> exact readEffect_found h

theorem getTransfer_effect (s : MemStore) (now : ℤ) (tid : ID) :
    ReadEffect s now tid (getTransfer s now tid).1 := by
  unfold getTransfer onTransfer
  rcases h : findTransfer s tid now with ⟨s', e | t⟩ <;> exact readEffect_found h

/-! ## The outcomes of the calls that write transfers -/

/-- The store after `PutChunk` has stored the chunk. -/
def putStore (s : MemStore) (now : ℤ) (c : ChunkUpload) (t : TransferData) : MemStore :=
  let s := s.setTransfer (copyArr 16 c.transferID) (storeChunk H t c now)
  if t.hasMailbox then slideMailbox s t.mailboxID now else s

theorem putStore_transfers (s : MemStore) (now : ℤ) (c : ChunkUpload) (t : TransferData) :
    (putStore H s now c t).transfers =
      (s.setTransfer (copyArr 16 c.transferID) (storeChunk H t c now)).transfers := by
  unfold putStore
  split_ifs <;> simp

theorem onlySlides_putStore (s : MemStore) (now : ℤ) (c : ChunkUpload) (t : TransferData) :
    OnlySlides s (putStore H s now c t) now := by
  unfold putStore
  split_ifs
  · exact onlySlides_slideMailbox rfl
  · exact onlySlides_of_eq rfl

/-- The outcomes of `PutChunk`. -/
inductive PutOutcome (s : MemStore) (now : ℤ) (c : ChunkUpload) : MemStore × Result ℕ → Prop
  | rejected (e : ProtocolError) : PutOutcome s now c (s, .error e)
  | expired {t : TransferData} (e : ProtocolError)
      (h : s.transfers.lookup (copyArr 16 c.transferID) = some t) (late : t.expiresAt ≤ now)
      (hs : t.state ≠ .complete) :
    PutOutcome s now c (s.setTransfer (copyArr 16 c.transferID) t.expire, .error e)
  | duplicate {t : TransferData} {old : Bytes}
      (h : s.transfers.lookup (copyArr 16 c.transferID) = some t)
      (hl : t.state ≠ .complete → now < t.expiresAt) (hc : checkChunk H t c = .ok ())
      (ho : t.chunks.lookup c.index.toNat = some old) (hlen : old.length = c.payload.length)
      (hh : H old = H c.payload) :
    PutOutcome s now c (s, .ok t.presentCount)
  | stored {t : TransferData} (hv : validateChunkUpload c = .ok ())
      (h : s.transfers.lookup (copyArr 16 c.transferID) = some t)
      (hl : t.state ≠ .complete → now < t.expiresAt) (hc : checkChunk H t c = .ok ())
      (hn : t.chunks.lookup c.index.toNat = none)
      (hq : t.hasMailbox = true → mailboxStoredBytesLocked s t.mailboxID + c.payload.length ≤
        maxStoredBytesPerMailbox) :
    PutOutcome s now c (putStore H s now c t, .ok (storeChunk H t c now).presentCount)

theorem putChunk_outcome (s : MemStore) (now : ℤ) (c : ChunkUpload) :
    PutOutcome H s now c (putChunk H s now c) := by
  unfold putChunk onTransfer
  rcases hv : validateChunkUpload c with e | ⟨⟩
  · exact .rejected e
  have hf := findTransfer_found s (copyArr 16 c.transferID) now
  generalize hr : findTransfer s (copyArr 16 c.transferID) now = r at hf
  simp only [hr]
  rcases hf with h | ⟨h, late, hs⟩ | ⟨h, hl⟩
  · exact .rejected _
  · exact .expired _ h late hs
  · rename_i t
    rcases hc : checkChunk H t c with e | ⟨⟩
    · simp only [hc]
      exact .rejected e
    rcases ho : t.chunks.lookup c.index.toNat with _ | old
    · by_cases hq : t.hasMailbox = true ∧ maxStoredBytesPerMailbox <
          mailboxStoredBytesLocked s t.mailboxID + c.payload.length
      · simp only [hc, ho]
        rw [if_pos hq]
        exact .rejected _
      · simp only [hc, ho]
        rw [if_neg hq]
        exact .stored hv h hl hc ho fun hm => not_lt.mp fun hlt => hq ⟨hm, hlt⟩
    · by_cases hd : old.length = c.payload.length ∧ H old = H c.payload
      · simp only [hc, ho]
        rw [if_pos hd]
        exact .duplicate h hl hc ho hd.1 hd.2
      · simp only [hc, ho]
        rw [if_neg hd]
        exact .rejected _

/-- The outcomes of `CompleteTransfer`. -/
inductive CompleteOutcome (s : MemStore) (now : ℤ) (r : TransferComplete) :
    MemStore × Result (Bool × ℕ × ℕ) → Prop
  | rejected (e : ProtocolError) : CompleteOutcome s now r (s, .error e)
  | expired {t : TransferData} (e : ProtocolError)
      (h : s.transfers.lookup (copyArr 16 r.transferID) = some t) (late : t.expiresAt ≤ now)
      (hs : t.state ≠ .complete) :
    CompleteOutcome s now r (s.setTransfer (copyArr 16 r.transferID) t.expire, .error e)
  | again {t : TransferData} (h : s.transfers.lookup (copyArr 16 r.transferID) = some t)
      (hs : t.state = .complete) :
    CompleteOutcome s now r (s, .ok (true, t.presentCount, t.chunkCount))
  | sealed {t : TransferData} (hv : validateTransferComplete r = .ok ())
      (h : s.transfers.lookup (copyArr 16 r.transferID) = some t) (hl : now < t.expiresAt)
      (hs : t.state ≠ .complete) (hc : t.state ≠ .cancelled)
      (hall : t.presentCount = t.chunkCount) :
    CompleteOutcome s now r
      (s.setTransfer (copyArr 16 r.transferID) (t.seal now),
        .ok (true, t.presentCount, t.chunkCount))

theorem completeTransfer_outcome (s : MemStore) (now : ℤ) (r : TransferComplete) :
    CompleteOutcome s now r (completeTransfer s now r) := by
  unfold completeTransfer onTransfer
  rcases hv : validateTransferComplete r with e | ⟨⟩
  · exact .rejected e
  have hf := findTransfer_found s (copyArr 16 r.transferID) now
  generalize hr : findTransfer s (copyArr 16 r.transferID) now = res at hf
  simp only [hr]
  rcases hf with h | ⟨h, late, hs⟩ | ⟨h, hl⟩
  · exact .rejected _
  · exact .expired _ h late hs
  · rename_i t
    dsimp only
    split_ifs with hs hc hall
    · exact .again h hs
    · exact .rejected _
    · exact .rejected _
    · exact .sealed hv h (hl hs) hs hc (not_not.mp hall)

/-- The outcomes of `CancelTransfer`. -/
inductive CancelOutcome (s : MemStore) (now : ℤ) (tid mid : ID) (secret : Bytes) :
    MemStore × Result Unit → Prop
  | rejected (e : ProtocolError) : CancelOutcome s now tid mid secret (s, .error e)
  | removed {t : TransferData} {s' : MemStore} (h : s.transfers.lookup tid = some t)
      (ha : ownerAuth H s t mid secret now = .ok s') :
    CancelOutcome s now tid mid secret ({ s' with transfers := s'.transfers.erase tid }, .ok ())

theorem cancelTransfer_outcome (s : MemStore) (now : ℤ) (tid mid : ID) (secret : Bytes) :
    CancelOutcome H s now tid mid secret (cancelTransfer H s now tid mid secret) := by
  unfold cancelTransfer
  rcases h : s.transfers.lookup tid with _ | t
  · exact .rejected _
  · rcases ha : ownerAuth H s t mid secret now with e | s'
    · simp only [ha]
      exact .rejected e
    · simp only [ha]
      exact .removed h ha

/-- The store after `CreateTransfer` has stored the record. -/
def createStore (s : MemStore) (now : ℤ) (r : TransferCreate) (id : ID) (ticket : ByteArr 32) :
    MemStore :=
  let s := s.setTransfer id (createdTransfer H r ticket now)
  if r.mailboxID.length = 16 then slideMailbox s (copyArr 16 r.mailboxID) now else s

theorem createStore_transfers (s : MemStore) (now : ℤ) (r : TransferCreate) (id : ID)
    (ticket : ByteArr 32) : (createStore H s now r id ticket).transfers =
      (s.setTransfer id (createdTransfer H r ticket now)).transfers := by
  unfold createStore
  split_ifs <;> simp

theorem onlySlides_createStore (s : MemStore) (now : ℤ) (r : TransferCreate) (id : ID)
    (ticket : ByteArr 32) : OnlySlides s (createStore H s now r id ticket) now := by
  unfold createStore
  split_ifs
  · exact onlySlides_slideMailbox rfl
  · exact onlySlides_of_eq rfl

/-- The outcomes of `CreateTransfer`. -/
inductive CreateOutcome (s : MemStore) (now : ℤ) (r : TransferCreate) (id : ID) :
    Option (ByteArr 32) → MemStore × Result (ID × Bytes × ℤ) → Prop
  | rejected (ticket : Option (ByteArr 32)) (e : ProtocolError) :
    CreateOutcome s now r id ticket (s, .error e)
  | stored (ticket : ByteArr 32) (hv : validateTransferCreateMsg r = .ok ())
      (hq : r.mailboxID.length = 16 →
        createTransferQuota s now (copyArr 16 r.mailboxID) r.totalSize.toNat = .ok ()) :
    CreateOutcome s now r id (some ticket)
      (createStore H s now r id ticket, .ok (id, ticket.toList, deadline now uploadTTLSeconds))

theorem createTransfer_outcome (s : MemStore) (now : ℤ) (r : TransferCreate) (id : ID)
    (ticket : Option (ByteArr 32)) :
    CreateOutcome H s now r id ticket (createTransfer H s now r id ticket) := by
  unfold createTransfer
  rcases hv : validateTransferCreateMsg r with e | ⟨⟩
  · exact .rejected _ e
  by_cases hm : r.mailboxID.length = 16
  · simp only [hm, decide_true, if_true]
    rcases hq : createTransferQuota s now (copyArr 16 r.mailboxID) r.totalSize.toNat with e | ⟨⟩
    · exact .rejected _ e
    rcases ticket with _ | ticket
    · exact .rejected _ _
    have hs : CreateOutcome H s now r id (some ticket) (createStore H s now r id ticket, _) :=
      .stored ticket hv fun _ => hq
    unfold createStore at hs
    rw [if_pos hm] at hs
    exact hs
  · simp only [hm, decide_false, Bool.false_eq_true, if_false]
    rcases ticket with _ | ticket
    · exact .rejected _ _
    have hs : CreateOutcome H s now r id (some ticket) (createStore H s now r id ticket, _) :=
      .stored ticket hv fun h => absurd h hm
    unfold createStore at hs
    rw [if_neg hm] at hs
    exact hs

/-- A create that succeeds stores its record. -/
theorem createTransfer_store {s : MemStore} {now : ℤ} {r : TransferCreate} {id : ID}
    {ticket : ByteArr 32} {x : ID × Bytes × ℤ}
    (h : (createTransfer H s now r id (some ticket)).2 = .ok x) :
    (createTransfer H s now r id (some ticket)).1 = createStore H s now r id ticket := by
  have ho := createTransfer_outcome H s now r id (some ticket)
  generalize createTransfer H s now r id (some ticket) = res at ho h ⊢
  generalize htk : some ticket = tk at ho
  rcases ho with _ | ⟨ticket', -, -⟩
  · cases h
  · obtain rfl := Option.some.inj htk
    rfl

/-- A put that succeeds at an index with no chunk stores its chunk. -/
theorem putChunk_store {s : MemStore} {now : ℤ} {c : ChunkUpload} {t : TransferData} {n : ℕ}
    (ht : s.transfers.lookup (copyArr 16 c.transferID) = some t)
    (hn : t.chunks.lookup c.index.toNat = none) (h : (putChunk H s now c).2 = .ok n) :
    (putChunk H s now c).1 = putStore H s now c t := by
  have ho := putChunk_outcome H s now c
  generalize putChunk H s now c = res at ho h ⊢
  rcases ho with _ | _ | ⟨ht', -, -, ho, -, -⟩ | ⟨-, ht', -, -, -, -⟩
  · cases h
  · cases h
  · cases ht.symm.trans ht'
    rw [hn] at ho
    cases ho
  · cases ht.symm.trans ht'
    rfl

/-- After an accepted put the chunk is stored, with its bytes or with bytes that were there
and have its digest. -/
theorem putChunk_accepted {s : MemStore} {now : ℤ} {c : ChunkUpload} {n : ℕ}
    (h : (putChunk H s now c).2 = .ok n) :
    ∃ t p, (putChunk H s now c).1.transfers.lookup (copyArr 16 c.transferID) = some t ∧
      t.chunks.lookup c.index.toNat = some p ∧
      (p = c.payload ∨ s.transfers.lookup (copyArr 16 c.transferID) = some t ∧
        H p = H c.payload) := by
  have hp := putChunk_outcome H s now c
  generalize putChunk H s now c = r at hp h ⊢
  rcases hp with ⟨e⟩ | ⟨e, ht, late, hs⟩ | ⟨ht, hl, hc, ho, hlen, hh⟩ | ⟨hv, ht, hl, hc, hn, hq⟩
  · cases h
  · cases h
  · exact ⟨_, _, ht, ho, Or.inr ⟨ht, hh⟩⟩
  · rename_i t
    refine ⟨storeChunk H t c now, c.payload, ?_, Finmap.lookup_insert _, Or.inl rfl⟩
    rw [putStore_transfers, lookup_setTransfer, if_pos rfl]

/-- What the mailbox checks of a create have established. -/
theorem createTransferQuota_eq_ok {s : MemStore} {now : ℤ} {mid : ID} {totalSize : ℕ} :
    createTransferQuota s now mid totalSize = .ok () ↔
      (∃ mb, s.mailboxes.lookup mid = some mb ∧ now < mb.expiresAt) ∧
      activeTransfersLocked s mid now < maxActiveTransfersPerMailbox ∧
      mailboxStoredBytesLocked s mid + totalSize ≤ maxStoredBytesPerMailbox := by
  unfold createTransferQuota
  rcases hg : getMailboxLocked s mid now with _ | mb
  · simp only [reduceCtorEq, false_iff, not_and]
    rintro ⟨mb, hmb⟩
    rw [getMailboxLocked_eq_some.mpr hmb] at hg
    cases hg
  · have hmb := getMailboxLocked_eq_some.mp hg
    simp only [failIf_eq_ok, not_le, not_lt, and_true]
    exact ⟨fun h => ⟨⟨mb, hmb⟩, h⟩, fun h => h.2⟩

/-! ## The outcomes of the calls on messages -/

theorem setMailbox_setMailbox (s : MemStore) (id : ID) (mb mb' : MailboxData) :
    (s.setMailbox id mb).setMailbox id mb' = s.setMailbox id mb' := by
  unfold MemStore.setMailbox
  rw [Finmap.insert_insert]

/-- The outcomes of `SendMessage`. -/
inductive SendOutcome (s : MemStore) (now : ℤ) (msg : SendMessage) (id : ID) :
    MemStore × Result (ID × ℕ) → Prop
  | rejected (e : ProtocolError) : SendOutcome s now msg id (s, .error e)
  | full {mb : MailboxData} (e : ProtocolError)
      (h : s.mailboxes.lookup (copyArr 16 msg.mailboxID) = some mb) (hl : now < mb.expiresAt) :
    SendOutcome s now msg id
      (s.setMailbox (copyArr 16 msg.mailboxID) (pruneMessagesLocked mb now), .error e)
  | accepted {mb : MailboxData} (hv : validateSendMessage msg = .ok ())
      (h : s.mailboxes.lookup (copyArr 16 msg.mailboxID) = some mb) (hl : now < mb.expiresAt)
      (hn : (pruneMessagesLocked mb now).messages.length < maxQueuedMessages)
      (hb : (pruneMessagesLocked mb now).storedBytes + msg.envelope.length ≤
        maxStoredBytesPerMailbox) :
    SendOutcome s now msg id
      (s.setMailbox (copyArr 16 msg.mailboxID) ((pruneMessagesLocked mb now).enqueue msg id now),
        .ok (id, ((pruneMessagesLocked mb now).enqueue msg id now).messages.length))

theorem sendMessage_outcome (s : MemStore) (now : ℤ) (msg : SendMessage) (id : ID) :
    SendOutcome s now msg id (sendMessage s now msg id) := by
  unfold sendMessage
  rcases hv : validateSendMessage msg with e | ⟨⟩
  · exact .rejected e
  rcases hg : getMailboxLocked s (copyArr 16 msg.mailboxID) now with _ | mb
  · simp only [hg]
    exact .rejected _
  obtain ⟨h, hl⟩ := getMailboxLocked_eq_some.mp hg
  simp only [hg]
  split_ifs with hn hb
  · exact .full _ h hl
  · exact .full _ h hl
  · rw [setMailbox_setMailbox]
    exact .accepted hv h hl (not_le.mp hn) (not_lt.mp hb)

/-- What `ReceiveMessages` leaves of a mailbox. -/
def MailboxData.afterReceive (mb : MailboxData) (now : ℤ) (limit : ℤ) (peek : Bool) :
    MailboxData :=
  let mb := pruneMessagesLocked mb now
  (if peek then mb else mb.keep (mb.messages.drop (clampLimit limit))).slide now

/-- The outcomes of `ReceiveMessages`. -/
inductive ReceiveOutcome (s : MemStore) (now : ℤ) (mid : ID) (secret : Bytes) (limit : ℤ)
    (peek : Bool) : MemStore × Result (List StoredMessage × Bool) → Prop
  | rejected (e : ProtocolError) : ReceiveOutcome s now mid secret limit peek (s, .error e)
  | read {mb : MailboxData} (h : s.mailboxes.lookup mid = some mb) (hl : now < mb.expiresAt)
      (hs : secretMatches H mb.readSecretHash secret = true) :
    ReceiveOutcome s now mid secret limit peek
      (s.setMailbox mid (mb.afterReceive now limit peek),
        .ok ((pruneMessagesLocked mb now).messages.take (clampLimit limit), !peek))

theorem receiveMessages_read {s : MemStore} {now : ℤ} {mid : ID} {secret : Bytes}
    {mb : MailboxData} (limit : ℤ) (peek : Bool) (h : s.mailboxes.lookup mid = some mb)
    (hl : now < mb.expiresAt) (hs : secretMatches H mb.readSecretHash secret = true) :
    receiveMessages H s now mid secret limit peek =
      (s.setMailbox mid (mb.afterReceive now limit peek),
        .ok ((pruneMessagesLocked mb now).messages.take (clampLimit limit), !peek)) := by
  unfold receiveMessages MailboxData.afterReceive
  rw [getMailboxLocked_eq_some.mpr ⟨h, hl⟩]
  simp only [hs, Bool.not_true, Bool.false_eq_true, if_false, Slice.takeLoop_eq]
  cases peek <;> rfl

theorem receiveMessages_outcome (s : MemStore) (now : ℤ) (mid : ID) (secret : Bytes) (limit : ℤ)
    (peek : Bool) : ReceiveOutcome H s now mid secret limit peek
      (receiveMessages H s now mid secret limit peek) := by
  rcases hg : getMailboxLocked s mid now with _ | mb
  · unfold receiveMessages
    rw [hg]
    exact .rejected _
  obtain ⟨h, hl⟩ := getMailboxLocked_eq_some.mp hg
  by_cases hs : secretMatches H mb.readSecretHash secret = true
  · rw [receiveMessages_read H limit peek h hl hs]
    exact .read h hl hs
  · unfold receiveMessages
    rw [hg]
    simp only [hs, Bool.not_false, if_true]
    exact .rejected _

/-- The outcomes of `AckMessages`. -/
inductive AckOutcome (s : MemStore) (now : ℤ) (mid : ID) (secret : Bytes) (msgIDs : List Bytes)
    (disposition : UInt8) : MemStore × Result (ℕ × ℕ) → Prop
  | rejected (e : ProtocolError) : AckOutcome s now mid secret msgIDs disposition (s, .error e)
  | malformed {mb : MailboxData} (e : ProtocolError) (h : s.mailboxes.lookup mid = some mb)
      (hl : now < mb.expiresAt) :
    AckOutcome s now mid secret msgIDs disposition
      (s.setMailbox mid (pruneMessagesLocked mb now), .error e)
  | acked {mb : MailboxData} {want : List ID} (h : s.mailboxes.lookup mid = some mb)
      (hl : now < mb.expiresAt) (hs : secretMatches H mb.readSecretHash secret = true)
      (hw : wantedIDs msgIDs = .ok want) :
    AckOutcome s now mid secret msgIDs disposition
      (s.setMailbox mid (mb.afterAck now want disposition),
        .ok (((pruneMessagesLocked mb now).messages.filter fun m => decide (m.id ∈ want)).length,
          (mb.afterAck now want disposition).messages.length))

theorem ackMessages_outcome (s : MemStore) (now : ℤ) (mid : ID) (secret : Bytes)
    (msgIDs : List Bytes) (disposition : UInt8) :
    AckOutcome H s now mid secret msgIDs disposition
      (ackMessages H s now mid secret msgIDs disposition) := by
  unfold ackMessages
  by_cases hd : disposition ≠ ackReceived ∧ disposition ≠ ackConsumed
  · rw [if_pos hd]
    exact .rejected _
  by_cases hn : msgIDs.length = 0 ∨ maxBatchMessages < msgIDs.length
  · rw [if_neg hd, if_pos hn]
    exact .rejected _
  rw [if_neg hd, if_neg hn]
  rcases hg : getMailboxLocked s mid now with _ | mb
  · exact .rejected _
  obtain ⟨h, hl⟩ := getMailboxLocked_eq_some.mp hg
  by_cases hs : secretMatches H mb.readSecretHash secret = true
  · simp only [hs, Bool.not_true, Bool.false_eq_true, if_false]
    rcases hw : wantedIDs msgIDs with e | want
    · exact .malformed e h hl
    · simp only [setMailbox_setMailbox, Slice.filterInPlace_eq]
      have hok : AckOutcome H s now mid secret msgIDs disposition (_, .ok (_, _)) :=
        .acked h hl hs hw
      unfold MailboxData.afterAck at hok
      by_cases hc : disposition = ackConsumed
      · simp only [hc, if_true] at hok ⊢
        exact hok
      · simp only [hc, if_false] at hok ⊢
        exact hok
  · simp only [hs, Bool.not_false, if_true]
    exact .rejected _

end FileRelay
