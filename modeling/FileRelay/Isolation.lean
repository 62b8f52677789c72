import FileRelay.Growth

/-!
# Mailboxes do not interfere

The scope of a call is the mailbox it names, or the mailbox its transfer is bound to
(`Op.scope`). `outside A s` is the store without the mailbox `A` and the transfers bound to
it. A call whose scope is `A` changes nothing outside `A` (`outside_callStore`). Any other
call reads and writes outside `A` only : it commutes with `outside A` (`Blind`).

So deleting the calls whose scope is `A` from a run leaves the answers of all other calls
and all records outside `A` the same : `mailboxes_do_not_interfere`.
-/

namespace FileRelay

/-! ## Scopes -/

/-- The id a field of a request names, if it has the width of one. -/
def namedID (raw : Bytes) : Option ID :=
  if raw.length = 16 then some (copyArr 16 raw) else none

/-- The mailbox the transfer is bound to. -/
def ownerOf (s : MemStore) (tid : ID) : Option ID :=
  (s.transfers.lookup tid).bind fun t => if t.hasMailbox then some t.mailboxID else none

/-- The mailbox a call is about : the one it names, or the one its transfer is bound to. -/
def Op.scope (s : MemStore) : Op → Option ID
  | .createMailbox mid _ => some mid
  | .mailboxExists mid => some mid
  | .checkReadSecret mid _ => some mid
  | .sendMessage msg _ => namedID msg.mailboxID
  | .receiveMessages mid _ _ _ => some mid
  | .ackMessages mid _ _ _ => some mid
  | .createTransfer t _ _ => namedID t.mailboxID
  | .putChunk c => (namedID c.transferID).bind (ownerOf s)
  | .getChunk tid _ _ _ => ownerOf s tid
  | .resume tid _ _ => ownerOf s tid
  | .getChunkByTicket tid _ _ => ownerOf s tid
  | .resumeByTicket tid _ => ownerOf s tid
  | .progress tid => ownerOf s tid
  | .completeTransfer r => (namedID r.transferID).bind (ownerOf s)
  | .cancelTransfer tid _ _ => ownerOf s tid
  | .getTransfer tid => ownerOf s tid
  | .checkAndMarkReplay _ => none
  | .sweep => none

/-- The scope of the call is the mailbox `A`. -/
def inScope (A : ID) (s : MemStore) (e : Event) : Bool :=
  e.op.scope s = some A

/-- The run without the calls whose scope is `A`. -/
def withoutScope (H : Bytes → Digest) (A : ID) (es : List Event) : List Event :=
  (store H).purge (inScope A) newMemStore es

/-- The answer but for the counts of `Sweep`. -/
def Output.withoutCounts : Output → Output
  | .swept _ => .swept (0, 0, 0)
  | o => o

/-! ## The store outside a mailbox -/

/-- The store without a mailbox and the transfers bound to it. -/
def outside (A : ID) (s : MemStore) : MemStore where
  mailboxes := s.mailboxes.erase A
  transfers := s.transfers.collect fun _ t => if t.boundTo A then none else some t
  replay := s.replay

@[ext] theorem MemStore.ext_lookup {s s' : MemStore}
    (mailboxes : ∀ id, s.mailboxes.lookup id = s'.mailboxes.lookup id)
    (transfers : ∀ id, s.transfers.lookup id = s'.transfers.lookup id)
    (replay : s.replay = s'.replay) : s = s' := by
  obtain ⟨m, t, r⟩ := s
  obtain ⟨m', t', r'⟩ := s'
  obtain rfl : m = m' := Finmap.ext_lookup mailboxes
  obtain rfl : t = t' := Finmap.ext_lookup transfers
  obtain rfl : r = r' := replay
  rfl

variable {A : ID} {s : MemStore}

theorem ownerOf_eq_some {tid : ID} :
    ownerOf s tid = some A ↔ ∃ t, s.transfers.lookup tid = some t ∧ t.boundTo A = true := by
  unfold ownerOf
  simp only [Option.bind_eq_some_iff, Option.ite_none_right_eq_some, Option.some.injEq,
    boundTo_iff]

theorem lookup_outside_mailbox {B : ID} (h : B ≠ A) :
    (outside A s).mailboxes.lookup B = s.mailboxes.lookup B :=
  Finmap.lookup_erase_ne h

theorem lookup_outside_transfer (tid : ID) : (outside A s).transfers.lookup tid =
    (s.transfers.lookup tid).bind fun t => if t.boundTo A then none else some t :=
  GoMap.lookup_collect _ _ _

theorem lookup_outside_of_not_bound {tid : ID}
    (h : ∀ t, s.transfers.lookup tid = some t → t.boundTo A = false) :
    (outside A s).transfers.lookup tid = s.transfers.lookup tid := by
  rw [lookup_outside_transfer]
  cases ht : s.transfers.lookup tid with
  | none => rfl
  | some t => rw [Option.bind_some, h t ht, if_neg Bool.false_ne_true]

theorem getMailboxLocked_outside {B : ID} (h : B ≠ A) (now : ℤ) :
    getMailboxLocked (outside A s) B now = getMailboxLocked s B now := by
  unfold getMailboxLocked
  rw [lookup_outside_mailbox h]

theorem outside_setMailbox {B : ID} (h : B ≠ A) (mb : MailboxData) :
    outside A (s.setMailbox B mb) = (outside A s).setMailbox B mb := by
  ext id : 1
  · rw [lookup_setMailbox]
    unfold outside MemStore.setMailbox
    rw [GoMap.lookup_erase_eq, GoMap.lookup_erase_eq, GoMap.lookup_insert_eq]
    split_ifs with ha hb
    · exact absurd (hb.symm.trans ha) h
    all_goals rfl
  · rfl
  · rfl

theorem outside_setMailbox_self (mb : MailboxData) :
    outside A (s.setMailbox A mb) = outside A s := by
  ext id : 1
  · unfold outside MemStore.setMailbox
    rw [GoMap.lookup_erase_eq, GoMap.lookup_erase_eq, GoMap.lookup_insert_eq]
    split_ifs <;> rfl
  · rfl
  · rfl

theorem outside_setTransfer {t : TransferData} (h : t.boundTo A = false) (tid : ID) :
    outside A (s.setTransfer tid t) = (outside A s).setTransfer tid t := by
  ext id : 1
  · rfl
  · rw [lookup_outside_transfer, lookup_setTransfer, lookup_setTransfer, lookup_outside_transfer]
    split_ifs
    · rw [Option.bind_some, h, if_neg Bool.false_ne_true]
    · rfl
  · rfl

/-- Every transfer stored under the id is bound to the mailbox. -/
def OnlyBound (A : ID) (s : MemStore) (tid : ID) : Prop :=
  ∀ t, s.transfers.lookup tid = some t → t.boundTo A = true

theorem OnlyBound.lookup {tid : ID} (h : OnlyBound A s tid) :
    (outside A s).transfers.lookup tid = none := by
  rw [lookup_outside_transfer]
  cases ht : s.transfers.lookup tid with
  | none => rfl
  | some t => rw [Option.bind_some, h t ht, if_pos rfl]

theorem onlyBound_of_lookup {tid : ID} {t : TransferData} (ht : s.transfers.lookup tid = some t)
    (h : t.boundTo A = true) : OnlyBound A s tid := by
  intro t' ht'
  cases ht.symm.trans ht'
  exact h

theorem outside_setTransfer_self {t : TransferData} {tid : ID} (h : t.boundTo A = true)
    (hold : OnlyBound A s tid) : outside A (s.setTransfer tid t) = outside A s := by
  ext id : 1
  · rfl
  · rw [lookup_outside_transfer, lookup_setTransfer]
    split_ifs with hid
    · rw [Option.bind_some, h, if_pos rfl, hid, hold.lookup]
    · rw [lookup_outside_transfer]
  · rfl

theorem outside_eraseTransfer_self {tid : ID} (hold : OnlyBound A s tid) :
    outside A { s with transfers := s.transfers.erase tid } = outside A s := by
  ext id : 1
  · rfl
  · rw [lookup_outside_transfer, GoMap.lookup_erase_eq]
    split_ifs with hid
    · rw [hid, hold.lookup]
      rfl
    · rw [lookup_outside_transfer]
  · rfl

theorem outside_eraseTransfer (tid : ID) :
    outside A { s with transfers := s.transfers.erase tid } =
      { outside A s with transfers := (outside A s).transfers.erase tid } := by
  ext id : 1
  · rfl
  · rw [lookup_outside_transfer, GoMap.lookup_erase_eq, GoMap.lookup_erase_eq,
      lookup_outside_transfer]
    split_ifs <;> rfl
  · rfl

theorem outside_slideMailbox {B : ID} (h : B ≠ A) (now : ℤ) :
    outside A (slideMailbox s B now) = slideMailbox (outside A s) B now := by
  unfold slideMailbox
  rw [lookup_outside_mailbox h]
  split
  · exact outside_setMailbox h _
  · rfl

theorem outside_slideMailbox_self (now : ℤ) :
    outside A (slideMailbox s A now) = outside A s := by
  unfold slideMailbox
  split
  · exact outside_setMailbox_self _
  · rfl

/-! ## The sums over the transfer map -/

/-- A sum over the transfers of another mailbox does not count those of `A`. -/
theorem sumBy_outside {B : ID} (h : B ≠ A) (f : TransferData → ℕ)
    (hf : ∀ t, t.boundTo B = false → f t = 0) :
    (outside A s).transfers.sumBy (fun _ t => f t) = s.transfers.sumBy fun _ t => f t := by
  unfold outside
  rw [GoMap.sumBy_collect]
  refine GoMap.sumBy_congr fun _ t _ => ?_
  cases hA : t.boundTo A with
  | false => rfl
  | true =>
    have hB : t.boundTo B = false := by
      rw [Bool.eq_false_iff, Ne, boundTo_iff]
      rintro ⟨-, hB⟩
      exact h (hB.symm.trans (boundTo_iff.mp hA).2)
    rw [hf t hB]
    rfl

theorem activeTransfersLocked_outside {B : ID} (h : B ≠ A) (now : ℤ) :
    activeTransfersLocked (outside A s) B now = activeTransfersLocked s B now :=
  sumBy_outside h _ fun t ht => by simp [ht]

theorem mailboxStoredBytesLocked_outside {B : ID} (h : B ≠ A) :
    mailboxStoredBytesLocked (outside A s) B = mailboxStoredBytesLocked s B := by
  unfold mailboxStoredBytesLocked
  rw [lookup_outside_mailbox h, sumBy_outside h _ fun t ht => by simp [ht]]

theorem hasLiveTransfer_outside {B : ID} (h : B ≠ A) (now : ℤ) :
    hasLiveTransfer (outside A s).transfers B now = hasLiveTransfer s.transfers B now := by
  unfold hasLiveTransfer
  rw [sumBy_outside h _ fun t ht => by simp [ht]]

/-! ## Calls that do not see the mailbox -/

/-- The call answers the same without the mailbox `A`, and leaves the same outside it. -/
def Blind {α : Type} (A : ID) (f : MemStore → MemStore × α) (s : MemStore) : Prop :=
  f (outside A s) = (outside A (f s).1, (f s).2)

theorem Blind.withOutput {α : Type} {f : MemStore → MemStore × α} (h : Blind A f s)
    (g : α → Output) : Blind A (fun s => FileRelay.withOutput g (f s)) s := by
  unfold Blind FileRelay.withOutput at *
  dsimp only
  rw [h]

/-- A transfer that is not bound to `A` is found in the same way. -/
theorem blind_findTransfer {tid : ID}
    (h : ∀ t, s.transfers.lookup tid = some t → t.boundTo A = false) (now : ℤ) :
    Blind A (fun s => findTransfer s tid now) s := by
  have hlookup := lookup_outside_of_not_bound h
  unfold Blind
  cases ht : s.transfers.lookup tid with
  | none =>
    unfold findTransfer getTransferLocked
    simp only [ht, hlookup, fail]
  | some t =>
    by_cases hl : t.state ≠ .complete → now < t.expiresAt
    · simp only [findTransfer_live ht hl, findTransfer_live (hlookup.trans ht) hl]
    · push Not at hl
      have hexp : t.expire.boundTo A = false := h t ht
      simp only [findTransfer_expired ht hl.2 hl.1,
        findTransfer_expired (hlookup.trans ht) hl.2 hl.1, fail, outside_setTransfer hexp]

/-- A call on a transfer that is not bound to `A`. -/
theorem blind_onTransfer {α : Type} {tid : ID} {now : ℤ}
    {rest : MemStore → TransferData → MemStore × Result α}
    (h : ∀ t, s.transfers.lookup tid = some t → t.boundTo A = false)
    (hrest : ∀ t, t.boundTo A = false → Blind A (fun s => rest s t) s) :
    Blind A (fun s => onTransfer s tid now rest) s := by
  have hblind := blind_findTransfer h now
  have hf := findTransfer_found s tid now
  unfold Blind onTransfer at *
  dsimp only at *
  rw [hblind]
  generalize findTransfer s tid now = f at hf ⊢
  rcases hf with hm | ⟨ht, late, hs⟩ | ⟨ht, hl⟩
  · rfl
  · rfl
  · exact hrest _ (h _ ht)

/-- A call on a transfer bound to `A`. -/
theorem outside_onTransfer {α : Type} {tid : ID} {now : ℤ}
    {rest : MemStore → TransferData → MemStore × Result α} (h : OnlyBound A s tid)
    (hrest : ∀ t, t.boundTo A = true → outside A (rest s t).1 = outside A s) :
    outside A (onTransfer s tid now rest).1 = outside A s := by
  have hf := findTransfer_found s tid now
  unfold onTransfer
  generalize findTransfer s tid now = f at hf ⊢
  rcases hf with hm | ⟨ht, late, hs⟩ | ⟨ht, hl⟩
  · rfl
  · have hb := h _ ht
    exact outside_setTransfer_self hb h
  · exact hrest _ (h _ ht)

variable (H : Bytes → Digest)

theorem ownerAuth_outside {t : TransferData} (h : t.boundTo A = false) (mid : ID)
    (secret : Bytes) (now : ℤ) : ownerAuth H (outside A s) t mid secret now =
      (ownerAuth H s t mid secret now).map (outside A) := by
  unfold ownerAuth
  by_cases hm : t.hasMailbox = true
  · by_cases hid : t.mailboxID = mid
    · have hA : mid ≠ A := by
        rintro rfl
        exact Bool.false_ne_true (h.symm.trans (boundTo_iff.mpr ⟨hm, hid⟩))
      rw [if_pos hm, if_pos hm, if_neg (not_not.mpr hid), if_neg (not_not.mpr hid),
        getMailboxLocked_outside hA]
      cases getMailboxLocked s mid now with
      | none => rfl
      | some mb =>
        cases hs : secretMatches H mb.readSecretHash secret with
        | false => simp only [hs, Bool.not_false, if_true, Except.map]
        | true =>
          simp only [hs, Bool.not_true, Bool.false_eq_true, if_false, Except.map,
            outside_setMailbox hA]
    · rw [if_pos hm, if_pos hm, if_pos hid, if_pos hid, Except.map]
  · rw [if_neg hm, if_neg hm, Except.map]

theorem outside_ownerAuth {s' : MemStore} {t : TransferData} {mid : ID} {secret : Bytes}
    {now : ℤ} (h : t.boundTo A = true) (ha : ownerAuth H s t mid secret now = .ok s') :
    outside A s' = outside A s := by
  obtain ⟨-, hA⟩ := boundTo_iff.mp h
  rcases (ownerAuth_eq_ok H).mp ha with ⟨-, rfl⟩ | ⟨-, hid, mb, -, -, -, rfl⟩
  · rfl
  · rw [← hid, hA]
    exact outside_setMailbox_self _

/-- The owner check, then something read from the transfer. -/
theorem blind_ownerAuth {α : Type} {t : TransferData} (h : t.boundTo A = false) (mid : ID)
    (secret : Bytes) (now : ℤ) (r : Result α) :
    Blind A (fun s => match ownerAuth H s t mid secret now with
      | .error e => (s, .error e)
      | .ok s => (s, r)) s := by
  unfold Blind
  simp only [ownerAuth_outside H h]
  cases ownerAuth H s t mid secret now <;> rfl

theorem outside_owner_read {α : Type} {t : TransferData} (h : t.boundTo A = true) (mid : ID)
    (secret : Bytes) (now : ℤ) (r : Result α) :
    outside A (match ownerAuth H s t mid secret now with
      | .error e => (s, .error e)
      | .ok s => (s, r) : MemStore × Result α).1 = outside A s := by
  cases ha : ownerAuth H s t mid secret now with
  | error e => rfl
  | ok s' => exact outside_ownerAuth H h ha

/-! ## One call -/

theorem namedID_eq_some {raw : Bytes} :
    namedID raw = some A ↔ raw.length = 16 ∧ copyArr 16 raw = A := by
  unfold namedID
  split_ifs with hlen <;> simp [hlen]

/-- A created transfer is bound to the mailbox its request names. -/
theorem boundTo_createdTransfer {r : TransferCreate} (ticket : ByteArr 32) (now : ℤ) :
    (createdTransfer H r ticket now).boundTo A = true ↔ namedID r.mailboxID = some A := by
  rw [boundTo_iff, namedID_eq_some]
  by_cases hlen : r.mailboxID.length = 16 <;> simp [createdTransfer, newTransfer, hlen]

theorem ne_of_namedID {raw : Bytes} (hlen : raw.length = 16) (h : namedID raw ≠ some A) :
    copyArr 16 raw ≠ A :=
  fun hA => h (namedID_eq_some.mpr ⟨hlen, hA⟩)

theorem blind_createMailbox {B : ID} (h : B ≠ A) (now : ℤ) (hash : Digest) :
    Blind A (fun s => createMailbox s now B hash) s := by
  unfold Blind createMailbox
  dsimp only
  rw [lookup_outside_mailbox h]
  cases s.mailboxes.lookup B <;> simp only [outside_setMailbox h]

theorem blind_sendMessage {msg : SendMessage} (h : namedID msg.mailboxID ≠ some A) (now : ℤ)
    (id : ID) : Blind A (fun s => sendMessage s now msg id) s := by
  unfold Blind sendMessage
  rcases hv : validateSendMessage msg with e | ⟨⟩
  · rfl
  have hB := ne_of_namedID (validateSendMessage_eq_ok.mp hv).1 h
  dsimp only
  rw [getMailboxLocked_outside hB]
  cases getMailboxLocked s (copyArr 16 msg.mailboxID) now with
  | none => rfl
  | some mb =>
    dsimp only
    split_ifs <;> simp only [fail, outside_setMailbox hB]

theorem blind_receiveMessages {B : ID} (h : B ≠ A) (now : ℤ) (secret : Bytes) (limit : ℤ)
    (peek : Bool) : Blind A (fun s => receiveMessages H s now B secret limit peek) s := by
  unfold Blind receiveMessages
  dsimp only
  rw [getMailboxLocked_outside h]
  cases getMailboxLocked s B now with
  | none => rfl
  | some mb =>
    dsimp only
    split_ifs <;> simp only [fail, outside_setMailbox h]

theorem blind_ackMessages {B : ID} (h : B ≠ A) (now : ℤ) (secret : Bytes) (ids : List Bytes)
    (disposition : UInt8) : Blind A (fun s => ackMessages H s now B secret ids disposition) s := by
  unfold Blind ackMessages
  dsimp only
  rw [getMailboxLocked_outside h]
  by_cases hd : disposition ≠ ackReceived ∧ disposition ≠ ackConsumed
  · simp only [if_pos hd, fail]
  by_cases hn : ids.length = 0 ∨ maxBatchMessages < ids.length
  · simp only [if_neg hd, if_pos hn, fail]
  simp only [if_neg hd, if_neg hn]
  cases getMailboxLocked s B now with
  | none => rfl
  | some mb =>
    dsimp only
    cases secretMatches H mb.readSecretHash secret with
    | false => rfl
    | true =>
      cases wantedIDs ids <;>
        simp only [Bool.not_true, Bool.false_eq_true, if_false, outside_setMailbox h]

theorem blind_createTransfer {t : TransferCreate} (h : namedID t.mailboxID ≠ some A) (now : ℤ)
    (id : ID) (ticket : Option (ByteArr 32)) :
    Blind A (fun s => createTransfer H s now t id ticket) s := by
  have hbound : ∀ ticket, (createdTransfer H t ticket now).boundTo A = false := by
    intro ticket
    rw [Bool.eq_false_iff]
    exact fun hb => h ((boundTo_createdTransfer H ticket now).mp hb)
  unfold Blind createTransfer
  cases validateTransferCreateMsg t with
  | error e => rfl
  | ok =>
    by_cases hlen : t.mailboxID.length = 16
    · have hB := ne_of_namedID hlen h
      have hquota : createTransferQuota (outside A s) now (copyArr 16 t.mailboxID)
          t.totalSize.toNat = createTransferQuota s now (copyArr 16 t.mailboxID)
            t.totalSize.toNat := by
        unfold createTransferQuota
        rw [getMailboxLocked_outside hB, activeTransfersLocked_outside hB,
          mailboxStoredBytesLocked_outside hB]
      simp only [hlen, decide_true, if_true, hquota]
      cases createTransferQuota s now (copyArr 16 t.mailboxID) t.totalSize.toNat with
      | error e => rfl
      | ok =>
        cases ticket with
        | none => rfl
        | some ticket => simp only [outside_slideMailbox hB, outside_setTransfer (hbound ticket)]
    · simp only [hlen, decide_false, Bool.false_eq_true, if_false]
      cases ticket with
      | none => rfl
      | some ticket => simp only [outside_setTransfer (hbound ticket)]

/-- A transfer the scope of a call leaves out is not bound to `A`. -/
theorem not_bound_of_ownerOf {tid : ID} (h : ownerOf s tid ≠ some A) :
    ∀ t, s.transfers.lookup tid = some t → t.boundTo A = false := by
  intro t ht
  rw [Bool.eq_false_iff]
  exact fun hb => h (ownerOf_eq_some.mpr ⟨t, ht, hb⟩)

theorem onlyBound_of_ownerOf {tid : ID} (h : ownerOf s tid = some A) : OnlyBound A s tid := by
  obtain ⟨t, ht, hb⟩ := ownerOf_eq_some.mp h
  exact onlyBound_of_lookup ht hb

theorem blind_putChunk {c : ChunkUpload} (h : (namedID c.transferID).bind (ownerOf s) ≠ some A)
    (now : ℤ) : Blind A (fun s => putChunk H s now c) s := by
  unfold putChunk
  cases hv : validateChunkUpload c with
  | error e => rfl
  | ok =>
    have hlen := (validateChunkUpload_eq_ok.mp hv).1
    rw [namedID, if_pos hlen, Option.bind_some] at h
    refine blind_onTransfer (not_bound_of_ownerOf h) fun t ht => ?_
    unfold Blind
    dsimp only
    cases checkChunk H t c with
    | error e => rfl
    | ok =>
      cases t.chunks.lookup c.index.toNat with
      | some old =>
        dsimp only
        split_ifs <;> rfl
      | none =>
        have hbound : (storeChunk H t c now).boundTo A = false := ht
        have hmail : (storeChunk H t c now).hasMailbox = t.hasMailbox := rfl
        have hid : (storeChunk H t c now).mailboxID = t.mailboxID := rfl
        by_cases hm : t.hasMailbox = true
        · have hB : t.mailboxID ≠ A := by
            intro hA
            exact Bool.false_ne_true (ht.symm.trans (boundTo_iff.mpr ⟨hm, hA⟩))
          simp only [hm, hmail, hid, true_and, if_true, mailboxStoredBytesLocked_outside hB]
          split_ifs
          · rfl
          · simp only [outside_slideMailbox hB, outside_setTransfer hbound]
        · simp only [hm, hmail, false_and, if_false, outside_setTransfer hbound,
            Bool.false_eq_true]

theorem blind_completeTransfer {r : TransferComplete}
    (h : (namedID r.transferID).bind (ownerOf s) ≠ some A) (now : ℤ) :
    Blind A (fun s => completeTransfer s now r) s := by
  unfold completeTransfer
  rcases hv : validateTransferComplete r with e | ⟨⟩
  · rfl
  rw [namedID, if_pos (validateTransferComplete_eq_ok.mp hv).1.1, Option.bind_some] at h
  refine blind_onTransfer (not_bound_of_ownerOf h) fun t ht => ?_
  have hbound : (t.seal now).boundTo A = false := ht
  unfold Blind
  dsimp only
  split_ifs
  · rfl
  · rfl
  · rfl
  · simp only [outside_setTransfer hbound]

theorem blind_cancelTransfer {tid : ID} (h : ownerOf s tid ≠ some A) (now : ℤ) (mid : ID)
    (secret : Bytes) : Blind A (fun s => cancelTransfer H s now tid mid secret) s := by
  have hbound := not_bound_of_ownerOf h
  unfold Blind cancelTransfer
  dsimp only
  rw [lookup_outside_of_not_bound hbound]
  cases ht : s.transfers.lookup tid with
  | none => rfl
  | some t =>
    simp only [ownerAuth_outside H (hbound t ht)]
    cases ownerAuth H s t mid secret now with
    | error e => rfl
    | ok s' => simp only [Except.map, outside_eraseTransfer]

/-- What the sweeper leaves outside `A` is what it leaves of the store without `A`. -/
theorem sweep_outside (now : ℤ) : (sweep (outside A s) now).1 = outside A (sweep s now).1 := by
  ext id : 1
  · unfold sweep
    dsimp only
    rw [GoMap.lookup_collect]
    by_cases hid : id = A
    · subst hid
      simp only [outside, Finmap.lookup_erase, Option.bind_none]
    · rw [lookup_outside_mailbox hid, lookup_outside_mailbox hid, GoMap.lookup_collect]
      unfold sweepMailbox
      rw [hasLiveTransfer_outside hid]
  · rw [lookup_outside_transfer]
    unfold sweep
    dsimp only
    rw [GoMap.lookup_collect, GoMap.lookup_collect, lookup_outside_transfer]
    cases s.transfers.lookup id with
    | none => rfl
    | some t =>
      simp only [Option.bind_some, sweepTransfer]
      split_ifs <;> simp_all
  · rfl

/-- A call outside the scope of `A` does not see `A`. -/
theorem blind_callStore {op : Op} (h : op.scope s ≠ some A) (hop : op ≠ .sweep) (now : ℤ) :
    Blind A (fun s => callStore H s now op) s := by
  have hmid : ∀ {mid : ID}, some mid ≠ some A → mid ≠ A := fun hne heq => hne (congrArg some heq)
  cases op with
  | createMailbox mid hash => exact (blind_createMailbox (hmid h) now hash).withOutput _
  | mailboxExists mid =>
    unfold Blind callStore mailboxExists
    simp only [lookup_outside_mailbox (hmid h)]
  | checkReadSecret mid secret =>
    unfold Blind callStore checkReadSecret
    simp only [lookup_outside_mailbox (hmid h)]
  | sendMessage msg id => exact (blind_sendMessage h now id).withOutput _
  | receiveMessages mid secret limit peek =>
    exact (blind_receiveMessages H (hmid h) now secret limit peek).withOutput _
  | ackMessages mid secret ids disposition =>
    exact (blind_ackMessages H (hmid h) now secret ids disposition).withOutput _
  | createTransfer t id ticket => exact (blind_createTransfer H h now id ticket).withOutput _
  | putChunk c => exact (blind_putChunk H h now).withOutput _
  | getChunk tid mid secret index =>
    exact (blind_onTransfer (not_bound_of_ownerOf h) fun t ht =>
      blind_ownerAuth H ht mid secret now _).withOutput _
  | resume tid mid secret =>
    exact (blind_onTransfer (not_bound_of_ownerOf h) fun t ht =>
      blind_ownerAuth H ht mid secret now _).withOutput _
  | getChunkByTicket tid ticket index =>
    refine (blind_onTransfer (not_bound_of_ownerOf h) fun t ht => ?_).withOutput _
    unfold Blind
    cases checkTicketLocked H t ticket <;> rfl
  | resumeByTicket tid ticket =>
    refine (blind_onTransfer (not_bound_of_ownerOf h) fun t ht => ?_).withOutput _
    unfold Blind
    cases checkTicketLocked H t ticket <;> rfl
  | progress tid =>
    refine (blind_onTransfer (not_bound_of_ownerOf h) fun t ht => ?_).withOutput _
    rfl
  | completeTransfer r => exact (blind_completeTransfer h now).withOutput _
  | cancelTransfer tid mid secret =>
    exact (blind_cancelTransfer H h now mid secret).withOutput _
  | getTransfer tid =>
    refine (blind_onTransfer (not_bound_of_ownerOf h) fun t ht => ?_).withOutput _
    rfl
  | checkAndMarkReplay key => rfl
  | sweep => exact absurd rfl hop

/-! ## Calls in the scope of the mailbox -/

theorem owner_of_named {raw : Bytes} (h : (namedID raw).bind (ownerOf s) = some A) :
    OnlyBound A s (copyArr 16 raw) := by
  obtain ⟨tid, hid, ho⟩ := Option.bind_eq_some_iff.mp h
  rw [(namedID_eq_some.mp hid).2]
  exact onlyBound_of_ownerOf ho

theorem outside_putChunk {c : ChunkUpload} (h : OnlyBound A s (copyArr 16 c.transferID))
    (now : ℤ) : outside A (putChunk H s now c).1 = outside A s := by
  have ho := putChunk_outcome H s now c
  generalize putChunk H s now c = res at ho ⊢
  rcases ho with _ | ⟨_, ht, -, -⟩ | _ | ⟨-, ht, -, -, -, -⟩
  · rfl
  · have hb := h _ ht
    exact outside_setTransfer_self hb h
  · rfl
  · rename_i t
    have hbt := h t ht
    have hb : (storeChunk H t c now).boundTo A = true := hbt
    obtain ⟨hm, hid⟩ := boundTo_iff.mp hbt
    unfold putStore
    rw [if_pos hm, hid, outside_slideMailbox_self, outside_setTransfer_self hb h]

theorem outside_createTransfer {r : TransferCreate} {id : ID} {now : ℤ}
    {ticket : Option (ByteArr 32)} (h : namedID r.mailboxID = some A)
    (fresh : ∀ x, (createTransfer H s now r id ticket).2 = .ok x → s.transfers.lookup id = none) :
    outside A (createTransfer H s now r id ticket).1 = outside A s := by
  obtain ⟨hlen, hid⟩ := namedID_eq_some.mp h
  have ho := createTransfer_outcome H s now r id ticket
  generalize createTransfer H s now r id ticket = res at ho fresh ⊢
  rcases ho with _ | ⟨ticket, -, -⟩
  · rfl
  · have hb := (boundTo_createdTransfer H ticket now).mpr h
    have hnew : OnlyBound A s id := by
      intro t ht
      rw [fresh _ rfl] at ht
      cases ht
    unfold createStore
    rw [if_pos hlen, hid, outside_slideMailbox_self, outside_setTransfer_self hb hnew]

/-- A call in the scope of `A` changes nothing outside `A`. -/
theorem outside_callStore {e : Event} (fresh : FreshID H s e) (h : e.op.scope s = some A) :
    outside A ((store H).step s e).1 = outside A s := by
  obtain ⟨now, op⟩ := e
  cases op with
  | createMailbox mid hash =>
    obtain rfl := Option.some.inj h
    rw [store_step, callStore, withOutput_fst, createMailbox]
    split <;> exact outside_setMailbox_self _
  | mailboxExists mid => rfl
  | checkReadSecret mid secret => rfl
  | sendMessage msg id =>
    obtain ⟨-, rfl⟩ := namedID_eq_some.mp h
    have ho := sendMessage_outcome s now msg id
    rw [store_step, callStore, withOutput_fst]
    generalize sendMessage s now msg id = res at ho ⊢
    rcases ho with _ | _ | _
    · rfl
    all_goals exact outside_setMailbox_self _
  | receiveMessages mid secret limit peek =>
    obtain rfl := Option.some.inj h
    have ho := receiveMessages_outcome H s now mid secret limit peek
    rw [store_step, callStore, withOutput_fst]
    generalize receiveMessages H s now mid secret limit peek = res at ho ⊢
    rcases ho with _ | _
    · rfl
    · exact outside_setMailbox_self _
  | ackMessages mid secret ids disposition =>
    obtain rfl := Option.some.inj h
    have ho := ackMessages_outcome H s now mid secret ids disposition
    rw [store_step, callStore, withOutput_fst]
    generalize ackMessages H s now mid secret ids disposition = res at ho ⊢
    rcases ho with _ | _ | _
    · rfl
    all_goals exact outside_setMailbox_self _
  | createTransfer t id ticket =>
    refine outside_createTransfer H h fun x hx => ?_
    have hout : ((store H).step s ⟨now, .createTransfer t id ticket⟩).2 = .created (.ok x) :=
      congrArg Output.created hx
    have hid : x.1 = id := by
      have ho := createTransfer_outcome H s now t id ticket
      generalize createTransfer H s now t id ticket = res at ho hx
      rcases ho with _ | _ <;> cases hx
      rfl
    rw [← hid]
    exact fresh x.1 x.2.1 x.2.2 hout
  | putChunk c => exact outside_putChunk H (owner_of_named h) now
  | getChunk tid mid secret index =>
    exact outside_onTransfer (onlyBound_of_ownerOf h) fun t ht =>
      outside_owner_read H ht mid secret now _
  | resume tid mid secret =>
    exact outside_onTransfer (onlyBound_of_ownerOf h) fun t ht =>
      outside_owner_read H ht mid secret now _
  | getChunkByTicket tid ticket index =>
    refine outside_onTransfer (onlyBound_of_ownerOf h) fun t ht => ?_
    cases checkTicketLocked H t ticket <;> rfl
  | resumeByTicket tid ticket =>
    refine outside_onTransfer (onlyBound_of_ownerOf h) fun t ht => ?_
    cases checkTicketLocked H t ticket <;> rfl
  | progress tid => exact outside_onTransfer (onlyBound_of_ownerOf h) fun t ht => rfl
  | completeTransfer r =>
    have hb := owner_of_named h
    have ho := completeTransfer_outcome s now r
    rw [store_step, callStore, withOutput_fst]
    generalize completeTransfer s now r = res at ho ⊢
    rcases ho with _ | ⟨_, ht, -, -⟩ | _ | ⟨-, ht, -, -, -, -⟩
    · rfl
    · have hbt := hb _ ht
      exact outside_setTransfer_self hbt hb
    · rfl
    · have hbt := hb _ ht
      exact outside_setTransfer_self hbt hb
  | cancelTransfer tid mid secret =>
    have hb := onlyBound_of_ownerOf h
    have ho := cancelTransfer_outcome H s now tid mid secret
    rw [store_step, callStore, withOutput_fst]
    generalize cancelTransfer H s now tid mid secret = res at ho ⊢
    rcases ho with _ | ⟨ht, ha⟩
    · rfl
    · rename_i t s'
      have hs' := outside_ownerAuth H (hb _ ht) ha
      have hb' : OnlyBound A s' tid := by
        rcases (ownerAuth_eq_ok H).mp ha with ⟨-, rfl⟩ | ⟨-, -, mb, -, -, -, rfl⟩ <;> exact hb
      rw [outside_eraseTransfer_self hb', hs']
  | getTransfer tid => exact outside_onTransfer (onlyBound_of_ownerOf h) fun t ht => rfl
  | checkAndMarkReplay key => cases h
  | sweep => cases h

theorem confined_outside (A : ID) :
    (store H).Confined (inScope A) (FreshID H) (outside A) Output.withoutCounts where
  dropped s e fresh hd := outside_callStore H fresh (of_decide_eq_true hd)
  state s e hd := by
    by_cases hop : e.op = .sweep
    · rw [store_step, store_step, hop]
      exact sweep_outside e.now
    · exact congrArg Prod.fst (blind_callStore H (of_decide_eq_false hd) hop e.now)
  output s e hd := by
    by_cases hop : e.op = .sweep
    · rw [store_step, store_step, hop]
      rfl
    · have hb := congrArg Prod.snd (blind_callStore H (of_decide_eq_false hd) hop e.now)
      exact congrArg Output.withoutCounts hb

/-- Deleting the calls whose scope is `A` from a run leaves the answers of all other calls,
the records of all other mailboxes and those of all transfers not bound to `A` the same. -/
theorem mailboxes_do_not_interfere (A : ID) (es : List Event)
    (fresh : (store H).Along (FreshID H) newMemStore es) :
    ((store H).trace newMemStore (withoutScope H A es)).map (Prod.map id Output.withoutCounts) =
        ((store H).keptTrace (inScope A) newMemStore es).map (Prod.map id Output.withoutCounts) ∧
      (∀ B, B ≠ A → (runStore H (withoutScope H A es)).mailboxes.lookup B =
        (runStore H es).mailboxes.lookup B) ∧
      ∀ tid t, t.boundTo A = false →
        ((runStore H (withoutScope H A es)).transfers.lookup tid = some t ↔
          (runStore H es).transfers.lookup tid = some t) := by
  have hrun : runStore H (withoutScope H A es) = outside A (runStore H es) :=
    (confined_outside H A).run fresh
  refine ⟨(confined_outside H A).trace fresh, ?_, ?_⟩
  · intro B hB
    rw [hrun, lookup_outside_mailbox hB]
  · intro tid t ht
    rw [hrun, lookup_outside_transfer, Option.bind_eq_some_iff]
    constructor
    · rintro ⟨t', ht', hb⟩
      split_ifs at hb
      cases hb
      exact ht'
    · intro htid
      exact ⟨t, htid, by rw [ht, if_neg Bool.false_ne_true]⟩

/-- Two mailboxes, an upload for the first, a transfer for the second and a sweep. -/
def twoMailboxes : List Event :=
  [⟨0, .createMailbox (copyArr 16 [1]) (sampleHash [])⟩,
    ⟨1, .createMailbox (copyArr 16 [2]) (sampleHash [])⟩,
    ⟨2, .createTransfer { sampleCreate with mailboxID := (copyArr 16 [1]).toList } sampleID
      (some sampleTicket)⟩,
    ⟨3, .putChunk (sampleChunk 1 [3] [])⟩,
    ⟨4, .createTransfer { sampleCreate with mailboxID := (copyArr 16 [2]).toList }
      (copyArr 16 [8]) (some sampleTicket)⟩,
    ⟨5, .sweep⟩]

theorem mailboxes_do_not_interfere_twoMailboxes :
    (withoutScope sampleHash (copyArr 16 [1]) twoMailboxes).length = 3 ∧
      (runStore sampleHash (withoutScope sampleHash (copyArr 16 [1]) twoMailboxes)).mailboxes.lookup
          (copyArr 16 [2]) =
        (runStore sampleHash twoMailboxes).mailboxes.lookup (copyArr 16 [2]) := by
  refine ⟨by decide +kernel, ?_⟩
  have fresh : (store sampleHash).Along (FreshID sampleHash) newMemStore twoMailboxes :=
    ⟨nofun, nofun, fun _ _ _ h => by cases h; rfl, nofun, fun _ _ _ h => by cases h; rfl, nofun,
      trivial⟩
  exact (mailboxes_do_not_interfere sampleHash (copyArr 16 [1]) twoMailboxes fresh).2.1 _
    (by decide)

end FileRelay
