import FileRelay.Isolation
import FileRelay.Quota

/-!
# What expired data counts for

By `docs/server.md` a transfer counts against the quota of its mailbox while alive, and
`activeTransfersLocked` leaves out what has expired. `mailboxStoredBytesLocked`, the sum
behind the byte quota of `CreateTransfer` and `PutChunk`, does not : it counts expired
messages and transfers until something removes them
(`mailboxStoredBytesLocked_eq_live_add`).

`byte_refusal_iff` says when this shows : a refusal for the byte quota is one the live data
explain exactly when the request, if it fits next to the live data, still fits with the
expired data added.
-/

namespace FileRelay

variable (H : Bytes → Digest)

/-! ## Live and expired bytes -/

/-- What a transfer whose deadline meets `keep` counts for in the mailbox `mid`. -/
def transferBytesWhere (keep : ℤ → Bool) (mid : ID) (_ : ID) (t : TransferData) : ℕ :=
  if t.boundTo mid && keep t.expiresAt then t.chunkBytes + t.manifest.length else 0

/-- The bytes of the messages and of the chunks and manifests of the transfers of a mailbox
whose deadline meets `keep`. -/
def bytesWhere (keep : ℤ → Bool) (s : MemStore) (mid : ID) : ℕ :=
  envelopeBytes ((messagesOf s mid).filter fun m => keep m.expiresAt) +
    s.transfers.sumBy (transferBytesWhere keep mid)

/-- The bytes of the mailbox that have not expired. -/
def liveBytes (s : MemStore) (mid : ID) (now : ℤ) : ℕ :=
  bytesWhere (fun deadline => decide (now < deadline)) s mid

/-- The bytes of the mailbox that have expired and are still stored. -/
def expiredBytes (s : MemStore) (mid : ID) (now : ℤ) : ℕ :=
  bytesWhere (fun deadline => decide (deadline ≤ now)) s mid

theorem envelopeBytes_filter_add (p : StoredMessage → Bool) (ms : List StoredMessage) :
    envelopeBytes (ms.filter p) + envelopeBytes (ms.filter fun m => !p m) = envelopeBytes ms := by
  unfold envelopeBytes
  rw [← List.sum_append, ← List.map_append]
  exact ((List.filter_append_perm p ms).map _).sum_eq

theorem transferBytesWhere_add (keep : ℤ → Bool) (mid tid : ID) {t : TransferData}
    (h : t.storedBytes = t.chunkBytes) :
    countedBytes mid tid t = transferBytesWhere keep mid tid t +
      transferBytesWhere (fun deadline => !keep deadline) mid tid t := by
  unfold countedBytes transferBytesWhere
  cases hk : keep t.expiresAt with
  | false => simp [h, hk]
  | true => simp [h, hk]

/-- The sum the byte quota is checked against does not look at deadlines. -/
theorem mailboxStoredBytesLocked_split {s : MemStore} (hb : BytesInv s) (inv : StoreInv H s)
    (keep : ℤ → Bool) (mid : ID) : mailboxStoredBytesLocked s mid =
      bytesWhere keep s mid + bytesWhere (fun deadline => !keep deadline) s mid := by
  have htransfers : s.transfers.sumBy (countedBytes mid) =
      s.transfers.sumBy (transferBytesWhere keep mid) +
        s.transfers.sumBy (transferBytesWhere (fun deadline => !keep deadline) mid) := by
    rw [← GoMap.sumBy_add]
    exact GoMap.sumBy_congr fun tid t ht =>
      transferBytesWhere_add keep mid tid (inv tid t ht).storedBytes_eq
  have hmessages := envelopeBytes_filter_add (fun m => keep m.expiresAt) (messagesOf s mid)
  unfold bytesWhere
  rw [mailboxStoredBytesLocked_eq hb, htransfers]
  dsimp only
  omega

/-- It counts expired data like live data. -/
theorem mailboxStoredBytesLocked_eq_live_add {s : MemStore} (hb : BytesInv s)
    (inv : StoreInv H s) (mid : ID) (now : ℤ) :
    mailboxStoredBytesLocked s mid = liveBytes s mid now + expiredBytes s mid now := by
  have hnot : (fun deadline : ℤ => decide (deadline ≤ now)) =
      fun deadline => !decide (now < deadline) := by
    funext deadline
    rw [← decide_not]
    exact decide_eq_decide.mpr not_lt.symm
  unfold liveBytes expiredBytes
  rw [hnot]
  exact mailboxStoredBytesLocked_split H hb inv _ mid

/-! ## Refusals for the byte quota -/

/-- The answer of `CreateTransfer` and `PutChunk` to a mailbox without room. -/
def byteQuotaError : ProtocolError :=
  ⟨.quotaExceeded, "mailbox byte quota", 0⟩

/-- The bytes a call asks room for. -/
def Op.asked : Op → ℕ
  | .createTransfer r _ _ => r.totalSize.toNat
  | .putChunk c => c.payload.length
  | _ => 0

/-- A create or a put is refused for the byte quota. -/
def RefusedForBytes (s : MemStore) (e : Event) : Prop :=
  match e.op with
  | .createTransfer r id ticket =>
    (createTransfer H s e.now r id ticket).2 = .error byteQuotaError
  | .putChunk c => (putChunk H s e.now c).2 = .error byteQuotaError
  | _ => False

/-- A call that gets as far as the check of the byte quota of the mailbox `mid`. -/
inductive AsksRoom (s : MemStore) (e : Event) (mid : ID) : Prop
  | create {r : TransferCreate} {id : ID} {ticket : Option (ByteArr 32)}
      (hop : e.op = .createTransfer r id ticket) (hv : validateTransferCreateMsg r = .ok ())
      (hmid : namedID r.mailboxID = some mid)
      (hlive : ∃ mb, s.mailboxes.lookup mid = some mb ∧ e.now < mb.expiresAt)
      (hactive : activeTransfersLocked s mid e.now < maxActiveTransfersPerMailbox)
  | put {c : ChunkUpload} {t : TransferData} (hop : e.op = .putChunk c)
      (hv : validateChunkUpload c = .ok ())
      (ht : s.transfers.lookup (copyArr 16 c.transferID) = some t)
      (hl : t.state ≠ .complete → e.now < t.expiresAt) (hc : checkChunk H t c = .ok ())
      (hn : t.chunks.lookup c.index.toNat = none) (hbound : t.boundTo mid = true)

/-- The mailbox is the one the call is about. -/
theorem AsksRoom.scope {s : MemStore} {e : Event} {mid : ID} (h : AsksRoom H s e mid) :
    e.op.scope s = some mid := by
  rcases h with ⟨hop, -, hmid, -, -⟩ | ⟨hop, hv, ht, -, -, -, hbound⟩
  · rw [hop]
    exact hmid
  · obtain ⟨hlen, -⟩ := validateChunkUpload_eq_ok.mp hv
    rw [hop]
    change (namedID _).bind _ = _
    rw [namedID_eq_some.mpr ⟨hlen, rfl⟩, Option.bind_some]
    exact ownerOf_eq_some.mpr ⟨_, ht, hbound⟩

theorem checkChunk_neverFails (t : TransferData) (c : ChunkUpload) :
    NeverFails .quotaExceeded (checkChunk H t c) := by
  simp [checkChunk]

theorem createTransferQuota_eq_byteQuotaError {s : MemStore} {now : ℤ} {mid : ID}
    {totalSize : ℕ} : createTransferQuota s now mid totalSize = .error byteQuotaError ↔
      (∃ mb, s.mailboxes.lookup mid = some mb ∧ now < mb.expiresAt) ∧
      activeTransfersLocked s mid now < maxActiveTransfersPerMailbox ∧
      maxStoredBytesPerMailbox < mailboxStoredBytesLocked s mid + totalSize := by
  unfold createTransferQuota byteQuotaError
  rcases hg : getMailboxLocked s mid now with _ | mb
  · simp only [Except.error.injEq, ProtocolError.mk.injEq, reduceCtorEq, false_and, false_iff,
      not_and]
    rintro ⟨mb, hmb⟩
    rw [getMailboxLocked_eq_some.mpr hmb] at hg
    cases hg
  · have hmb := getMailboxLocked_eq_some.mp hg
    simp only [failIf_eq_error, ProtocolError.mk.injEq, String.reduceEq, not_le, and_true,
      and_false, false_or, or_false, reduceCtorEq]
    exact ⟨fun h => ⟨⟨mb, hmb⟩, h⟩, fun h => h.2⟩

theorem createTransfer_refused {s : MemStore} {now : ℤ} {r : TransferCreate} {id : ID}
    {ticket : Option (ByteArr 32)} :
    (createTransfer H s now r id ticket).2 = .error byteQuotaError ↔
      validateTransferCreateMsg r = .ok () ∧ r.mailboxID.length = 16 ∧
      createTransferQuota s now (copyArr 16 r.mailboxID) r.totalSize.toNat =
        .error byteQuotaError := by
  have hnever := validateTransferCreateMsg_neverFails r
  unfold createTransfer
  rcases hv : validateTransferCreateMsg r with e | ⟨⟩
  · have hcode := hnever e hv
    simp only [reduceCtorEq, false_and, iff_false, Except.error.injEq]
    rintro rfl
    exact hcode rfl
  by_cases hlen : r.mailboxID.length = 16
  · simp only [hlen, decide_true, if_true, true_and]
    rcases hq : createTransferQuota s now (copyArr 16 r.mailboxID) r.totalSize.toNat with e | ⟨⟩
    · simp only [Except.error.injEq]
    · rcases ticket with _ | ticket
      · simp [fail, byteQuotaError]
      · simp
  · simp only [hlen, decide_false, Bool.false_eq_true, if_false, false_and, and_false, iff_false]
    rcases ticket with _ | ticket
    · simp [fail, byteQuotaError]
    · simp

theorem putChunk_refused {s : MemStore} {now : ℤ} {c : ChunkUpload} :
    (putChunk H s now c).2 = .error byteQuotaError ↔
      validateChunkUpload c = .ok () ∧
      ∃ t, s.transfers.lookup (copyArr 16 c.transferID) = some t ∧
        (t.state ≠ .complete → now < t.expiresAt) ∧ checkChunk H t c = .ok () ∧
        t.chunks.lookup c.index.toNat = none ∧ t.hasMailbox = true ∧
        maxStoredBytesPerMailbox < mailboxStoredBytesLocked s t.mailboxID + c.payload.length := by
  constructor
  · intro h
    unfold putChunk onTransfer at h
    -- the checks before the quota fail with other codes
    rcases hv : validateChunkUpload c with e | ⟨⟩
    · simp only [hv, Except.error.injEq] at h
      exact absurd (congrArg ProtocolError.code h) (validateChunkUpload_neverFails c e hv)
    have hf := findTransfer_found s (copyArr 16 c.transferID) now
    generalize hr : findTransfer s (copyArr 16 c.transferID) now = r at hf
    simp only [hv, hr] at h
    rcases hf with - | - | ⟨ht, hl⟩
    · cases h
    · cases h
    rename_i t
    rcases hc : checkChunk H t c with e | ⟨⟩
    · simp only [hc, Except.error.injEq] at h
      exact absurd (congrArg ProtocolError.code h) (checkChunk_neverFails H t c e hc)
    rcases hn : t.chunks.lookup c.index.toNat with _ | old
    · simp only [hc, hn] at h
      split_ifs at h with hq
      exact ⟨rfl, t, ht, hl, hc, hn, hq.1, hq.2⟩
    · simp only [hc, hn] at h
      split_ifs at h
      cases h
  · rintro ⟨hv, t, ht, hl, hc, hn, hm, hq⟩
    unfold putChunk
    simp only [hv]
    rw [onTransfer_live _ ht hl]
    simp only [hc, hn]
    rw [if_pos ⟨hm, hq⟩]
    rfl

/-- A create or a put is refused for the byte quota when it gets to the check and the bytes
stored for the mailbox leave no room. -/
theorem refusedForBytes_iff {s : MemStore} {e : Event} :
    RefusedForBytes H s e ↔ ∃ mid, AsksRoom H s e mid ∧
      maxStoredBytesPerMailbox < mailboxStoredBytesLocked s mid + e.op.asked := by
  constructor
  · intro h
    unfold RefusedForBytes at h
    split at h
    · rename_i r id ticket hop
      obtain ⟨hv, hlen, hquota⟩ := (createTransfer_refused H).mp h
      obtain ⟨hlive, hactive, hfull⟩ := createTransferQuota_eq_byteQuotaError.mp hquota
      refine ⟨_, .create hop hv (namedID_eq_some.mpr ⟨hlen, rfl⟩) hlive hactive, ?_⟩
      rw [hop]
      exact hfull
    · rename_i c hop
      obtain ⟨hv, t, ht, hl, hc, hn, hm, hfull⟩ := (putChunk_refused H).mp h
      refine ⟨_, .put hop hv ht hl hc hn (boundTo_iff.mpr ⟨hm, rfl⟩), ?_⟩
      rw [hop]
      exact hfull
    · exact h.elim
  · rintro ⟨mid, hask, hfull⟩
    unfold RefusedForBytes
    rcases hask with ⟨hop, hv, hmid, hlive, hactive⟩ | ⟨hop, hv, ht, hl, hc, hn, hbound⟩
    · obtain ⟨hlen, rfl⟩ := namedID_eq_some.mp hmid
      rw [hop] at hfull ⊢
      exact (createTransfer_refused H).mpr
        ⟨hv, hlen, createTransferQuota_eq_byteQuotaError.mpr ⟨hlive, hactive, hfull⟩⟩
    · obtain ⟨hm, rfl⟩ := boundTo_iff.mp hbound
      rw [hop] at hfull ⊢
      exact (putChunk_refused H).mpr ⟨hv, _, ht, hl, hc, hn, hm, hfull⟩

/-- In a reachable store, a refusal of a create or a put for the byte quota means that the
request and the live bytes of its mailbox exceed the quota, exactly when a request that fits
next to the live bytes also fits with the expired bytes added. -/
theorem byte_refusal_iff (es : List Event) (e : Event) :
    (RefusedForBytes H (runStore H es) e → ∃ mid, e.op.scope (runStore H es) = some mid ∧
      maxStoredBytesPerMailbox < e.op.asked + liveBytes (runStore H es) mid e.now) ↔
    ∀ mid, AsksRoom H (runStore H es) e mid →
      e.op.asked + liveBytes (runStore H es) mid e.now ≤ maxStoredBytesPerMailbox →
      e.op.asked + liveBytes (runStore H es) mid e.now + expiredBytes (runStore H es) mid e.now ≤
        maxStoredBytesPerMailbox := by
  have hsplit := fun mid => mailboxStoredBytesLocked_eq_live_add H (bytesInv_run H es)
    (storeInv_run storeInv_newMemStore es) mid e.now
  rw [refusedForBytes_iff]
  constructor
  · intro honest mid hask hfits
    by_contra hfull
    -- the request is refused, and the mailbox it is charged to is its scope
    obtain ⟨mid', hscope, hlive⟩ := honest ⟨mid, hask, by rw [hsplit]; omega⟩
    rw [hask.scope] at hscope
    cases hscope
    omega
  · rintro hroom ⟨mid, hask, hfull⟩
    refine ⟨mid, hask.scope, ?_⟩
    by_contra hfits
    have := hroom mid hask (not_lt.mp hfits)
    rw [hsplit] at hfull
    omega

/-! ### An expired transfer keeps a mailbox full -/

/-- A transfer with a manifest of one byte, left alone for a day. -/
def staleStart : List Event :=
  [⟨0, .createMailbox fullMailbox (copyArr 32 [])⟩,
    ⟨0, .createTransfer { sampleCreate with mailboxID := List.replicate 16 1, manifest := [0] }
      sampleID (some sampleTicket)⟩]

/-- The next transfer, of the size of the quota. -/
def staleCreate : Event :=
  ⟨86400000, .createTransfer fillCreate (copyArr 16 [8]) (some sampleTicket)⟩

theorem expired_manifest_holds_quota :
    ClockMonotone (staleStart ++ [staleCreate]) ∧
      RefusedForBytes sampleHash (runStore sampleHash staleStart) staleCreate ∧
      ∀ mid, staleCreate.op.scope (runStore sampleHash staleStart) = some mid →
        staleCreate.op.asked + liveBytes (runStore sampleHash staleStart) mid staleCreate.now ≤
          maxStoredBytesPerMailbox := by
  refine ⟨by unfold ClockMonotone; decide +kernel, rfl, fun mid hmid => ?_⟩
  cases hmid
  decide +kernel

end FileRelay
