import FileRelay.TransferInv

/-!
# Who may read or cancel a transfer

`OwnerCredential` is what the owner path asks for : the transfer is bound to the mailbox,
the mailbox is live, and the secret is the one whose hash the mailbox stores. The download
ticket a transfer answers to is the one its creator was given (`downloadSecretHash_minted`).

For a transfer that is bound to a mailbox every read and every cancellation takes one of
the two, and only for such a transfer (`credential_required_iff`) : a transfer created
without a mailbox is read and cancelled by anyone who knows its id
(`mailboxless_transfer_cancelled`).
-/

namespace FileRelay

variable (H : Bytes → Digest)

/-- The credential of the owner path. -/
def OwnerCredential (s : MemStore) (now : ℤ) (tid mid : ID) (secret : Bytes) : Prop :=
  ∃ t mb, s.transfers.lookup tid = some t ∧ t.hasMailbox = true ∧ t.mailboxID = mid ∧
    s.mailboxes.lookup mid = some mb ∧ now < mb.expiresAt ∧ secret.length = 32 ∧
    H secret = mb.readSecretHash

/-! ## Tickets -/

/-- The ticket a call minted for the transfer `tid`. -/
def mintOf (tid : ID) : Output → Option Bytes
  | .created (.ok (id, ticket, _)) => if id = tid then some ticket else none
  | _ => none

/-- The ticket of the last create that produced the transfer `tid`. -/
def minted (tid : ID) (trace : List (Event × Output)) : Option Bytes :=
  (trace.filterMap fun eo => mintOf tid eo.2).getLast?

theorem minted_concat (tid : ID) (tr : List (Event × Output)) (e : Event) (out : Output) :
    minted tid (tr ++ [(e, out)]) = (mintOf tid out).or (minted tid tr) := by
  unfold minted
  rw [List.filterMap_append]
  rcases h : mintOf tid out with _ | ticket
  · simp [h]
  · simp [h]

/-- A call that mints a ticket leaves the record it minted it for. -/
theorem createdTransfer_of_mint {s : MemStore} {e : Event} {tid : ID} {tk : Bytes}
    (h : mintOf tid ((store H).step s e).2 = some tk) :
    ∃ (r : TransferCreate) (ticket : ByteArr 32), tk = ticket.toList ∧
      ((store H).step s e).1.transfers.lookup tid = some (createdTransfer H r ticket e.now) := by
  obtain ⟨now, op⟩ := e
  rw [store_step] at h ⊢
  cases op with
  | createTransfer r id ticket =>
    have hc := createTransfer_outcome H s now r id ticket
    simp only [callStore, withOutput_fst, withOutput_snd] at h ⊢
    generalize createTransfer H s now r id ticket = res at hc h ⊢
    rcases hc with ⟨e⟩ | ⟨ticket, hv, hq⟩
    · cases h
    · simp only [mintOf] at h
      split_ifs at h with hid
      subst hid
      refine ⟨r, ticket, (Option.some.inj h).symm, ?_⟩
      rw [createStore_transfers, lookup_setTransfer, if_pos rfl]
  | _ => cases h

/-- The ticket a transfer answers to is the one minted by the create that produced it. -/
theorem downloadSecretHash_minted (es : List Event) (tid : ID) (t : TransferData)
    (h : (runStore H es).transfers.lookup tid = some t) :
    ∃ tk, minted tid ((store H).trace newMemStore es) = some tk ∧ tk.length = 32 ∧
      t.downloadSecretHash = H tk := by
  revert t
  refine Machine.history_induction (M := store H) (s := newMemStore)
    (P := fun _ s tr => ∀ t, s.transfers.lookup tid = some t →
      ∃ tk, minted tid tr = some tk ∧ tk.length = 32 ∧ t.downloadSecretHash = H tk)
    (fun t ht => ?_) (fun es e ih t ht => ?_) es
  · exact absurd ht (GoMap.lookup_empty_ne_some _ _)
  rw [minted_concat]
  rcases hm : mintOf tid ((store H).step ((store H).run newMemStore es) e).2 with _ | tk
  · rw [Option.none_or]
    -- nothing was minted : the record keeps its ticket
    have step := step_transfer H ((store H).run newMemStore es) e tid
    rw [ht] at step
    generalize ho : some t = o at step
    rcases step with _ | ⟨r, ticket, -, -, -, hout⟩ | ⟨ht', -, -⟩ | ⟨c, -, -, -, ht', -, -, -⟩ |
      ⟨r, -, -, ht', -, -, -⟩ | _ | _
    · exact ih t ho.symm
    · rw [hout, mintOf, if_pos rfl] at hm
      cases hm
    · cases ho
      have hkept := ih _ ht'
      exact hkept
    · cases ho
      have hkept := ih _ ht'
      exact hkept
    · cases ho
      have hkept := ih _ ht'
      exact hkept
    · cases ho
    · cases ho
  · obtain ⟨r, ticket, rfl, hc⟩ := createdTransfer_of_mint H hm
    obtain rfl := Option.some.inj (ht.symm.trans hc)
    exact ⟨ticket.toList, rfl, ticket.2, rfl⟩

/-! ## The owner path -/

variable {H}

theorem secretMatches_iff {stored : Digest} {provided : Bytes} :
    secretMatches H stored provided = true ↔ provided.length = 32 ∧ H provided = stored := by
  simp [secretMatches]

theorem ownerCredential_of_auth {s s' : MemStore} {t : TransferData} {now : ℤ} {tid mid : ID}
    {secret : Bytes} (ht : s.transfers.lookup tid = some t) (hm : t.hasMailbox = true)
    (ha : ownerAuth H s t mid secret now = .ok s') :
    OwnerCredential H s now tid mid secret := by
  rcases (ownerAuth_eq_ok H).mp ha with ⟨hno, -⟩ | ⟨-, hid, mb, hmb, hl, hsec, -⟩
  · rw [hm] at hno
    cases hno
  · obtain ⟨hlen, hhash⟩ := secretMatches_iff.mp hsec
    exact ⟨t, mb, ht, hm, hid, hmb, hl, hlen, hhash⟩

theorem checkTicketLocked_eq_ok {t : TransferData} {ticket : Bytes} :
    checkTicketLocked H t ticket = .ok () ↔
      ticket.length = 32 ∧ H ticket = t.downloadSecretHash := by
  simp [checkTicketLocked]

/-- What a read with a ticket has established. -/
theorem ticket_of_getChunkByTicket {s : MemStore} {now : ℤ} {tid : ID} {ticket : Bytes}
    {index : UInt32} {r : Bytes × Bytes}
    (h : (getChunkByTicket H s now tid ticket index).2 = .ok r) :
    ∃ t, s.transfers.lookup tid = some t ∧ ticket.length = 32 ∧
      H ticket = t.downloadSecretHash := by
  obtain ⟨t, ht, -, hrest⟩ := onTransfer_eq_ok h
  rcases hc : checkTicketLocked H t ticket with e | ⟨⟩
  · rw [hc] at hrest
    cases hrest
  · exact ⟨t, ht, checkTicketLocked_eq_ok.mp hc⟩

theorem ticket_of_resumeByTicket {s : MemStore} {now : ℤ} {tid : ID} {ticket : Bytes}
    {r : ResumeView × TransferView} (h : (resumeByTicket H s now tid ticket).2 = .ok r) :
    ∃ t, s.transfers.lookup tid = some t ∧ ticket.length = 32 ∧
      H ticket = t.downloadSecretHash := by
  obtain ⟨t, ht, -, hrest⟩ := onTransfer_eq_ok h
  rcases hc : checkTicketLocked H t ticket with e | ⟨⟩
  · rw [hc] at hrest
    cases hrest
  · exact ⟨t, ht, checkTicketLocked_eq_ok.mp hc⟩

/-- What a read by the owner has established. -/
theorem auth_of_getChunk {s : MemStore} {now : ℤ} {tid mid : ID} {secret : Bytes} {index : UInt32}
    {r : Bytes × Bytes} (h : (getChunk H s now tid mid secret index).2 = .ok r) :
    ∃ t s', s.transfers.lookup tid = some t ∧ ownerAuth H s t mid secret now = .ok s' := by
  obtain ⟨t, ht, -, hrest⟩ := onTransfer_eq_ok h
  rcases ha : ownerAuth H s t mid secret now with e | s'
  · rw [ha] at hrest
    cases hrest
  · exact ⟨t, s', ht, ha⟩

theorem auth_of_resume {s : MemStore} {now : ℤ} {tid mid : ID} {secret : Bytes}
    {r : ResumeView × TransferView} (h : (resume H s now tid mid secret).2 = .ok r) :
    ∃ t s', s.transfers.lookup tid = some t ∧ ownerAuth H s t mid secret now = .ok s' := by
  obtain ⟨t, ht, -, hrest⟩ := onTransfer_eq_ok h
  rcases ha : ownerAuth H s t mid secret now with e | s'
  · rw [ha] at hrest
    cases hrest
  · exact ⟨t, s', ht, ha⟩

/-- What a cancellation has established. -/
theorem auth_of_cancelTransfer {s : MemStore} {now : ℤ} {tid mid : ID} {secret : Bytes}
    (hin : tid ∈ s.transfers) (h : tid ∉ (cancelTransfer H s now tid mid secret).1.transfers) :
    ∃ t s', s.transfers.lookup tid = some t ∧ ownerAuth H s t mid secret now = .ok s' := by
  have hc := cancelTransfer_outcome H s now tid mid secret
  generalize cancelTransfer H s now tid mid secret = r at hc h
  rcases hc with ⟨e⟩ | ⟨ht, ha⟩
  · exact absurd hin h
  · exact ⟨_, _, ht, ha⟩

/-! ## Reads and cancellations -/

variable (H) in
/-- After the run `es`, nobody reads or cancels the transfer `tid` without a credential. -/
structure CredentialRequired (es : List Event) (tid : ID) : Prop where
  getChunk : ∀ now mid secret index r,
    (getChunk H (runStore H es) now tid mid secret index).2 = .ok r →
      OwnerCredential H (runStore H es) now tid mid secret
  resume : ∀ now mid secret r, (resume H (runStore H es) now tid mid secret).2 = .ok r →
    OwnerCredential H (runStore H es) now tid mid secret
  cancelTransfer : ∀ now mid secret, tid ∈ (runStore H es).transfers →
    tid ∉ (cancelTransfer H (runStore H es) now tid mid secret).1.transfers →
      OwnerCredential H (runStore H es) now tid mid secret
  getChunkByTicket : ∀ now ticket index r,
    (getChunkByTicket H (runStore H es) now tid ticket index).2 = .ok r →
      ticket.length = 32 ∧ minted tid ((store H).trace newMemStore es) = some ticket
  resumeByTicket : ∀ now ticket r, (resumeByTicket H (runStore H es) now tid ticket).2 = .ok r →
    ticket.length = 32 ∧ minted tid ((store H).trace newMemStore es) = some ticket

/-- Reading or cancelling a transfer takes a credential exactly if it is bound to a
mailbox. -/
theorem credential_required_iff (H : Bytes → Digest)
    (hH : ∀ a b : Bytes, a.length = 32 → b.length = 32 → H a = H b → a = b) (es : List Event)
    (tid : ID) : CredentialRequired H es tid ↔
      ∀ t, (runStore H es).transfers.lookup tid = some t → t.hasMailbox = true := by
  have hticket : ∀ ticket : Bytes, (∃ t, (runStore H es).transfers.lookup tid = some t ∧
      ticket.length = 32 ∧ H ticket = t.downloadSecretHash) →
      ticket.length = 32 ∧ minted tid ((store H).trace newMemStore es) = some ticket := by
    rintro ticket ⟨t, ht, hlen, hhash⟩
    obtain ⟨tk, hmint, htk, hd⟩ := downloadSecretHash_minted H es tid t ht
    refine ⟨hlen, ?_⟩
    rw [hmint, hH ticket tk hlen htk (hhash.trans hd)]
  refine ⟨fun hreq t ht => ?_, fun hm => ?_⟩
  · by_contra hno
    have hno' : t.hasMailbox = false := Bool.eq_false_iff.mpr hno
    have hauth : ownerAuth H (runStore H es) t (copyArr 16 []) [] 0 = .ok (runStore H es) :=
      (ownerAuth_eq_ok H).mpr (Or.inl ⟨hno', rfl⟩)
    have hgone : tid ∉ (cancelTransfer H (runStore H es) 0 tid (copyArr 16 []) []).1.transfers := by
      unfold cancelTransfer
      rw [ht]
      dsimp only
      rw [hauth]
      exact Finmap.notMem_erase_self
    obtain ⟨t', mb, ht', hm', -⟩ := hreq.cancelTransfer 0 (copyArr 16 []) []
      (Finmap.mem_of_lookup_eq_some ht) hgone
    cases ht.symm.trans ht'
    exact hno hm'
  · refine ⟨?_, ?_, ?_, ?_, ?_⟩
    · intro now mid secret index r h
      obtain ⟨t, s', ht, ha⟩ := auth_of_getChunk h
      exact ownerCredential_of_auth ht (hm t ht) ha
    · intro now mid secret r h
      obtain ⟨t, s', ht, ha⟩ := auth_of_resume h
      exact ownerCredential_of_auth ht (hm t ht) ha
    · intro now mid secret hin h
      obtain ⟨t, s', ht, ha⟩ := auth_of_cancelTransfer hin h
      exact ownerCredential_of_auth ht (hm t ht) ha
    · intro now ticket index r h
      exact hticket ticket (ticket_of_getChunkByTicket h)
    · intro now ticket r h
      exact hticket ticket (ticket_of_resumeByTicket h)

theorem sampleHash_injective (a b : Bytes) (ha : a.length = 32) (hb : b.length = 32)
    (h : sampleHash a = sampleHash b) : a = b :=
  copyArr_inj ha hb h

/-- A mailbox with a transfer bound to it. -/
def boundUpload : List Event :=
  [⟨0, .createMailbox sampleID (sampleHash (List.replicate 32 4))⟩,
    ⟨1, .createTransfer { sampleCreate with mailboxID := sampleID.toList } sampleID
      (some sampleTicket)⟩]

theorem credential_required_boundUpload :
    (∀ t, (runStore sampleHash boundUpload).transfers.lookup sampleID = some t →
      t.hasMailbox = true) ∧ CredentialRequired sampleHash boundUpload sampleID := by
  have hbound : ∀ t, (runStore sampleHash boundUpload).transfers.lookup sampleID = some t →
      t.hasMailbox = true := by decide +kernel
  exact ⟨hbound, (credential_required_iff sampleHash sampleHash_injective boundUpload sampleID).mpr
    hbound⟩

/-- A transfer without a mailbox : its chunk is read, and then it is cancelled, with an empty
secret for a mailbox that does not exist. -/
theorem mailboxless_transfer_cancelled :
    ((getChunk sampleHash (runStore sampleHash sampleUpload) 2 sampleID (copyArr 16 []) [] 1).2 =
        .ok ([3], (sampleHash [3]).toList) ∧
      sampleID ∈ (runStore sampleHash sampleUpload).transfers ∧
      sampleID ∉ (cancelTransfer sampleHash (runStore sampleHash sampleUpload) 2 sampleID
        (copyArr 16 []) []).1.transfers) ∧
    ¬CredentialRequired sampleHash sampleUpload sampleID := by
  have hfacts : (getChunk sampleHash (runStore sampleHash sampleUpload) 2 sampleID
      (copyArr 16 []) [] 1).2 = .ok ([3], (sampleHash [3]).toList) ∧
      sampleID ∈ (runStore sampleHash sampleUpload).transfers ∧
      sampleID ∉ (cancelTransfer sampleHash (runStore sampleHash sampleUpload) 2 sampleID
        (copyArr 16 []) []).1.transfers := by decide +kernel
  have hnone : (runStore sampleHash sampleUpload).mailboxes.lookup (copyArr 16 []) = none := by
    decide +kernel
  refine ⟨hfacts, fun hreq => ?_⟩
  obtain ⟨t, mb, -, -, -, hmb, -⟩ := hreq.cancelTransfer 2 (copyArr 16 []) [] hfacts.2.1 hfacts.2.2
  cases hnone.symm.trans hmb

end FileRelay
