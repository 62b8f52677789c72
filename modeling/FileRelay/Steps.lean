import FileRelay.BurnQueue
import FileRelay.Effects

/-!
# What one call can do to one record

Every invariant of the store is proved from these. `TransferStep` lists the changes of the
record under one transfer id and `step_transfer` says that every call makes one of them.
`MailboxStep` and `step_mailbox` do the same for mailboxes, most calls do no more than slide
them (`onlySlides_step`), and `secrets_step` and `step_replay` say which calls touch read
secrets and the replay cache.
-/

namespace FileRelay

variable (H : Bytes → Digest)

/-! ## One transfer over one call -/

/-- What one call can do to the record under one transfer id. -/
inductive TransferStep (s : MemStore) (e : Event) (out : Output) (tid : ID) :
    Option TransferData → Prop
  | same : TransferStep s e out tid (s.transfers.lookup tid)
  | created (r : TransferCreate) (ticket : ByteArr 32)
      (hop : e.op = .createTransfer r tid (some ticket))
      (hv : validateTransferCreateMsg r = .ok ())
      (hq : r.mailboxID.length = 16 →
        createTransferQuota s e.now (copyArr 16 r.mailboxID) r.totalSize.toNat = .ok ())
      (hout : out = .created (.ok (tid, ticket.toList, deadline e.now uploadTTLSeconds))) :
    TransferStep s e out tid (some (createdTransfer H r ticket e.now))
  | relabelled {t : TransferData} (h : s.transfers.lookup tid = some t)
      (late : t.expiresAt ≤ e.now) (hs : t.state ≠ .complete) :
    TransferStep s e out tid (some t.expire)
  | stored {t : TransferData} (c : ChunkUpload) (hop : e.op = .putChunk c)
      (hid : copyArr 16 c.transferID = tid) (hv : validateChunkUpload c = .ok ())
      (h : s.transfers.lookup tid = some t) (hl : t.state ≠ .complete → e.now < t.expiresAt)
      (hc : checkChunk H t c = .ok ()) (hn : t.chunks.lookup c.index.toNat = none)
      (hq : t.hasMailbox = true → mailboxStoredBytesLocked s t.mailboxID + c.payload.length ≤
        maxStoredBytesPerMailbox)
      (hout : out = .put (.ok (storeChunk H t c e.now).presentCount)) :
    TransferStep s e out tid (some (storeChunk H t c e.now))
  | sealed {t : TransferData} (r : TransferComplete) (hop : e.op = .completeTransfer r)
      (hid : copyArr 16 r.transferID = tid) (h : s.transfers.lookup tid = some t)
      (hl : e.now < t.expiresAt) (hs : t.state ≠ .complete)
      (hall : t.presentCount = t.chunkCount)
      (hout : out = .completed (.ok (true, t.presentCount, t.chunkCount))) :
    TransferStep s e out tid (some (t.seal e.now))
  | cancelled {t : TransferData} {s' : MemStore} (mid : ID) (secret : Bytes)
      (hop : e.op = .cancelTransfer tid mid secret) (h : s.transfers.lookup tid = some t)
      (ha : ownerAuth H s t mid secret e.now = .ok s') (hout : out = .cancelled (.ok ())) :
    TransferStep s e out tid none
  | swept {t : TransferData} (hop : e.op = .sweep) (h : s.transfers.lookup tid = some t)
      (late : t.expiresAt ≤ e.now) :
    TransferStep s e out tid none

variable {H}

theorem TransferStep.of_eq {s s' : MemStore} {e : Event} {out : Output} {tid : ID}
    (h : s'.transfers = s.transfers) : TransferStep H s e out tid (s'.transfers.lookup tid) := by
  rw [h]
  exact .same

/-- A record written under one id. -/
theorem TransferStep.of_set {s s' : MemStore} {e : Event} {out : Output} {tid id : ID}
    {t : TransferData} (hs : s'.transfers = (s.setTransfer id t).transfers)
    (h : tid = id → TransferStep H s e out tid (some t)) :
    TransferStep H s e out tid (s'.transfers.lookup tid) := by
  rw [hs, lookup_setTransfer]
  split_ifs with hid
  · exact h hid
  · exact .same

theorem TransferStep.of_find {s s' : MemStore} {e : Event} {out : Output} {id : ID} (tid : ID)
    (h : s'.transfers = (findTransfer s id e.now).1.transfers) :
    TransferStep H s e out tid (s'.transfers.lookup tid) := by
  have hf := findTransfer_found s id e.now
  rw [h]
  generalize findTransfer s id e.now = r at hf
  rcases hf with hm | ⟨ht, late, hs⟩ | ⟨ht, hl⟩
  · exact .same
  · exact .of_set rfl fun hid => .relabelled (by rw [hid, ht]) late hs
  · exact .same

theorem sweep_lookup_transfer (s : MemStore) (now : ℤ) (tid : ID) :
    (sweep s now).1.transfers.lookup tid =
      (s.transfers.lookup tid).bind fun t => if t.expiresAt ≤ now then none else some t := by
  unfold sweep
  rw [GoMap.lookup_collect]
  rcases s.transfers.lookup tid with _ | t
  · rfl
  · simp only [Option.bind_some, sweepTransfer]
    by_cases hl : t.expiresAt ≤ now
    · by_cases hs : t.state = .complete <;> simp [hl, hs]
    · simp [hl]

variable (H)

/-- Every call changes the record under a transfer id by one of the listed steps. -/
theorem step_transfer (s : MemStore) (e : Event) (tid : ID) :
    TransferStep H s e ((store H).step s e).2 tid
      (((store H).step s e).1.transfers.lookup tid) := by
  obtain ⟨now, op⟩ := e
  rw [store_step]
  cases op with
  | createMailbox mid hash =>
    refine .of_eq ?_
    change (createMailbox s now mid hash).1.transfers = _
    unfold createMailbox
    split <;> rfl
  | mailboxExists mid => exact .same
  | checkReadSecret mid secret => exact .same
  | sendMessage msg id =>
    have h := sendMessage_outcome s now msg id
    simp only [callStore, withOutput_fst, withOutput_snd]
    generalize sendMessage s now msg id = r at h ⊢
    rcases h <;> exact .same
  | receiveMessages mid secret limit peek =>
    have h := receiveMessages_outcome H s now mid secret limit peek
    simp only [callStore, withOutput_fst, withOutput_snd]
    generalize receiveMessages H s now mid secret limit peek = r at h ⊢
    rcases h <;> exact .same
  | ackMessages mid secret ids disposition =>
    have h := ackMessages_outcome H s now mid secret ids disposition
    simp only [callStore, withOutput_fst, withOutput_snd]
    generalize ackMessages H s now mid secret ids disposition = r at h ⊢
    rcases h <;> exact .same
  | createTransfer r id ticket =>
    have h := createTransfer_outcome H s now r id ticket
    simp only [callStore, withOutput_fst, withOutput_snd]
    generalize createTransfer H s now r id ticket = res at h ⊢
    rcases h with ⟨e⟩ | ⟨ticket, hv, hq⟩
    · exact .same
    · refine .of_set (createStore_transfers H s now r id ticket) fun hid => ?_
      subst hid
      exact .created r ticket rfl hv hq rfl
  | putChunk c =>
    have h := putChunk_outcome H s now c
    simp only [callStore, withOutput_fst, withOutput_snd]
    generalize putChunk H s now c = res at h ⊢
    rcases h with ⟨e⟩ | ⟨e, h, late, hs⟩ | ⟨h, hl, hc, ho, hlen, hh⟩ | ⟨hv, h, hl, hc, hn, hq⟩
    · exact .same
    · exact .of_set rfl fun hid => .relabelled (by rw [hid, h]) late hs
    · exact .same
    · exact .of_set (putStore_transfers H s now c _) fun hid =>
        .stored c rfl hid.symm hv (by rw [hid, h]) hl hc hn hq rfl
  | getChunk id mid secret index =>
    exact .of_find tid (getChunk_effect H s now id mid secret index).1
  | resume id mid secret => exact .of_find tid (resume_effect H s now id mid secret).1
  | getChunkByTicket id ticket index =>
    exact .of_find tid (getChunkByTicket_effect H s now id ticket index).1
  | resumeByTicket id ticket => exact .of_find tid (resumeByTicket_effect H s now id ticket).1
  | progress id => exact .of_find tid (progress_effect s now id).1
  | completeTransfer r =>
    have h := completeTransfer_outcome s now r
    simp only [callStore, withOutput_fst, withOutput_snd]
    generalize completeTransfer s now r = res at h ⊢
    rcases h with ⟨e⟩ | ⟨e, h, late, hs⟩ | ⟨h, hs⟩ | ⟨hv, h, hl, hs, hc, hall⟩
    · exact .same
    · exact .of_set rfl fun hid => .relabelled (by rw [hid, h]) late hs
    · exact .same
    · exact .of_set rfl fun hid => .sealed r rfl hid.symm (by rw [hid, h]) hl hs hall rfl
  | cancelTransfer id mid secret =>
    have h := cancelTransfer_outcome H s now id mid secret
    simp only [callStore, withOutput_fst, withOutput_snd]
    generalize cancelTransfer H s now id mid secret = res at h ⊢
    rcases h with ⟨e⟩ | ⟨h, ha⟩
    · exact .same
    · rename_i t s'
      have hs : s'.transfers = s.transfers := by
        rcases (ownerAuth_eq_ok H).mp ha with ⟨-, rfl⟩ | ⟨-, -, mb, -, -, -, rfl⟩ <;> rfl
      simp only [hs, GoMap.lookup_erase_eq]
      split_ifs with hid
      · subst hid
        exact .cancelled mid secret rfl h ha rfl
      · exact .same
  | getTransfer id => exact .of_find tid (getTransfer_effect s now id).1
  | checkAndMarkReplay key => exact .same
  | sweep =>
    simp only [callStore, withOutput_fst, withOutput_snd, sweep_lookup_transfer]
    rcases h : s.transfers.lookup tid with _ | t
    · rw [Option.bind_none, ← h]
      exact .same
    · rw [Option.bind_some]
      split_ifs with hl
      · exact .swept rfl h hl
      · rw [← h]
        exact .same

/-! ## One mailbox over one call -/

/-- What a call did to the queue of a mailbox, as its caller sees it. -/
abbrev QueueAct := BurnQueue.Act StoredMessage ID

/-- The act of a call on the queue of the mailbox `mid`, read off the call and its answer. -/
def queueAct (mid : ID) (e : Event) (out : Output) : Option QueueAct :=
  match e.op, out with
  | .sendMessage msg id, .sent (.ok _) =>
    if copyArr 16 msg.mailboxID = mid then some (.accepted (newMessage msg id e.now)) else none
  | .receiveMessages m _ _ false, .received (.ok (ms, _)) =>
    if m = mid then some (.drained ms) else none
  | .ackMessages m _ ids disposition, .acked (.ok _) =>
    if m = mid ∧ disposition = ackConsumed then (wantedIDs ids).toOption.map .consumed else none
  | _, _ => none

/-- What one call can do to one mailbox. -/
inductive MailboxStep (s : MemStore) (e : Event) (out : Output) (mid : ID) :
    Option MailboxData → Prop
  | same (hact : queueAct mid e out = none) : MailboxStep s e out mid (s.mailboxes.lookup mid)
  | registered (hash : Digest) (hact : queueAct mid e out = none)
      (h : s.mailboxes.lookup mid = none) :
    MailboxStep s e out mid (some ⟨hash, [], mailboxDeadline e.now, 0⟩)
  | reregistered {mb : MailboxData} (hash : Digest) (hact : queueAct mid e out = none)
      (h : s.mailboxes.lookup mid = some mb) :
    MailboxStep s e out mid
      (some { mb with readSecretHash := hash, expiresAt := mailboxDeadline e.now })
  | slid {mb : MailboxData} (hact : queueAct mid e out = none)
      (h : s.mailboxes.lookup mid = some mb) :
    MailboxStep s e out mid (some (mb.slide e.now))
  | pruned {mb : MailboxData} (hact : queueAct mid e out = none)
      (h : s.mailboxes.lookup mid = some mb) :
    MailboxStep s e out mid (some (pruneMessagesLocked mb e.now))
  | sent {mb : MailboxData} (msg : SendMessage) (id : ID) (hop : e.op = .sendMessage msg id)
      (hid : copyArr 16 msg.mailboxID = mid) (hv : validateSendMessage msg = .ok ())
      (h : s.mailboxes.lookup mid = some mb) (hl : e.now < mb.expiresAt)
      (hb : (pruneMessagesLocked mb e.now).storedBytes + msg.envelope.length ≤
        maxStoredBytesPerMailbox)
      (hn : (pruneMessagesLocked mb e.now).messages.length < maxQueuedMessages)
      (hact : queueAct mid e out = some (.accepted (newMessage msg id e.now))) :
    MailboxStep s e out mid (some ((pruneMessagesLocked mb e.now).enqueue msg id e.now))
  | received {mb : MailboxData} (limit : ℤ) (peek : Bool) (h : s.mailboxes.lookup mid = some mb)
      (hact : queueAct mid e out = if peek then none else
        some (.drained ((pruneMessagesLocked mb e.now).messages.take (clampLimit limit)))) :
    MailboxStep s e out mid (some (mb.afterReceive e.now limit peek))
  | acked {mb : MailboxData} (want : List ID) (disposition : UInt8)
      (h : s.mailboxes.lookup mid = some mb)
      (hact : queueAct mid e out =
        if disposition = ackConsumed then some (.consumed want) else none) :
    MailboxStep s e out mid (some (mb.afterAck e.now want disposition))
  | swept {mb : MailboxData} (hact : queueAct mid e out = none)
      (h : s.mailboxes.lookup mid = some mb) (late : mb.expiresAt ≤ e.now)
      (hempty : (pruneMessagesLocked mb e.now).messages = []) :
    MailboxStep s e out mid none

theorem MailboxStep.of_slides {s s' : MemStore} {e : Event} {out : Output} {mid : ID}
    (hact : queueAct mid e out = none) (h : OnlySlides s s' e.now) :
    MailboxStep s e out mid (s'.mailboxes.lookup mid) := by
  rcases h mid with h | ⟨mb, hmb, h⟩
  · rw [h]
    exact .same hact
  · rw [h]
    exact .slid hact hmb

/-- Other mailboxes stay as they are when one is assigned. -/
theorem MailboxStep.of_set {s : MemStore} {e : Event} {out : Output} {mid id : ID}
    {mb : MailboxData} (hact : mid ≠ id → queueAct mid e out = none)
    (h : mid = id → MailboxStep s e out mid (some mb)) :
    MailboxStep s e out mid ((s.setMailbox id mb).mailboxes.lookup mid) := by
  rw [lookup_setMailbox]
  split_ifs with hid
  · exact h hid
  · exact .same (hact hid)

theorem sweep_lookup_mailbox (s : MemStore) (now : ℤ) (mid : ID) :
    (sweep s now).1.mailboxes.lookup mid =
      (s.mailboxes.lookup mid).bind (sweepMailbox s.transfers now mid) :=
  GoMap.lookup_collect _ _ _

theorem sweepMailbox_eq (transfers : GoMap ID TransferData) (now : ℤ) (id : ID)
    (mb : MailboxData) : sweepMailbox transfers now id mb = some (pruneMessagesLocked mb now) ∨
      sweepMailbox transfers now id mb = none ∧ mb.expiresAt ≤ now ∧
        (pruneMessagesLocked mb now).messages = [] := by
  unfold sweepMailbox
  by_cases h₁ : mb.expiresAt ≤ now ∧ mb.messages.length = 0
  · rw [if_pos h₁]
    refine Or.inr ⟨rfl, h₁.1, ?_⟩
    simp [pruneMessagesLocked, MailboxData.keep, List.length_eq_zero_iff.mp h₁.2]
  · rw [if_neg h₁]
    dsimp only
    split_ifs with h₂
    · exact Or.inr ⟨rfl, h₂.1, List.length_eq_zero_iff.mp h₂.2.1⟩
    · exact Or.inl rfl

/-- The calls that do more to mailboxes than slide them. -/
def Op.OnMailbox : Op → Prop
  | .createMailbox _ _ | .sendMessage _ _ | .receiveMessages _ _ _ _ | .ackMessages _ _ _ _
  | .sweep => True
  | _ => False

/-- All other calls only slide mailboxes. -/
theorem onlySlides_step (s : MemStore) (now : ℤ) {op : Op} (hop : ¬op.OnMailbox) :
    OnlySlides s (callStore H s now op).1 now := by
  cases op with
  | createMailbox id hash => exact absurd trivial hop
  | mailboxExists id => exact onlySlides_of_eq rfl
  | checkReadSecret id secret => exact onlySlides_of_eq rfl
  | sendMessage msg id => exact absurd trivial hop
  | receiveMessages id secret limit peek => exact absurd trivial hop
  | ackMessages id secret ids disposition => exact absurd trivial hop
  | createTransfer r id ticket =>
    have h := createTransfer_outcome H s now r id ticket
    simp only [callStore, withOutput_fst]
    generalize createTransfer H s now r id ticket = res at h ⊢
    rcases h with ⟨e⟩ | ⟨ticket, hv, hq⟩
    · exact onlySlides_of_eq rfl
    · exact onlySlides_createStore H s now r id ticket
  | putChunk c =>
    have h := putChunk_outcome H s now c
    simp only [callStore, withOutput_fst]
    generalize putChunk H s now c = res at h ⊢
    rcases h with ⟨e⟩ | ⟨e, h, late, hs⟩ | ⟨h, hl, hc, ho, hlen, hh⟩ | ⟨hv, h, hl, hc, hn, hq⟩
    · exact onlySlides_of_eq rfl
    · exact onlySlides_of_eq rfl
    · exact onlySlides_of_eq rfl
    · exact onlySlides_putStore H s now c _
  | getChunk id m secret index => exact (getChunk_effect H s now id m secret index).2
  | resume id m secret => exact (resume_effect H s now id m secret).2
  | getChunkByTicket id ticket index => exact (getChunkByTicket_effect H s now id ticket index).2
  | resumeByTicket id ticket => exact (resumeByTicket_effect H s now id ticket).2
  | progress id => exact (progress_effect s now id).2
  | completeTransfer r =>
    have h := completeTransfer_outcome s now r
    simp only [callStore, withOutput_fst]
    generalize completeTransfer s now r = res at h ⊢
    rcases h <;> exact onlySlides_of_eq rfl
  | cancelTransfer id m secret =>
    have h := cancelTransfer_outcome H s now id m secret
    simp only [callStore, withOutput_fst]
    generalize cancelTransfer H s now id m secret = res at h ⊢
    rcases h with ⟨e⟩ | ⟨h, ha⟩
    · exact onlySlides_of_eq rfl
    · rcases (ownerAuth_eq_ok H).mp ha with ⟨-, rfl⟩ | ⟨-, -, mb, hmb, -, -, rfl⟩
      · exact onlySlides_of_eq rfl
      · exact onlySlides_setMailbox rfl hmb
  | getTransfer id => exact (getTransfer_effect s now id).2
  | checkAndMarkReplay key => exact onlySlides_of_eq rfl
  | sweep => exact absurd trivial hop

/-- Every call changes a mailbox by one of the listed steps. -/
theorem step_mailbox (s : MemStore) (e : Event) (mid : ID) :
    MailboxStep s e ((store H).step s e).2 mid
      (((store H).step s e).1.mailboxes.lookup mid) := by
  obtain ⟨now, op⟩ := e
  rw [store_step]
  cases op with
  | createMailbox id hash =>
    simp only [callStore, withOutput_fst, withOutput_snd, createMailbox]
    rcases h : s.mailboxes.lookup id with _ | mb
    · exact .of_set (fun _ => rfl) fun hid => .registered hash rfl (by rw [hid, h])
    · exact .of_set (fun _ => rfl) fun hid => .reregistered hash rfl (by rw [hid, h])
  | sendMessage msg id =>
    have h := sendMessage_outcome s now msg id
    simp only [callStore, withOutput_fst, withOutput_snd]
    generalize sendMessage s now msg id = r at h ⊢
    rcases h with ⟨e⟩ | ⟨e, h, hl⟩ | ⟨hv, h, hl, hn, hb⟩
    · exact .same rfl
    · exact .of_set (fun _ => rfl) fun hid => .pruned rfl (by rw [hid, h])
    · refine .of_set (fun hne => if_neg fun he => hne he.symm) fun hid => ?_
      exact .sent msg id rfl hid.symm hv (by rw [hid, h]) hl hb hn (if_pos hid.symm)
  | receiveMessages id secret limit peek =>
    have h := receiveMessages_outcome H s now id secret limit peek
    simp only [callStore, withOutput_fst, withOutput_snd]
    generalize receiveMessages H s now id secret limit peek = r at h ⊢
    rcases h with ⟨e⟩ | ⟨h, hl, hs⟩
    · exact .same (by cases peek <;> rfl)
    · refine .of_set (fun hne => ?_) fun hid => ?_
      · cases peek
        · exact if_neg fun he => hne he.symm
        · rfl
      · refine .received limit peek (by rw [hid, h]) ?_
        cases peek
        · exact if_pos hid.symm
        · rfl
  | ackMessages id secret ids disposition =>
    have h := ackMessages_outcome H s now id secret ids disposition
    simp only [callStore, withOutput_fst, withOutput_snd]
    generalize ackMessages H s now id secret ids disposition = r at h ⊢
    rcases h with ⟨e⟩ | ⟨e, h, hl⟩ | ⟨h, hl, hs, hw⟩
    · exact .same rfl
    · exact .of_set (fun _ => rfl) fun hid => .pruned rfl (by rw [hid, h])
    · rename_i mb want
      refine .of_set (fun hne => if_neg fun he => hne he.1.symm) fun hid => ?_
      refine .acked want disposition (by rw [hid, h]) ?_
      simp [queueAct, hid, hw, Except.toOption]
  | sweep =>
    simp only [callStore, withOutput_fst, withOutput_snd, sweep_lookup_mailbox]
    rcases h : s.mailboxes.lookup mid with _ | mb
    · rw [Option.bind_none, ← h]
      exact .same rfl
    · rw [Option.bind_some]
      rcases sweepMailbox_eq s.transfers now mid mb with hk | ⟨hk, late, hempty⟩
      · rw [hk]
        exact .pruned rfl h
      · rw [hk]
        exact .swept rfl h late hempty
  | _ => exact .of_slides rfl (onlySlides_step H s now not_false)

/-! ## Read secrets over one call -/

/-- No mailbox comes or goes, and each keeps its read secret. -/
def SameSecrets (s s' : MemStore) : Prop :=
  ∀ mid, (s'.mailboxes.lookup mid).map MailboxData.readSecretHash =
    (s.mailboxes.lookup mid).map MailboxData.readSecretHash

theorem SameSecrets.refl (s : MemStore) : SameSecrets s s :=
  fun _ => rfl

theorem OnlySlides.sameSecrets {s s' : MemStore} {now : ℤ} (h : OnlySlides s s' now) :
    SameSecrets s s' := by
  intro mid
  rcases h mid with h | ⟨mb, hmb, h⟩
  · rw [h]
  · rw [h, hmb]
    rfl

theorem sameSecrets_setMailbox {s : MemStore} {id : ID} {mb mb' : MailboxData}
    (h : s.mailboxes.lookup id = some mb) (hsec : mb'.readSecretHash = mb.readSecretHash) :
    SameSecrets s (s.setMailbox id mb') := by
  intro mid
  rw [lookup_setMailbox]
  split_ifs with hid
  · rw [hid, h, Option.map_some, Option.map_some, hsec]
  · rfl

theorem afterReceive_readSecretHash (mb : MailboxData) (now : ℤ) (limit : ℤ) (peek : Bool) :
    (mb.afterReceive now limit peek).readSecretHash = mb.readSecretHash := by
  cases peek <;> rfl

theorem afterAck_readSecretHash (mb : MailboxData) (now : ℤ) (want : List ID)
    (disposition : UInt8) :
    (mb.afterAck now want disposition).readSecretHash = mb.readSecretHash := by
  unfold MailboxData.afterAck
  dsimp only
  split_ifs <;> rfl

/-- Only a registration changes a read secret, and only a sweep removes a mailbox. -/
theorem secrets_step (s : MemStore) (now : ℤ) {op : Op}
    (hcreate : ∀ mid hash, op ≠ .createMailbox mid hash) (hsweep : op ≠ .sweep) :
    SameSecrets s (callStore H s now op).1 := by
  cases op with
  | createMailbox id hash => exact absurd rfl (hcreate id hash)
  | sendMessage msg id =>
    have h := sendMessage_outcome s now msg id
    simp only [callStore, withOutput_fst]
    generalize sendMessage s now msg id = r at h ⊢
    rcases h with ⟨e⟩ | ⟨e, h, -⟩ | ⟨-, h, -, -, -⟩
    · exact .refl s
    · exact sameSecrets_setMailbox h rfl
    · exact sameSecrets_setMailbox h rfl
  | receiveMessages id secret limit peek =>
    have h := receiveMessages_outcome H s now id secret limit peek
    simp only [callStore, withOutput_fst]
    generalize receiveMessages H s now id secret limit peek = r at h ⊢
    rcases h with ⟨e⟩ | ⟨h, -, -⟩
    · exact .refl s
    · exact sameSecrets_setMailbox h (afterReceive_readSecretHash _ now limit peek)
  | ackMessages id secret ids disposition =>
    have h := ackMessages_outcome H s now id secret ids disposition
    simp only [callStore, withOutput_fst]
    generalize ackMessages H s now id secret ids disposition = r at h ⊢
    rcases h with ⟨e⟩ | ⟨e, h, -⟩ | ⟨h, -, -, -⟩
    · exact .refl s
    · exact sameSecrets_setMailbox h rfl
    · exact sameSecrets_setMailbox h (afterAck_readSecretHash _ now _ disposition)
  | sweep => exact absurd rfl hsweep
  | _ => exact OnlySlides.sameSecrets (onlySlides_step H s now not_false)

/-! ## The replay cache over one call -/

/-- The replay cache changes only by the replay check and by a sweep. -/
theorem step_replay (s : MemStore) (now : ℤ) (op : Op) :
    (callStore H s now op).1.replay =
      match op with
      | .checkAndMarkReplay key => (markReplay s.replay key now).1
      | .sweep => pruneReplay s.replay now
      | _ => s.replay := by
  cases op with
  | createMailbox id hash =>
    simp only [callStore, withOutput_fst, createMailbox]
    split <;> rfl
  | mailboxExists id => rfl
  | checkReadSecret id secret => rfl
  | sendMessage msg id =>
    have h := sendMessage_outcome s now msg id
    simp only [callStore, withOutput_fst]
    generalize sendMessage s now msg id = r at h ⊢
    rcases h <;> rfl
  | receiveMessages id secret limit peek =>
    have h := receiveMessages_outcome H s now id secret limit peek
    simp only [callStore, withOutput_fst]
    generalize receiveMessages H s now id secret limit peek = r at h ⊢
    rcases h <;> rfl
  | ackMessages id secret ids disposition =>
    have h := ackMessages_outcome H s now id secret ids disposition
    simp only [callStore, withOutput_fst]
    generalize ackMessages H s now id secret ids disposition = r at h ⊢
    rcases h <;> rfl
  | createTransfer r id ticket =>
    have h := createTransfer_outcome H s now r id ticket
    simp only [callStore, withOutput_fst]
    generalize createTransfer H s now r id ticket = res at h ⊢
    rcases h with ⟨e⟩ | ⟨ticket, hv, hq⟩
    · rfl
    · unfold createStore
      split_ifs <;> simp
  | putChunk c =>
    have h := putChunk_outcome H s now c
    simp only [callStore, withOutput_fst]
    generalize putChunk H s now c = res at h ⊢
    rcases h with ⟨e⟩ | ⟨e, h, late, hs⟩ | ⟨h, hl, hc, ho, hlen, hh⟩ | ⟨hv, h, hl, hc, hn, hq⟩
    · rfl
    · rfl
    · rfl
    · unfold putStore
      split_ifs <;> simp
  | getChunk id m secret index => exact (getChunk_effect H s now id m secret index).3
  | resume id m secret => exact (resume_effect H s now id m secret).3
  | getChunkByTicket id ticket index => exact (getChunkByTicket_effect H s now id ticket index).3
  | resumeByTicket id ticket => exact (resumeByTicket_effect H s now id ticket).3
  | progress id => exact (progress_effect s now id).3
  | completeTransfer r =>
    have h := completeTransfer_outcome s now r
    simp only [callStore, withOutput_fst]
    generalize completeTransfer s now r = res at h ⊢
    rcases h <;> rfl
  | cancelTransfer id m secret =>
    have h := cancelTransfer_outcome H s now id m secret
    simp only [callStore, withOutput_fst]
    generalize cancelTransfer H s now id m secret = res at h ⊢
    rcases h with ⟨e⟩ | ⟨h, ha⟩
    · rfl
    · rcases (ownerAuth_eq_ok H).mp ha with ⟨-, rfl⟩ | ⟨-, -, mb, hmb, -, -, rfl⟩ <;> rfl
  | getTransfer id => exact (getTransfer_effect s now id).3
  | checkAndMarkReplay key => rfl
  | sweep => rfl

end FileRelay
