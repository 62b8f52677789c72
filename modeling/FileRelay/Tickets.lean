import FileRelay.Credentials
import FileRelay.Isolation
import Mathlib.Data.Int.ConditionallyCompleteOrder
import Mathlib.Order.ConditionallyCompleteLattice.Basic

/-!
# Ticket access

`GetChunkByTicket` and `ResumeByTicket` with the ticket of a transfer answer what `GetChunk` and
`Resume` answer the owner (`ticket_answers_owner`). They write nothing but the label of a
transfer that is past its deadline (`ticket_writes`).

No later call can tell whether such a transfer is labelled. `settle now` labels them all. Every
call at `now` or later answers the same before and after, and leaves stores that settle to the
same store (`steady_callStore`). So ticket calls can be inserted anywhere into a run without
changing any other answer. `ticket_access` collects the three results.
-/

namespace FileRelay

/-! ## Settled stores -/

/-- The record with the label a lookup at `now` gives it. -/
def TransferData.settle (now : ℤ) (t : TransferData) : TransferData :=
  if t.expiresAt ≤ now ∧ t.state ≠ .complete then t.expire else t

/-- The store with every transfer labelled that is past its deadline at `now`. -/
def settle (now : ℤ) (s : MemStore) : MemStore :=
  { s with transfers := s.transfers.collect fun _ t => some (t.settle now) }

theorem TransferData.settle_of_live {now : ℤ} {t : TransferData}
    (h : t.state ≠ .complete → now < t.expiresAt) : t.settle now = t :=
  if_neg fun hc => absurd (h hc.2) (not_lt.mpr hc.1)

theorem TransferData.settle_of_late {now : ℤ} {t : TransferData} (late : t.expiresAt ≤ now)
    (h : t.state ≠ .complete) : t.settle now = t.expire :=
  if_pos ⟨late, h⟩

/-- Labels given earlier are given again. -/
theorem TransferData.settle_settle {now now' : ℤ} (h : now ≤ now') (t : TransferData) :
    (t.settle now).settle now' = t.settle now' := by
  by_cases hc : t.expiresAt ≤ now ∧ t.state ≠ .complete
  · have hexp : t.expire.settle now' = t.expire := by
      unfold TransferData.settle
      exact ite_id _
    rw [settle_of_late hc.1 hc.2, hexp, settle_of_late (hc.1.trans h) hc.2]
  · rw [settle_of_live fun hs => not_le.mp fun hl => hc ⟨hl, hs⟩]

/-- What the label does not change. -/
theorem TransferData.settle_kept (now : ℤ) (t : TransferData) :
    (t.settle now).hasMailbox = t.hasMailbox ∧ (t.settle now).mailboxID = t.mailboxID ∧
      (t.settle now).storedBytes = t.storedBytes ∧ (t.settle now).manifest = t.manifest ∧
      (t.settle now).expiresAt = t.expiresAt := by
  unfold TransferData.settle
  split_ifs
  · exact ⟨rfl, rfl, rfl, rfl, rfl⟩
  · exact ⟨rfl, rfl, rfl, rfl, rfl⟩

theorem TransferData.boundTo_settle (now : ℤ) (t : TransferData) (id : ID) :
    (t.settle now).boundTo id = t.boundTo id := by
  obtain ⟨hm, hid, -⟩ := t.settle_kept now
  rw [boundTo, boundTo, hm, hid]

section

variable {now : ℤ} {s : MemStore}

theorem lookup_settle (id : ID) :
    (settle now s).transfers.lookup id = (s.transfers.lookup id).map (TransferData.settle now) := by
  unfold settle
  rw [GoMap.lookup_collect]
  cases s.transfers.lookup id <;> rfl

theorem settle_settle {now' : ℤ} (h : now ≤ now') (s : MemStore) :
    settle now' (settle now s) = settle now' s := by
  ext id : 1
  · rfl
  · rw [lookup_settle, lookup_settle, lookup_settle, Option.map_map]
    exact congrArg (fun f => Option.map f _) (funext (TransferData.settle_settle h))
  · rfl

theorem settle_setTransfer (id : ID) (t : TransferData) :
    settle now (s.setTransfer id t) = (settle now s).setTransfer id (t.settle now) := by
  ext x : 1
  · rfl
  · rw [lookup_settle, lookup_setTransfer, lookup_setTransfer, lookup_settle]
    split_ifs <;> rfl
  · rfl

theorem settle_eraseTransfer (id : ID) :
    settle now { s with transfers := s.transfers.erase id } =
      { settle now s with transfers := (settle now s).transfers.erase id } := by
  ext x : 1
  · rfl
  · rw [lookup_settle, GoMap.lookup_erase_eq, GoMap.lookup_erase_eq, lookup_settle]
    split_ifs <;> rfl
  · rfl

/-- A label set by a lookup is one that settling sets. -/
theorem settle_relabelled {id : ID} {t : TransferData} (h : s.transfers.lookup id = some t)
    (late : t.expiresAt ≤ now) (hs : t.state ≠ .complete) :
    settle now (s.setTransfer id t.expire) = settle now s := by
  ext x : 1
  · rfl
  · rw [lookup_settle, lookup_settle, lookup_setTransfer]
    split_ifs with hx
    · subst hx
      rw [h, Option.map_some, Option.map_some, ← TransferData.settle_of_late late hs,
        TransferData.settle_settle (le_refl now)]
    · rfl
  · rfl

theorem settle_slideMailbox (id : ID) (now' : ℤ) :
    settle now (slideMailbox s id now') = slideMailbox (settle now s) id now' := by
  have hm : (settle now s).mailboxes = s.mailboxes := rfl
  unfold slideMailbox
  rw [hm]
  cases s.mailboxes.lookup id <;> rfl

/-! ## The sums over the transfer map -/

theorem sumBy_settle {f : TransferData → ℕ} (h : ∀ t : TransferData, f (t.settle now) = f t) :
    (settle now s).transfers.sumBy (fun _ t => f t) = s.transfers.sumBy fun _ t => f t := by
  unfold settle
  rw [GoMap.sumBy_collect]
  exact GoMap.sumBy_congr fun _ t _ => h t

theorem activeTransfersLocked_settle (id : ID) :
    activeTransfersLocked (settle now s) id now = activeTransfersLocked s id now := by
  refine sumBy_settle fun t => ?_
  by_cases hc : t.expiresAt ≤ now ∧ t.state ≠ .complete
  · have hexp := (t.settle_kept now).2.2.2.2
    simp [hexp, not_lt.mpr hc.1]
  · rw [TransferData.settle_of_live fun hs => not_le.mp fun hl => hc ⟨hl, hs⟩]

theorem mailboxStoredBytesLocked_settle (id : ID) :
    mailboxStoredBytesLocked (settle now s) id = mailboxStoredBytesLocked s id := by
  refine congrArg (_ + ·) (sumBy_settle fun t => ?_)
  obtain ⟨-, -, hb, hm, -⟩ := t.settle_kept now
  rw [t.boundTo_settle, hb, hm]

theorem hasLiveTransfer_settle (id : ID) (now' : ℤ) :
    hasLiveTransfer (settle now s).transfers id now' = hasLiveTransfer s.transfers id now' := by
  unfold hasLiveTransfer
  rw [sumBy_settle fun t => by simp only [t.boundTo_settle, (t.settle_kept now).2.2.2.2]]

/-! ## Calls that cannot tell -/

/-- The call at `now` answers the same on the settled store, and leaves what settles to the same
store. -/
structure Steady {α : Type} (now : ℤ) (f : MemStore → MemStore × α) (s : MemStore) : Prop where
  state : settle now (f (settle now s)).1 = settle now (f s).1
  output : (f (settle now s)).2 = (f s).2

theorem Steady.withOutput {α : Type} {f : MemStore → MemStore × α} (h : Steady now f s)
    (g : α → Output) : Steady now (fun s => FileRelay.withOutput g (f s)) s :=
  ⟨h.state, congrArg g h.output⟩

/-- A call that settles what it leaves. -/
theorem steady_of_eq {α : Type} {f : MemStore → MemStore × α}
    (h : f (settle now s) = (settle now (f s).1, (f s).2)) : Steady now f s := by
  constructor
  · rw [h]
    exact settle_settle (le_refl now) _
  · rw [h]

theorem findTransfer_settle (id : ID) :
    findTransfer (settle now s) id now = (settle now s, (findTransfer s id now).2) ∧
      settle now (findTransfer s id now).1 = settle now s := by
  have hf := findTransfer_found s id now
  generalize findTransfer s id now = f at hf ⊢
  rcases hf with hm | ⟨ht, late, hs⟩ | ⟨ht, hl⟩
  · have hnone : (settle now s).transfers.lookup id = none := by
      rw [lookup_settle, hm, Option.map_none]
    refine ⟨?_, rfl⟩
    unfold findTransfer getTransferLocked
    simp only [hnone]
    rfl
  · rename_i t
    have hsome : (settle now s).transfers.lookup id = some t.expire := by
      rw [lookup_settle, ht, Option.map_some, TransferData.settle_of_late late hs]
    refine ⟨?_, settle_relabelled ht late hs⟩
    rw [findTransfer_expired hsome late nofun]
    refine Prod.ext ?_ rfl
    exact congrArg (fun m => { settle now s with transfers := m }) (GoMap.insert_lookup_eq hsome)
  · rename_i t
    have hsome : (settle now s).transfers.lookup id = some t := by
      rw [lookup_settle, ht, Option.map_some, TransferData.settle_of_live hl]
    exact ⟨findTransfer_live hsome hl, rfl⟩

/-- A call on the transfer it finds. -/
theorem steady_onTransfer {α : Type} {id : ID}
    {rest : MemStore → TransferData → MemStore × Result α}
    (h : ∀ t, Steady now (fun s => rest s t) s) :
    Steady now (fun s => onTransfer s id now rest) s := by
  obtain ⟨hfind, hlabel⟩ : findTransfer (settle now s) id now = _ ∧ _ := findTransfer_settle id
  have hf := findTransfer_found s id now
  unfold onTransfer
  constructor
  · rw [hfind]
    generalize findTransfer s id now = f at hf hlabel ⊢
    rcases hf with hm | ⟨ht, late, hs⟩ | ⟨ht, hl⟩
    · exact settle_settle (le_refl now) s
    · exact (settle_settle (le_refl now) s).trans hlabel.symm
    · exact (h _).state
  · rw [hfind]
    generalize findTransfer s id now = f at hf ⊢
    rcases hf with hm | ⟨ht, late, hs⟩ | ⟨ht, hl⟩
    · rfl
    · rfl
    · exact (h _).output

/-- Reading the transfer. -/
theorem steady_read {α : Type} (r : α) : Steady now (fun s => (s, r)) s :=
  steady_of_eq rfl

variable (H : Bytes → Digest)

theorem ownerAuth_settle (t : TransferData) (mid : ID) (secret : Bytes) :
    ownerAuth H (settle now s) t mid secret now =
      (ownerAuth H s t mid secret now).map (settle now) := by
  have hmb : getMailboxLocked (settle now s) mid now = getMailboxLocked s mid now := rfl
  unfold ownerAuth
  rw [hmb]
  split_ifs
  · rfl
  · cases getMailboxLocked s mid now with
    | none => rfl
    | some mb =>
      dsimp only
      split_ifs <;> rfl
  · rfl

/-- The owner check, then something read from the transfer. -/
theorem steady_ownerAuth {α : Type} (t : TransferData) (mid : ID) (secret : Bytes)
    (r : Result α) :
    Steady now (fun s => match ownerAuth H s t mid secret now with
      | .error e => (s, .error e)
      | .ok s => (s, r)) s := by
  refine steady_of_eq ?_
  simp only [ownerAuth_settle]
  cases ownerAuth H s t mid secret now <;> rfl

/-- The ticket check, then something read from the transfer. -/
theorem steady_ticket {α : Type} (t : TransferData) (ticket : Bytes) (r : Result α) :
    Steady now (fun s => match checkTicketLocked H t ticket with
      | .error e => (s, .error e)
      | .ok () => (s, r)) s := by
  cases checkTicketLocked H t ticket with
  | error e => exact steady_read _
  | ok => exact steady_read _

theorem steady_createMailbox (mid : ID) (hash : Digest) :
    Steady now (fun s => createMailbox s now mid hash) s := by
  have hmb : (settle now s).mailboxes.lookup mid = s.mailboxes.lookup mid := rfl
  refine steady_of_eq ?_
  unfold createMailbox
  rw [hmb]
  cases s.mailboxes.lookup mid <;> rfl

theorem steady_sendMessage (msg : SendMessage) (id : ID) :
    Steady now (fun s => sendMessage s now msg id) s := by
  have hmb : getMailboxLocked (settle now s) (copyArr 16 msg.mailboxID) now =
    getMailboxLocked s (copyArr 16 msg.mailboxID) now := rfl
  refine steady_of_eq ?_
  unfold sendMessage
  cases validateSendMessage msg with
  | error e => rfl
  | ok =>
    dsimp only
    rw [hmb]
    cases getMailboxLocked s (copyArr 16 msg.mailboxID) now with
    | none => rfl
    | some mb =>
      dsimp only
      split_ifs <;> rfl

theorem steady_receiveMessages (mid : ID) (secret : Bytes) (limit : ℤ) (peek : Bool) :
    Steady now (fun s => receiveMessages H s now mid secret limit peek) s := by
  have hmb : getMailboxLocked (settle now s) mid now = getMailboxLocked s mid now := rfl
  refine steady_of_eq ?_
  unfold receiveMessages
  dsimp only
  rw [hmb]
  cases getMailboxLocked s mid now with
  | none => rfl
  | some mb =>
    dsimp only
    split_ifs <;> rfl

theorem steady_ackMessages (mid : ID) (secret : Bytes) (ids : List Bytes) (disposition : UInt8) :
    Steady now (fun s => ackMessages H s now mid secret ids disposition) s := by
  have hmb : getMailboxLocked (settle now s) mid now = getMailboxLocked s mid now := rfl
  refine steady_of_eq ?_
  unfold ackMessages
  dsimp only
  rw [hmb]
  by_cases hd : disposition ≠ ackReceived ∧ disposition ≠ ackConsumed
  · simp only [if_pos hd, fail]
  by_cases hn : ids.length = 0 ∨ maxBatchMessages < ids.length
  · simp only [if_neg hd, if_pos hn, fail]
  simp only [if_neg hd, if_neg hn]
  cases getMailboxLocked s mid now with
  | none => rfl
  | some mb =>
    dsimp only
    cases secretMatches H mb.readSecretHash secret with
    | false => rfl
    | true => cases wantedIDs ids <;> rfl

/-- A record that is written settles in the same way. -/
theorem settle_settle_setTransfer (id : ID) (t : TransferData) :
    settle now ((settle now s).setTransfer id t) = settle now (s.setTransfer id t) := by
  rw [settle_setTransfer, settle_setTransfer, settle_settle (le_refl now)]

theorem steady_createTransfer (t : TransferCreate) (id : ID) (ticket : Option (ByteArr 32)) :
    Steady now (fun s => createTransfer H s now t id ticket) s := by
  have hquota : ∀ mid n, createTransferQuota (settle now s) now mid n =
      createTransferQuota s now mid n := by
    intro mid n
    unfold createTransferQuota
    rw [activeTransfersLocked_settle, mailboxStoredBytesLocked_settle]
    rfl
  have hrefused : settle now (settle now s) = settle now s := settle_settle (le_refl now) s
  unfold createTransfer
  cases validateTransferCreateMsg t with
  | error e => exact steady_read _
  | ok =>
    by_cases hlen : t.mailboxID.length = 16
    · simp only [hlen, decide_true, if_true]
      cases hq : createTransferQuota s now (copyArr 16 t.mailboxID) t.totalSize.toNat with
      | error e => exact ⟨by simp only [hquota, hq, hrefused], by simp only [hquota, hq]⟩
      | ok =>
        cases ticket with
        | none =>
          exact ⟨by simp only [hquota, hq, fail, hrefused], by simp only [hquota, hq, fail]⟩
        | some ticket =>
          -- the new record may be past its deadline already, and settles either way
          refine ⟨?_, by simp only [hquota, hq]⟩
          simp only [hquota, hq, settle_slideMailbox, settle_settle_setTransfer]
    · simp only [hlen, decide_false, Bool.false_eq_true, if_false]
      cases ticket with
      | none => exact steady_read _
      | some ticket => exact ⟨settle_settle_setTransfer _ _, rfl⟩

theorem steady_putChunk (c : ChunkUpload) : Steady now (fun s => putChunk H s now c) s := by
  unfold putChunk
  cases validateChunkUpload c with
  | error e => exact steady_read _
  | ok =>
    refine steady_onTransfer fun t => ?_
    cases checkChunk H t c with
    | error e => exact steady_read _
    | ok =>
      cases t.chunks.lookup c.index.toNat with
      | some old =>
        dsimp only
        split_ifs
        · exact steady_read _
        · exact steady_read _
      | none =>
        constructor
        · dsimp only
          rw [mailboxStoredBytesLocked_settle]
          split_ifs
          · exact settle_settle (le_refl now) s
          · rw [settle_slideMailbox, settle_slideMailbox, settle_settle_setTransfer]
          · exact settle_settle_setTransfer _ _
        · dsimp only
          rw [mailboxStoredBytesLocked_settle]
          split_ifs <;> rfl

theorem steady_completeTransfer (r : TransferComplete) :
    Steady now (fun s => completeTransfer s now r) s := by
  unfold completeTransfer
  cases validateTransferComplete r with
  | error e => exact steady_read _
  | ok =>
    refine steady_onTransfer fun t => ?_
    split_ifs
    · exact steady_read _
    · exact steady_read _
    · exact steady_read _
    · exact ⟨settle_settle_setTransfer _ _, rfl⟩

theorem steady_cancelTransfer (tid mid : ID) (secret : Bytes) :
    Steady now (fun s => cancelTransfer H s now tid mid secret) s := by
  refine steady_of_eq ?_
  unfold cancelTransfer
  rw [lookup_settle]
  cases s.transfers.lookup tid with
  | none => rfl
  | some t =>
    have hauth : ownerAuth H (settle now s) (t.settle now) mid secret now =
        (ownerAuth H s t mid secret now).map (settle now) := by
      obtain ⟨hm, hid, -⟩ := t.settle_kept now
      rw [← ownerAuth_settle]
      unfold ownerAuth
      rw [hm, hid]
    simp only [Option.map_some, hauth]
    cases ownerAuth H s t mid secret now with
    | error e => rfl
    | ok s' => simp only [Except.map, settle_eraseTransfer]

/-- A transfer past its deadline is dropped whatever its label. -/
theorem sweepTransfer_settle (t : TransferData) :
    sweepTransfer now (t.settle now) = sweepTransfer now t ∧
      (sweepTransfer now t).map (TransferData.settle now) = sweepTransfer now t := by
  by_cases hc : t.expiresAt ≤ now ∧ t.state ≠ .complete
  · rw [TransferData.settle_of_late hc.1 hc.2]
    have hlate : sweepTransfer now t = none := if_pos hc
    rw [hlate]
    exact ⟨if_pos ⟨hc.1, nofun⟩, rfl⟩
  · have hsettle : t.settle now = t :=
      TransferData.settle_of_live fun hs => not_le.mp fun hl => hc ⟨hl, hs⟩
    rw [hsettle]
    refine ⟨rfl, ?_⟩
    unfold sweepTransfer
    rw [if_neg hc]
    split_ifs
    · rfl
    · rw [Option.map_some, hsettle]

theorem steady_sweep : Steady now (fun s => sweep s now) s := by
  have hmailbox : sweepMailbox (settle now s).transfers now = sweepMailbox s.transfers now := by
    funext id mb
    unfold sweepMailbox
    rw [hasLiveTransfer_settle]
  refine steady_of_eq (Prod.ext ?_ ?_)
  · ext id : 1
    · unfold sweep
      rw [hmailbox]
      rfl
    · rw [lookup_settle]
      unfold sweep
      dsimp only
      rw [GoMap.lookup_collect, GoMap.lookup_collect, lookup_settle]
      cases s.transfers.lookup id with
      | none => rfl
      | some t =>
        obtain ⟨h₁, h₂⟩ : sweepTransfer now (t.settle now) = _ ∧ _ := sweepTransfer_settle t
        rw [Option.map_some, Option.bind_some, Option.bind_some, h₁, h₂]
    · rfl
  · unfold sweep
    dsimp only
    rw [hmailbox, sumBy_settle fun t => by rw [(sweepTransfer_settle t).1]]
    rfl

/-- No call can tell a settled store from the one it settles. -/
theorem steady_callStore (op : Op) : Steady now (fun s => callStore H s now op) s := by
  cases op with
  | createMailbox mid hash => exact (steady_createMailbox mid hash).withOutput _
  | mailboxExists mid => exact steady_of_eq rfl
  | checkReadSecret mid secret => exact steady_of_eq rfl
  | sendMessage msg id => exact (steady_sendMessage msg id).withOutput _
  | receiveMessages mid secret limit peek =>
    exact (steady_receiveMessages H mid secret limit peek).withOutput _
  | ackMessages mid secret ids disposition =>
    exact (steady_ackMessages H mid secret ids disposition).withOutput _
  | createTransfer t id ticket => exact (steady_createTransfer H t id ticket).withOutput _
  | putChunk c => exact (steady_putChunk H c).withOutput _
  | getChunk tid mid secret index =>
    exact (steady_onTransfer fun t => steady_ownerAuth H t mid secret _).withOutput _
  | resume tid mid secret =>
    exact (steady_onTransfer fun t => steady_ownerAuth H t mid secret _).withOutput _
  | getChunkByTicket tid ticket index =>
    exact (steady_onTransfer fun t => steady_ticket H t ticket _).withOutput _
  | resumeByTicket tid ticket =>
    exact (steady_onTransfer fun t => steady_ticket H t ticket _).withOutput _
  | progress tid => exact (steady_onTransfer fun t => steady_read _).withOutput _
  | completeTransfer r => exact (steady_completeTransfer r).withOutput _
  | cancelTransfer tid mid secret => exact (steady_cancelTransfer H tid mid secret).withOutput _
  | getTransfer tid => exact (steady_onTransfer fun t => steady_read _).withOutput _
  | checkAndMarkReplay key => exact steady_of_eq rfl
  | sweep => exact steady_sweep.withOutput _

end

/-! ## Ticket calls -/

/-- `GetChunkByTicket` and `ResumeByTicket`. -/
inductive Op.IsTicketCall : Op → Prop
  | getChunk (tid : ID) (ticket : Bytes) (index : UInt32) :
    IsTicketCall (.getChunkByTicket tid ticket index)
  | resume (tid : ID) (ticket : Bytes) : IsTicketCall (.resumeByTicket tid ticket)

variable (H : Bytes → Digest)

/-- A ticket call leaves what its lookup leaves. -/
theorem ticketCall_state {op : Op} (h : op.IsTicketCall) (s : MemStore) (now : ℤ) :
    ∃ tid, (callStore H s now op).1 = (findTransfer s tid now).1 := by
  cases h with
  | getChunk tid ticket index =>
    refine ⟨tid, ?_⟩
    simp only [callStore, withOutput_fst]
    unfold getChunkByTicket onTransfer
    rcases findTransfer s tid now with ⟨s', e | t⟩
    · rfl
    · cases hc : checkTicketLocked H t ticket <;> simp only [hc]
  | resume tid ticket =>
    refine ⟨tid, ?_⟩
    simp only [callStore, withOutput_fst]
    unfold resumeByTicket onTransfer
    rcases findTransfer s tid now with ⟨s', e | t⟩
    · rfl
    · cases hc : checkTicketLocked H t ticket <;> simp only [hc]

/-- Ticket calls write nothing but the label of a transfer past its deadline. -/
theorem ticket_writes {op : Op} (h : op.IsTicketCall) (s : MemStore) (now : ℤ) :
    (callStore H s now op).1.mailboxes = s.mailboxes ∧
      (callStore H s now op).1.replay = s.replay ∧
      ∀ id, (callStore H s now op).1.transfers.lookup id = s.transfers.lookup id ∨
        ∃ t, s.transfers.lookup id = some t ∧ t.expiresAt ≤ now ∧ t.state ≠ .complete ∧
          (callStore H s now op).1.transfers.lookup id = some t.expire := by
  obtain ⟨tid, hstate⟩ := ticketCall_state H h s now
  rw [hstate]
  refine ⟨findTransfer_mailboxes s tid now, findTransfer_replay s tid now, fun id => ?_⟩
  have hf := findTransfer_found s tid now
  generalize findTransfer s tid now = f at hf ⊢
  rcases hf with hm | ⟨ht, late, hs⟩ | ⟨ht, hl⟩
  · exact Or.inl rfl
  · rename_i t
    change (s.setTransfer tid t.expire).transfers.lookup id = _ ∨ ∃ t', _ ∧ _ ∧ _ ∧
      (s.setTransfer tid t.expire).transfers.lookup id = _
    rw [lookup_setTransfer]
    split_ifs with hid
    · subst hid
      exact Or.inr ⟨t, ht, late, hs, rfl⟩
    · exact Or.inl rfl
  · exact Or.inl rfl

/-- With the secret of the mailbox and the ticket of the transfer, both paths pass. -/
theorem ticket_answers_owner (es : List Event) (now : ℤ) {tid mid : ID} {t : TransferData}
    {mb : MailboxData} {secret ticket : Bytes}
    (ht : (runStore H es).transfers.lookup tid = some t) (hbound : t.boundTo mid = true)
    (hmb : (runStore H es).mailboxes.lookup mid = some mb) (hlive : now < mb.expiresAt)
    (hsecret : secretMatches H mb.readSecretHash secret = true)
    (hticket : minted tid ((store H).trace newMemStore es) = some ticket) :
    (∀ index, (getChunkByTicket H (runStore H es) now tid ticket index).2 =
      (getChunk H (runStore H es) now tid mid secret index).2) ∧
      (resumeByTicket H (runStore H es) now tid ticket).2 =
        (resume H (runStore H es) now tid mid secret).2 := by
  obtain ⟨tk, htk, hlen, hhash⟩ := downloadSecretHash_minted H es tid t ht
  obtain rfl : tk = ticket := Option.some.inj (htk.symm.trans hticket)
  have hcheck : checkTicketLocked H t tk = .ok () :=
    checkTicketLocked_eq_ok.mpr ⟨hlen, hhash.symm⟩
  obtain ⟨hm, hid⟩ := boundTo_iff.mp hbound
  have hauth : ownerAuth H (runStore H es) t mid secret now = .ok _ :=
    (ownerAuth_eq_ok H).mpr (Or.inr ⟨hm, hid, mb, hmb, hlive, hsecret, rfl⟩)
  have hf := findTransfer_found (runStore H es) tid now
  unfold getChunkByTicket getChunk resumeByTicket resume onTransfer
  generalize findTransfer (runStore H es) tid now = f at hf ⊢
  rcases hf with hnone | ⟨ht', late, hs⟩ | ⟨ht', hl⟩
  · exact ⟨fun _ => rfl, rfl⟩
  · exact ⟨fun _ => rfl, rfl⟩
  · cases ht.symm.trans ht'
    simp only [hcheck, hauth, implies_true, and_self]

/-- Inserted ticket calls go unnoticed. -/
theorem ticketCalls_unnoticed :
    (store H).Unnoticed Event.now (fun e => e.op.IsTicketCall) settle where
  later s h := settle_settle h s
  inserted s e h := by
    obtain ⟨tid, hs⟩ := ticketCall_state H h s e.now
    rw [store_step, hs]
    exact (findTransfer_settle tid).2
  state s e := (steady_callStore H e.op).state
  output s e := (steady_callStore H e.op).output

/-- Access with a ticket is access of the owner without side effects. In every state the store
reaches the two paths answer the same. A ticket call writes nothing but the label of a transfer
past its deadline. And ticket calls inserted into a run, marked here with `true`, change no
answer to the other calls of the run. -/
theorem ticket_access :
    (∀ es now tid mid t mb secret ticket, (runStore H es).transfers.lookup tid = some t →
      t.boundTo mid = true → (runStore H es).mailboxes.lookup mid = some mb →
      now < mb.expiresAt → secretMatches H mb.readSecretHash secret = true →
      minted tid ((store H).trace newMemStore es) = some ticket →
      (∀ index, (getChunkByTicket H (runStore H es) now tid ticket index).2 =
        (getChunk H (runStore H es) now tid mid secret index).2) ∧
        (resumeByTicket H (runStore H es) now tid ticket).2 =
          (resume H (runStore H es) now tid mid secret).2) ∧
    (∀ s now (op : Op), op.IsTicketCall →
      (callStore H s now op).1.mailboxes = s.mailboxes ∧
        (callStore H s now op).1.replay = s.replay ∧
        ∀ id, (callStore H s now op).1.transfers.lookup id = s.transfers.lookup id ∨
          ∃ t, s.transfers.lookup id = some t ∧ t.expiresAt ≤ now ∧ t.state ≠ .complete ∧
            (callStore H s now op).1.transfers.lookup id = some t.expire) ∧
    ∀ es : List (Event × Bool), ClockMonotone (es.map Prod.fst) →
      (∀ e ∈ es, e.2 = true → e.1.op.IsTicketCall) →
      (store H).marked.trace newMemStore (es.filter fun e => !e.2) =
        (store H).marked.keptTrace (fun _ e => e.2) newMemStore es := by
  refine ⟨fun es now tid mid t mb secret ticket ht hbound hmb hlive hsecret hticket =>
    ticket_answers_owner H es now ht hbound hmb hlive hsecret hticket,
    fun s now op h => ticket_writes H h s now, fun es hclock hins => ?_⟩
  unfold ClockMonotone at hclock
  rw [List.pairwise_map] at hclock
  exact (ticketCalls_unnoticed H).trace hins hclock newMemStore

/-- The run of `boundUpload` with a ticket call inserted, a day before the transfer is read. -/
def ticketInserted : List (Event × Bool) :=
  boundUpload.map (·, false) ++
    [(⟨2, .resumeByTicket sampleID sampleTicket.toList⟩, true),
      (⟨86400002, .getTransfer sampleID⟩, false)]

theorem ticket_access_boundUpload :
    (resumeByTicket sampleHash (runStore sampleHash boundUpload) 2 sampleID
        sampleTicket.toList).2 =
      (resume sampleHash (runStore sampleHash boundUpload) 2 sampleID sampleID
        (List.replicate 32 4)).2 ∧
    (store sampleHash).marked.trace newMemStore (ticketInserted.filter fun e => !e.2) =
      (store sampleHash).marked.keptTrace (fun _ e => e.2) newMemStore ticketInserted := by
  obtain ⟨t, ht⟩ : ∃ t, (runStore sampleHash boundUpload).transfers.lookup sampleID = some t :=
    Option.isSome_iff_exists.mp (by decide +kernel)
  obtain ⟨mb, hmb⟩ : ∃ mb, (runStore sampleHash boundUpload).mailboxes.lookup sampleID = some mb :=
    Option.isSome_iff_exists.mp (by decide +kernel)
  have hbound : ∀ t, (runStore sampleHash boundUpload).transfers.lookup sampleID = some t →
      t.boundTo sampleID = true := by decide +kernel
  have howner : ∀ mb, (runStore sampleHash boundUpload).mailboxes.lookup sampleID = some mb →
      2 < mb.expiresAt ∧
        secretMatches sampleHash mb.readSecretHash (List.replicate 32 4) = true := by
    decide +kernel
  obtain ⟨hanswers, -, hinserted⟩ := ticket_access sampleHash
  refine ⟨(hanswers boundUpload 2 sampleID sampleID t mb (List.replicate 32 4) sampleTicket.toList
    ht (hbound t ht) hmb (howner mb hmb).1 (howner mb hmb).2 (by decide +kernel)).2, ?_⟩
  refine hinserted ticketInserted ?_ fun e he hmark => ?_
  · unfold ClockMonotone
    decide
  · simp only [ticketInserted, boundUpload, List.map_cons, List.map_nil, List.cons_append,
      List.nil_append, List.mem_cons, List.not_mem_nil, or_false] at he
    rcases he with rfl | rfl | rfl | rfl
    · cases hmark
    · cases hmark
    · exact .resume _ _
    · cases hmark

end FileRelay
