import FileRelay.Queue
import FileRelay.TransferInv

/-!
# What a sweep removes

`Sweep` has two branches that reclaim a mailbox, and only the second looks at its transfers.
They agree because of how deadlines are set (`DeadlineInv`) : over a clock that does not go
back, the messages and the transfers of a mailbox expire no later than the mailbox does, and
an unsealed transfer expires early enough that sealing it, which moves its deadline by two
weeks and leaves the mailbox alone, does not change that.

`deadlineInv_run` is the invariant over runs and `sweep_removes_expired` what it gives : a
sweep keeps exactly what has not expired and counts what it drops. Both are over readings a
year or more before the end of the range of `int64`. After that the deadline of a mailbox
wraps while that of its transfers does not (`wrapped_mailbox_reclaimed`).
-/

namespace FileRelay

variable (H : Bytes → Digest)

/-! ## Mailboxes over one call -/

theorem lookup_setMailbox_ne_none {s : MemStore} {mid : ID} (id : ID) (mb : MailboxData)
    (h : s.mailboxes.lookup mid ≠ none) : (s.setMailbox id mb).mailboxes.lookup mid ≠ none := by
  rw [lookup_setMailbox]
  split_ifs
  · nofun
  · exact h

theorem SameSecrets.ne_none {s s' : MemStore} {mid : ID} (hs : SameSecrets s s')
    (h : s.mailboxes.lookup mid ≠ none) : s'.mailboxes.lookup mid ≠ none := by
  intro hnone
  have hmap := hs mid
  rw [hnone, Option.map_none] at hmap
  exact h (Option.map_eq_none_iff.mp hmap.symm)

/-- Only a sweep removes a mailbox. -/
theorem mailbox_stays {s : MemStore} {mid : ID} (now : ℤ) {op : Op} (hop : op ≠ .sweep)
    (h : s.mailboxes.lookup mid ≠ none) :
    (callStore H s now op).1.mailboxes.lookup mid ≠ none := by
  by_cases hcreate : ∃ id hash, op = .createMailbox id hash
  · obtain ⟨id, hash, rfl⟩ := hcreate
    simp only [callStore, withOutput_fst, createMailbox]
    split <;> exact lookup_setMailbox_ne_none _ _ h
  · exact (secrets_step H s now (fun id hash he => hcreate ⟨id, hash, he⟩) hop).ne_none h

/-! ## Deadlines -/

/-- The deadline of a transfer, or for an unsealed one the latest that sealing can give it. -/
def TransferData.horizon (t : TransferData) : ℤ :=
  if t.state = .complete then t.expiresAt else t.expiresAt + completeTTLSeconds * 1000

theorem TransferData.expiresAt_le_horizon (t : TransferData) : t.expiresAt ≤ t.horizon := by
  unfold TransferData.horizon completeTTLSeconds
  split_ifs <;> omega

/-- The deadlines at a reading of the clock. A mailbox has at most its full time left, its
messages expire no later than it does, and so do its transfers, whether sealed or sealed
later. -/
structure DeadlineInv (clock : ℤ) (s : MemStore) : Prop where
  mailbox : ∀ mid mb, s.mailboxes.lookup mid = some mb →
    mb.expiresAt ≤ clock + mailboxTTLSeconds * 1000
  message : ∀ mid mb, s.mailboxes.lookup mid = some mb → ∀ m ∈ mb.messages,
    m.expiresAt ≤ mb.expiresAt
  transfer : ∀ tid t, s.transfers.lookup tid = some t → t.hasMailbox = true →
    ∃ mb, s.mailboxes.lookup t.mailboxID = some mb ∧ t.horizon ≤ mb.expiresAt

theorem mailboxDeadline_eq {now : ℤ} (h : ClockFits mailboxTTLSeconds now) :
    mailboxDeadline now = now + mailboxTTLSeconds * 1000 :=
  h.deadline_eq (by decide) le_rfl

theorem DeadlineInv.mono {clock clock' : ℤ} {s : MemStore} (inv : DeadlineInv clock s)
    (h : clock ≤ clock') : DeadlineInv clock' s :=
  { inv with
    mailbox := fun mid mb hmb => (inv.mailbox mid mb hmb).trans (Int.add_le_add_right h _) }

theorem deadlineInv_newMemStore (clock : ℤ) : DeadlineInv clock newMemStore where
  mailbox mid mb h := absurd h (GoMap.lookup_empty_ne_some mid mb)
  message mid mb h := absurd h (GoMap.lookup_empty_ne_some mid mb)
  transfer tid t h := absurd h (GoMap.lookup_empty_ne_some tid t)

variable {H}

/-- The deadline of a mailbox after a call is the one before, or a full one. -/
theorem expiresAt_step {s : MemStore} {e : Event} {mid : ID} {mb' : MailboxData}
    (h : ((store H).step s e).1.mailboxes.lookup mid = some mb') :
    mb'.expiresAt = mailboxDeadline e.now ∨
      ∃ mb, s.mailboxes.lookup mid = some mb ∧ mb'.expiresAt = mb.expiresAt := by
  have step := step_mailbox H s e mid
  rw [h] at step
  generalize ho : some mb' = o at step
  rcases step with _ | _ | _ | _ | ⟨-, hmb⟩ | _ | _ | _ | _
  · exact Or.inr ⟨mb', ho.symm, rfl⟩
  · cases ho
    exact Or.inl rfl
  · cases ho
    exact Or.inl rfl
  · cases ho
    exact Or.inl rfl
  · cases ho
    exact Or.inr ⟨_, hmb, rfl⟩
  · cases ho
    exact Or.inl rfl
  · cases ho
    exact Or.inl rfl
  · cases ho
    exact Or.inl rfl
  · cases ho

/-- A message after a call was there before, or it is new and its mailbox has a full
deadline. -/
theorem message_step {s : MemStore} {e : Event} {mid : ID} {mb' : MailboxData} {m : StoredMessage}
    (h : ((store H).step s e).1.mailboxes.lookup mid = some mb') (hm : m ∈ mb'.messages) :
    m ∈ messagesOf s mid ∨
      (m.expiresAt = deadline e.now msgTTLSeconds ∧ mb'.expiresAt = mailboxDeadline e.now) := by
  rw [← messagesOf_some h] at hm
  rcases messages_step H s e mid with hsub | ⟨msg, id, mb, -, -, -, hmb, -, -, -, hsent⟩
  · exact Or.inl (hsub.subset hm)
  · rw [messagesOf_enqueue hsent] at hm
    rcases List.mem_append.mp hm with hm | hm
    · rw [messagesOf_some hmb]
      exact Or.inl ((live_sublist _ _).subset hm)
    · cases h.symm.trans hsent
      rw [List.mem_singleton.mp hm]
      exact Or.inr ⟨rfl, rfl⟩

/-- A mailbox after a call expires no earlier than before, unless a sweep after its deadline
removed it. -/
theorem deadline_step {s : MemStore} {e : Event} {mid : ID} {mb : MailboxData}
    (hfits : ClockFits mailboxTTLSeconds e.now) (inv : DeadlineInv e.now s)
    (h : s.mailboxes.lookup mid = some mb) :
    (∃ mb', ((store H).step s e).1.mailboxes.lookup mid = some mb' ∧
      mb.expiresAt ≤ mb'.expiresAt) ∨ (e.op = .sweep ∧ mb.expiresAt ≤ e.now) := by
  rcases h' : ((store H).step s e).1.mailboxes.lookup mid with _ | mb'
  · have hop : e.op = .sweep := by
      by_contra hop
      exact mailbox_stays H e.now hop (by rw [h]; nofun) h'
    refine Or.inr ⟨hop, ?_⟩
    have step := step_mailbox H s e mid
    rw [h'] at step
    generalize ho : (none : Option MailboxData) = o at step
    rcases step with _ | _ | _ | _ | _ | _ | _ | _ | ⟨-, hmb, late, -⟩
    · rw [h] at ho
      cases ho
    · cases ho
    · cases ho
    · cases ho
    · cases ho
    · cases ho
    · cases ho
    · cases ho
    · cases h.symm.trans hmb
      exact late
  · refine Or.inl ⟨mb', rfl, ?_⟩
    rcases expiresAt_step h' with hexp | ⟨mb₀, h₀, hexp⟩
    · rw [hexp, mailboxDeadline_eq hfits]
      exact inv.mailbox mid mb h
    · cases h.symm.trans h₀
      exact Int.le_of_eq hexp.symm

/-- What a bound transfer needs of its mailbox is still there after a call that leaves its
horizon where it was. -/
theorem horizon_step {s : MemStore} {e : Event} {tid : ID} {t t' : TransferData}
    (hfits : ClockFits mailboxTTLSeconds e.now) (inv : DeadlineInv e.now s)
    (ht : s.transfers.lookup tid = some t) (hm : t.hasMailbox = true)
    (ht' : ((store H).step s e).1.transfers.lookup tid = some t') (hle : t'.horizon ≤ t.horizon) :
    ∃ mb, ((store H).step s e).1.mailboxes.lookup t.mailboxID = some mb ∧
      t'.horizon ≤ mb.expiresAt := by
  obtain ⟨mb, hmb, hhor⟩ := inv.transfer tid t ht hm
  rcases deadline_step (H := H) hfits inv hmb with ⟨mb', hmb', hexp⟩ | ⟨hop, late⟩
  · exact ⟨mb', hmb', by omega⟩
  · -- the sweep that removes the mailbox removes the transfer
    have hexp := t.expiresAt_le_horizon
    rw [store_step, hop] at ht'
    simp only [callStore, withOutput_fst, sweep_lookup_transfer, ht, Option.bind_some] at ht'
    rw [if_pos (by omega)] at ht'
    cases ht'

theorem horizon_createdTransfer_le {now : ℤ} (hfits : ClockFits mailboxTTLSeconds now)
    {r : TransferCreate} {ticket : ByteArr 32} :
    (createdTransfer H r ticket now).horizon ≤ mailboxDeadline now := by
  change deadline now uploadTTLSeconds + completeTTLSeconds * 1000 ≤ mailboxDeadline now
  rw [mailboxDeadline_eq hfits, hfits.deadline_eq (by decide) (by decide)]
  unfold uploadTTLSeconds completeTTLSeconds mailboxTTLSeconds
  omega

theorem horizon_storeChunk_le {now : ℤ} (hfits : ClockFits mailboxTTLSeconds now)
    {t : TransferData} {c : ChunkUpload} (hopen : t.state ≠ .complete) :
    (storeChunk H t c now).horizon ≤ mailboxDeadline now := by
  have hstate : (storeChunk H t c now).state ≠ .complete := by
    change (if t.state = .created then TransferState.uploading else t.state) ≠ .complete
    split_ifs
    · decide
    · exact hopen
  rw [TransferData.horizon, if_neg hstate]
  change (if deadline t.createdAt uploadTTLMaxSeconds < deadline now uploadTTLSeconds
    then deadline t.createdAt uploadTTLMaxSeconds else deadline now uploadTTLSeconds) +
      completeTTLSeconds * 1000 ≤ mailboxDeadline now
  rw [mailboxDeadline_eq hfits, hfits.deadline_eq (by decide) (by decide)]
  unfold uploadTTLSeconds completeTTLSeconds mailboxTTLSeconds
  split_ifs <;> omega

/-- A transfer bound to a mailbox expires in time after every call. -/
theorem transfer_deadline_step {s : MemStore} {e : Event} {tid : ID} {t' : TransferData}
    (hfits : ClockFits mailboxTTLSeconds e.now) (inv : DeadlineInv e.now s)
    (h : ((store H).step s e).1.transfers.lookup tid = some t') (hm : t'.hasMailbox = true) :
    ∃ mb, ((store H).step s e).1.mailboxes.lookup t'.mailboxID = some mb ∧
      t'.horizon ≤ mb.expiresAt := by
  have step := step_transfer H s e tid
  rw [h] at step
  generalize ho : some t' = o at step
  rcases step with _ | ⟨r, ticket, hop, hv, hq, hout⟩ | ⟨ht, late, hs⟩ |
    ⟨c, hop, hid, hv, ht, hl, hc, hn, hq, hout⟩ | ⟨r, hop, hid, ht, hl, hs, hall, hout⟩ | _ | _
  · exact horizon_step hfits inv ho.symm hm h (le_refl _)
  · -- the create has slid the mailbox
    cases ho
    have hlen : r.mailboxID.length = 16 := of_decide_eq_true hm
    obtain ⟨⟨mb, hmb, -⟩, -⟩ := createTransferQuota_eq_ok.mp (hq hlen)
    have hstep : ((store H).step s e).1 = createStore H s e.now r tid ticket := by
      rw [store_step, hop] at hout ⊢
      exact createTransfer_store H (Output.created.inj hout)
    have hid : (createdTransfer H r ticket e.now).mailboxID = copyArr 16 r.mailboxID := by
      change (if decide (r.mailboxID.length = 16) = true then _ else _) = _
      rw [if_pos (decide_eq_true hlen)]
    refine ⟨mb.slide e.now, ?_, ?_⟩
    · rw [hstep, hid, createStore, if_pos hlen]
      exact lookup_slideMailbox e.now hmb
    · exact horizon_createdTransfer_le hfits
  · rename_i t
    cases ho
    refine horizon_step (t := t) hfits inv ht hm h ?_
    change t.expiresAt + completeTTLSeconds * 1000 ≤ t.horizon
    rw [TransferData.horizon, if_neg hs]
  · -- the put has slid the mailbox
    rename_i t
    cases ho
    obtain ⟨mb, hmb, -⟩ := inv.transfer tid t ht hm
    have hstep : ((store H).step s e).1 = putStore H s e.now c t := by
      rw [store_step, hop] at hout ⊢
      rw [← hid] at ht
      exact putChunk_store H ht hn (Output.put.inj hout)
    have hm' : t.hasMailbox = true := hm
    refine ⟨mb.slide e.now, ?_, ?_⟩
    · rw [hstep, putStore, if_pos hm']
      exact lookup_slideMailbox e.now hmb
    · exact horizon_storeChunk_le hfits ((checkChunk_eq_ok H).mp hc).1.1
  · rename_i t
    cases ho
    refine horizon_step (t := t) hfits inv ht hm h ?_
    change deadline e.now completeTTLSeconds ≤ t.horizon
    rw [TransferData.horizon, if_neg hs, hfits.deadline_eq (by decide) (by decide)]
    omega
  · cases ho
  · cases ho

/-- Deadlines over one call. -/
theorem deadlineInv_step {s : MemStore} {e : Event} (hfits : ClockFits mailboxTTLSeconds e.now)
    (inv : DeadlineInv e.now s) : DeadlineInv e.now ((store H).step s e).1 := by
  refine ⟨fun mid mb' h => ?_, fun mid mb' h m hm => ?_, fun tid t' h hmb => ?_⟩
  · rcases expiresAt_step h with hexp | ⟨mb, hmb, hexp⟩
    · rw [hexp, mailboxDeadline_eq hfits]
    · rw [hexp]
      exact inv.mailbox mid mb hmb
  · rcases message_step h hm with hold | ⟨hm, hexp⟩
    · unfold messagesOf at hold
      rcases hmb : s.mailboxes.lookup mid with _ | mb
      · rw [hmb] at hold
        cases hold
      · rw [hmb] at hold
        have hle := inv.message mid mb hmb m hold
        rcases expiresAt_step h with hexp | ⟨mb₀, h₀, hexp⟩
        · rw [hexp, mailboxDeadline_eq hfits]
          exact hle.trans (inv.mailbox mid mb hmb)
        · cases hmb.symm.trans h₀
          rw [hexp]
          exact hle
    · rw [hm, hexp, mailboxDeadline_eq hfits, hfits.deadline_eq (by decide) (by decide)]
      unfold msgTTLSeconds mailboxTTLSeconds
      omega
  · exact transfer_deadline_step hfits inv h hmb

/-- Deadlines over a run, at any reading not before its last. -/
theorem deadlineInv_run (es : List Event) (hclock : ClockMonotone es)
    (hfits : ∀ e ∈ es, ClockFits mailboxTTLSeconds e.now) (now : ℤ)
    (hnow : ∀ e ∈ es, e.now ≤ now) : DeadlineInv now (runStore H es) :=
  Machine.clock_induction (fun now => deadlineInv_newMemStore now) (fun hle inv => inv.mono hle)
    (fun _ e he inv => deadlineInv_step (hfits e he) inv) hclock hnow

/-! ## A sweep -/

/-- The number of messages stored. -/
def storedMessages (s : MemStore) : ℕ :=
  s.mailboxes.sumBy fun _ mb => mb.messages.length

/-- `s'` is what has not expired of `s`, and `counts` what is gone. -/
structure Swept (now : ℤ) (s s' : MemStore) (counts : ℕ × ℕ × ℕ) : Prop where
  mailboxes : ∀ mid, s'.mailboxes.lookup mid = (s.mailboxes.lookup mid).bind fun mb =>
    if now < mb.expiresAt then some (mb.keep (live now mb.messages)) else none
  transfers : ∀ tid, s'.transfers.lookup tid = (s.transfers.lookup tid).bind fun t =>
    if now < t.expiresAt then some t else none
  replay : ∀ key, s'.replay.lookup key = (s.replay.lookup key).bind fun exp =>
    if now < exp then some exp else none
  messages_dropped : storedMessages s = storedMessages s' + counts.1
  transfers_dropped : s.transfers.len = s'.transfers.len + counts.2.1
  mailboxes_dropped : s.mailboxes.len = s'.mailboxes.len + counts.2.2

theorem prune_eq (mb : MailboxData) (now : ℤ) :
    pruneMessagesLocked mb now = mb.keep (live now mb.messages) := by
  unfold pruneMessagesLocked live
  rw [Slice.filterInPlace_eq]

theorem hasLiveTransfer_eq_false {transfers : GoMap ID TransferData} {mid : ID} {now : ℤ}
    (h : ∀ tid t, transfers.lookup tid = some t → t.boundTo mid = true → t.expiresAt ≤ now) :
    hasLiveTransfer transfers mid now = false := by
  refine decide_eq_false fun hne => hne (GoMap.sumBy_eq_zero fun tid t ht => if_neg fun hlive => ?_)
  rw [Bool.and_eq_true, decide_eq_true_eq] at hlive
  exact absurd hlive.2 (not_lt.mpr (h tid t ht hlive.1))

/-- A mailbox past its deadline holds nothing that has not expired. -/
theorem DeadlineInv.nothing_live {clock now : ℤ} {s : MemStore} {mid : ID} {mb : MailboxData}
    (inv : DeadlineInv clock s) (h : s.mailboxes.lookup mid = some mb) (late : mb.expiresAt ≤ now) :
    live now mb.messages = [] ∧
      ∀ tid t, s.transfers.lookup tid = some t → t.boundTo mid = true → t.expiresAt ≤ now := by
  refine ⟨List.filter_eq_nil_iff.mpr fun m hm => ?_, fun tid t ht hb => ?_⟩
  · have := inv.message mid mb h m hm
    rw [decide_eq_true_eq]
    omega
  · obtain ⟨hm, rfl⟩ := boundTo_iff.mp hb
    obtain ⟨mb', hmb', hhor⟩ := inv.transfer tid t ht hm
    cases h.symm.trans hmb'
    have := t.expiresAt_le_horizon
    omega

/-- A sweep keeps a mailbox exactly before its deadline. -/
theorem sweepMailbox_exact {clock now : ℤ} {s : MemStore} {mid : ID} {mb : MailboxData}
    (inv : DeadlineInv clock s) (h : s.mailboxes.lookup mid = some mb) :
    sweepMailbox s.transfers now mid mb =
      if now < mb.expiresAt then some (mb.keep (live now mb.messages)) else none := by
  unfold sweepMailbox
  by_cases late : mb.expiresAt ≤ now
  · obtain ⟨hempty, htransfers⟩ := inv.nothing_live h late
    have hexp : (pruneMessagesLocked mb now).expiresAt ≤ now := late
    have hpruned : (pruneMessagesLocked mb now).messages.length = 0 := by
      rw [messages_prune, hempty]
      rfl
    rw [if_neg (not_lt.mpr late)]
    split_ifs with h₁
    · rfl
    · dsimp only
      rw [if_pos ⟨hexp, hpruned, by rw [hasLiveTransfer_eq_false htransfers]; rfl⟩]
  · have hexp : ¬(pruneMessagesLocked mb now).expiresAt ≤ now := late
    rw [if_neg fun hc => late hc.1, if_pos (not_le.mp late)]
    dsimp only
    rw [if_neg fun hc => hexp hc.1, prune_eq]

/-- From a state with its deadlines in order, a sweep keeps exactly what has not expired. -/
theorem swept_sweep {clock : ℤ} {s : MemStore} (now : ℤ) (inv : DeadlineInv clock s) :
    Swept now s (sweep s now).1 (sweep s now).2 where
  mailboxes mid := by
    rw [sweep_lookup_mailbox]
    rcases h : s.mailboxes.lookup mid with _ | mb
    · rfl
    · exact sweepMailbox_exact inv h
  transfers tid := by
    rw [sweep_lookup_transfer]
    rcases s.transfers.lookup tid with _ | t
    · rfl
    · simp only [Option.bind_some, ← not_lt, ite_not]
  replay key := by
    unfold sweep pruneReplay
    rw [GoMap.lookup_collect]
    rcases s.replay.lookup key with _ | exp
    · rfl
    · simp only [Option.bind_some, ← not_lt, ite_not]
  messages_dropped := by
    unfold storedMessages sweep
    rw [GoMap.sumBy_collect, ← GoMap.sumBy_add]
    refine GoMap.sumBy_congr fun mid mb h => ?_
    have hle := (live_sublist now mb.messages).length_le
    rw [sweepMailbox_exact inv h, sweptMessages, messages_prune]
    by_cases late : mb.expiresAt ≤ now
    · rw [if_neg (not_lt.mpr late), (inv.nothing_live h late).1, Option.elim_none,
        List.length_nil]
      omega
    · rw [if_pos (not_le.mp late), Option.elim_some]
      change _ = (live now mb.messages).length + _
      omega
  transfers_dropped := GoMap.len_collect_add _ _
  mailboxes_dropped := GoMap.len_collect_add _ _

/-- What is left has nothing expired in it. -/
theorem Swept.again {now : ℤ} {s s' : MemStore} {counts : ℕ × ℕ × ℕ} (h : Swept now s s' counts) :
    (sweep s' now).2 = (0, 0, 0) := by
  have hmb : ∀ mid mb, s'.mailboxes.lookup mid = some mb →
      now < mb.expiresAt ∧ live now mb.messages = mb.messages := by
    intro mid mb hlook
    rw [h.mailboxes] at hlook
    obtain ⟨mb₀, -, hlook⟩ := Option.bind_eq_some_iff.mp hlook
    split_ifs at hlook with hl
    obtain rfl := Option.some.inj hlook
    exact ⟨hl, live_live (le_refl now) mb₀.messages⟩
  have ht : ∀ tid t, s'.transfers.lookup tid = some t → now < t.expiresAt := by
    intro tid t hlook
    rw [h.transfers] at hlook
    obtain ⟨t₀, -, hlook⟩ := Option.bind_eq_some_iff.mp hlook
    split_ifs at hlook with hl
    obtain rfl := Option.some.inj hlook
    exact hl
  unfold sweep
  rw [Prod.mk.injEq, Prod.mk.injEq]
  refine ⟨GoMap.sumBy_eq_zero fun mid mb hlook => ?_, GoMap.sumBy_eq_zero fun tid t hlook => ?_,
    GoMap.sumBy_eq_zero fun mid mb hlook => ?_⟩
  · rw [sweptMessages, messages_prune, (hmb mid mb hlook).2, Nat.sub_self]
  · have hkeep : sweepTransfer now t = some t := by
      have hl := not_le.mpr (ht tid t hlook)
      unfold sweepTransfer
      rw [if_neg fun hc => hl hc.1, if_neg fun hc => hl hc.2]
    rw [hkeep]
    rfl
  · have hl := (hmb mid mb hlook).1
    rcases sweepMailbox_eq s'.transfers now mid mb with hk | ⟨-, late, -⟩
    · rw [hk]
      rfl
    · exact absurd hl (not_lt.mpr late)

/-- In every state a run reaches while the clock does not go back and reads a year before the
end of its range at the latest, a sweep keeps exactly what has not expired and counts what it
drops, a second sweep at the same time drops nothing, and a mailbox that is reclaimed held no
unexpired message and owned no unexpired transfer. -/
theorem sweep_removes_expired (H : Bytes → Digest) (es : List Event) (now : ℤ)
    (hclock : ClockMonotone es) (hfits : ∀ e ∈ es, ClockFits mailboxTTLSeconds e.now)
    (hnow : ∀ e ∈ es, e.now ≤ now) :
    Swept now (runStore H es) (sweep (runStore H es) now).1 (sweep (runStore H es) now).2 ∧
      (sweep (sweep (runStore H es) now).1 now).2 = (0, 0, 0) ∧
      ∀ mid mb, (runStore H es).mailboxes.lookup mid = some mb →
        (sweep (runStore H es) now).1.mailboxes.lookup mid = none →
        live now mb.messages = [] ∧ ∀ tid t, (runStore H es).transfers.lookup tid = some t →
          t.boundTo mid = true → t.expiresAt ≤ now := by
  have inv := deadlineInv_run (H := H) es hclock hfits now hnow
  have hswept := swept_sweep now inv
  refine ⟨hswept, hswept.again, fun mid mb h hgone => inv.nothing_live h ?_⟩
  rw [hswept.mailboxes, h, Option.bind_some] at hgone
  split_ifs at hgone with hl
  exact not_lt.mp hl

/-- A year after the sample run of a queue, a sweep drops its one message and the mailbox. -/
theorem sweep_removes_expired_queueSample :
    (sweep (runStore (copyArr 32) queueSample) 31536000003).2 = (1, 0, 1) ∧
      Swept 31536000003 (runStore (copyArr 32) queueSample)
        (sweep (runStore (copyArr 32) queueSample) 31536000003).1 (1, 0, 1) := by
  have hcounts : (sweep (runStore (copyArr 32) queueSample) 31536000003).2 = (1, 0, 1) := by
    decide +kernel
  have hswept := (sweep_removes_expired (copyArr 32) queueSample 31536000003
    (by unfold ClockMonotone; decide +kernel) (by decide +kernel) (by decide +kernel)).1
  rw [hcounts] at hswept
  exact ⟨hcounts, hswept⟩

/-! ### The end of the clock's range -/

/-- A mailbox with the last deadline there is, and a transfer for it a millisecond later. -/
def wrappedRun : List Event :=
  [⟨2 ^ 63 - 31536000001, .createMailbox (copyArr 16 [1]) (copyArr 32 [])⟩,
    ⟨2 ^ 63 - 31536000000, .createTransfer
      { sampleCreate with mailboxID := (copyArr 16 [1]).toList } sampleID (some sampleTicket)⟩]

/-- The create slides the deadline of the mailbox past the end of `int64`, and the sweep
reclaims the mailbox of a transfer that has not expired. -/
theorem wrapped_mailbox_reclaimed :
    ClockMonotone wrappedRun ∧ (∀ e ∈ wrappedRun, e.now ≤ 2 ^ 63 - 31536000000) ∧
      (∃ mb, (runStore sampleHash wrappedRun).mailboxes.lookup (copyArr 16 [1]) = some mb) ∧
      (sweep (runStore sampleHash wrappedRun) (2 ^ 63 - 31536000000)).1.mailboxes.lookup
        (copyArr 16 [1]) = none ∧
      ∃ t, (runStore sampleHash wrappedRun).transfers.lookup sampleID = some t ∧
        t.boundTo (copyArr 16 [1]) = true ∧ 2 ^ 63 - 31536000000 < t.expiresAt := by
  refine ⟨by unfold ClockMonotone; decide +kernel, by decide +kernel,
    Option.isSome_iff_exists.mp (by decide +kernel), ?_, ?_⟩
  · exact Option.isNone_iff_eq_none.mp (by decide +kernel)
  · have hmap : ((runStore sampleHash wrappedRun).transfers.lookup sampleID).map
        (fun t => (t.boundTo (copyArr 16 [1]), decide (2 ^ 63 - 31536000000 < t.expiresAt))) =
          some (true, true) := by decide +kernel
    obtain ⟨t, ht, hfields⟩ := Option.map_eq_some_iff.mp hmap
    obtain ⟨hbound, hlive⟩ := Prod.mk.inj hfields
    exact ⟨t, ht, hbound, of_decide_eq_true hlive⟩

end FileRelay
