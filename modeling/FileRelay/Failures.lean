import FileRelay.Queue
import FileRelay.RoundTrip

/-!
# Failed calls

The six calls that write messages or transfers have some thirty ways to fail, some of them
after expired messages were pruned or an expired transfer was relabelled. `Unobserved` is
what no failure touches : secrets, deadlines and unexpired messages, the replay cache, and
the transfers, a relabelling aside. `failed_calls_unobserved` says so for the six calls, in
any state.
-/

namespace FileRelay

/-- A mailbox with some expired messages dropped and nothing else changed. -/
structure SameMailbox (now : ℤ) (mb mb' : MailboxData) : Prop where
  readSecretHash : mb'.readSecretHash = mb.readSecretHash
  expiresAt : mb'.expiresAt = mb.expiresAt
  unexpired : live now mb'.messages = live now mb.messages
  kept : mb'.messages.Sublist mb.messages

/-- The record is the same, or it was past its deadline and unsealed and is relabelled. -/
def SameTransfer (now : ℤ) (t t' : TransferData) : Prop :=
  t' = t ∨ (t.expiresAt ≤ now ∧ t.state ≠ .complete ∧ t' = t.expire)

/-- The store is the same, lazy expiry aside. -/
structure Unobserved (now : ℤ) (s s' : MemStore) : Prop where
  mailboxes : ∀ mid, Option.Rel (SameMailbox now) (s.mailboxes.lookup mid) (s'.mailboxes.lookup mid)
  transfers : ∀ tid, Option.Rel (SameTransfer now) (s.transfers.lookup tid)
    (s'.transfers.lookup tid)
  replay : s'.replay = s.replay

/-! ## The three stores a failure leaves -/

theorem SameMailbox.refl (now : ℤ) (mb : MailboxData) : SameMailbox now mb mb :=
  ⟨rfl, rfl, rfl, List.Sublist.refl _⟩

theorem sameMailbox_prune (now : ℤ) (mb : MailboxData) :
    SameMailbox now mb (pruneMessagesLocked mb now) := by
  refine ⟨rfl, rfl, ?_, ?_⟩
  · rw [messages_prune, live_live (le_refl now)]
  · rw [messages_prune]
    exact live_sublist now mb.messages

theorem SameTransfer.refl (now : ℤ) (t : TransferData) : SameTransfer now t t :=
  Or.inl rfl

theorem rel_self {α : Type} {r : α → α → Prop} (h : ∀ a, r a a) : ∀ o : Option α, Option.Rel r o o
  | none => .none
  | some a => .some (h a)

theorem Unobserved.refl (now : ℤ) (s : MemStore) : Unobserved now s s :=
  ⟨fun _ => rel_self (SameMailbox.refl now) _, fun _ => rel_self (SameTransfer.refl now) _, rfl⟩

/-- Pruning a mailbox is not observed. -/
theorem unobserved_prune {now : ℤ} {s : MemStore} {mid : ID} {mb : MailboxData}
    (h : s.mailboxes.lookup mid = some mb) :
    Unobserved now s (s.setMailbox mid (pruneMessagesLocked mb now)) := by
  refine { Unobserved.refl now s with mailboxes := fun k => ?_ }
  rw [lookup_setMailbox]
  split_ifs with hk
  · rw [hk, h]
    exact .some (sameMailbox_prune now mb)
  · exact rel_self (SameMailbox.refl now) _

/-- Relabelling an expired transfer is not observed. -/
theorem unobserved_expire {now : ℤ} {s : MemStore} {tid : ID} {t : TransferData}
    (h : s.transfers.lookup tid = some t) (late : t.expiresAt ≤ now) (hs : t.state ≠ .complete) :
    Unobserved now s (s.setTransfer tid t.expire) := by
  refine { Unobserved.refl now s with transfers := fun k => ?_ }
  rw [lookup_setTransfer]
  split_ifs with hk
  · rw [hk, h]
    exact .some (Or.inr ⟨late, hs, rfl⟩)
  · exact rel_self (SameTransfer.refl now) _

/-! ## The six calls -/

/-- A call of the six that write messages or transfers and returns an error leaves the same
store, up to expired messages dropped and expired transfers relabelled. -/
theorem failed_calls_unobserved (H : Bytes → Digest) (s : MemStore) (now : ℤ)
    (err : ProtocolError) :
    (∀ msg id, (sendMessage s now msg id).2 = .error err →
      Unobserved now s (sendMessage s now msg id).1) ∧
    (∀ mid secret ids disposition,
      (ackMessages H s now mid secret ids disposition).2 = .error err →
      Unobserved now s (ackMessages H s now mid secret ids disposition).1) ∧
    (∀ r id ticket, (createTransfer H s now r id ticket).2 = .error err →
      Unobserved now s (createTransfer H s now r id ticket).1) ∧
    (∀ c, (putChunk H s now c).2 = .error err → Unobserved now s (putChunk H s now c).1) ∧
    (∀ r, (completeTransfer s now r).2 = .error err →
      Unobserved now s (completeTransfer s now r).1) ∧
    (∀ tid mid secret, (cancelTransfer H s now tid mid secret).2 = .error err →
      Unobserved now s (cancelTransfer H s now tid mid secret).1) := by
  refine ⟨fun msg id h => ?_, fun mid secret ids disposition h => ?_, fun r id ticket h => ?_,
    fun c h => ?_, fun r h => ?_, fun tid mid secret h => ?_⟩
  · have ho := sendMessage_outcome s now msg id
    generalize sendMessage s now msg id = res at ho h ⊢
    rcases ho with ⟨e⟩ | ⟨e, hmb, -⟩ | _
    · exact .refl now s
    · exact unobserved_prune hmb
    · cases h
  · have ho := ackMessages_outcome H s now mid secret ids disposition
    generalize ackMessages H s now mid secret ids disposition = res at ho h ⊢
    rcases ho with ⟨e⟩ | ⟨e, hmb, -⟩ | _
    · exact .refl now s
    · exact unobserved_prune hmb
    · cases h
  · have ho := createTransfer_outcome H s now r id ticket
    generalize createTransfer H s now r id ticket = res at ho h ⊢
    rcases ho with ⟨e⟩ | _
    · exact .refl now s
    · cases h
  · have ho := putChunk_outcome H s now c
    generalize putChunk H s now c = res at ho h ⊢
    rcases ho with ⟨e⟩ | ⟨e, ht, late, hs⟩ | _ | _
    · exact .refl now s
    · exact unobserved_expire ht late hs
    · cases h
    · cases h
  · have ho := completeTransfer_outcome s now r
    generalize completeTransfer s now r = res at ho h ⊢
    rcases ho with ⟨e⟩ | ⟨e, ht, late, hs⟩ | _ | _
    · exact .refl now s
    · exact unobserved_expire ht late hs
    · cases h
    · cases h
  · have ho := cancelTransfer_outcome H s now tid mid secret
    generalize cancelTransfer H s now tid mid secret = res at ho h ⊢
    rcases ho with ⟨e⟩ | _
    · exact .refl now s
    · cases h

/-- A day after the sample upload, with no mailbox registered, each of the six calls fails. -/
theorem failed_calls_unobserved_expired :
    let s := runStore sampleHash sampleUpload
    Unobserved 86400001 s (sendMessage s 86400001 (queueSampleSend [5]) sampleID).1 ∧
    Unobserved 86400001 s (ackMessages sampleHash s 86400001 sampleID [] [[]] ackConsumed).1 ∧
    Unobserved 86400001 s (createTransfer sampleHash s 86400001
      { sampleCreate with mailboxID := sampleID.toList } sampleID (some sampleTicket)).1 ∧
    Unobserved 86400001 s (putChunk sampleHash s 86400001 (sampleChunk 0 [1, 2] [])).1 ∧
    Unobserved 86400001 s (completeTransfer s 86400001 sampleComplete).1 ∧
    Unobserved 86400001 s (cancelTransfer sampleHash s 86400001 (copyArr 16 []) sampleID []).1 := by
  intro s
  have fails := failed_calls_unobserved sampleHash s 86400001
  have noMailbox := fails ⟨.mailboxNotFound, "mailbox not found", 0⟩
  have late := fails ⟨.transferExpired, "transfer expired", 0⟩
  have noTransfer := fails ⟨.transferNotFound, "transfer not found", 0⟩
  exact ⟨noMailbox.1 _ _ rfl, noMailbox.2.1 _ _ _ _ rfl, noMailbox.2.2.1 _ _ _ rfl,
    late.2.2.2.1 _ rfl, late.2.2.2.2.1 _ rfl, noTransfer.2.2.2.2.2 _ _ _ rfl⟩

end FileRelay
