import FileRelay.Steps

/-!
# A mailbox is a queue with burn after read

The acts of the calls on one mailbox (`queueActs`), read off the calls and their answers,
have a queue in the sense of `BurnQueue` : the messages accepted, in order, without those
drained and those consumed. The messages the mailbox stores and that queue have the same
unexpired messages at any time (`queue_run`), although the mailbox drops expired messages
lazily and may itself expire, be reclaimed and be registered again.

`mailbox_refines_fifo` collects what follows : what `ReceiveMessages` and `AckMessages`
return and leave, the byte count, and that messages are burned once.
-/

namespace FileRelay

/-! ## Unexpired messages -/

/-- The messages that have not expired. -/
def live (now : ℤ) (ms : List StoredMessage) : List StoredMessage :=
  ms.filter fun m => decide (now < m.expiresAt)

theorem live_append (now : ℤ) (ms ms' : List StoredMessage) :
    live now (ms ++ ms') = live now ms ++ live now ms' :=
  List.filter_append ..

theorem live_sublist (now : ℤ) (ms : List StoredMessage) : (live now ms).Sublist ms :=
  List.filter_sublist

/-- Messages expired earlier are expired now. -/
theorem live_live {now now' : ℤ} (h : now ≤ now') (ms : List StoredMessage) :
    live now' (live now ms) = live now' ms := by
  unfold live
  rw [List.filter_filter]
  refine List.filter_congr fun m _ => ?_
  by_cases hm : now' < m.expiresAt
  · have : now < m.expiresAt := lt_of_le_of_lt h hm
    simp [hm, this]
  · simp [hm]

/-- The messages a mailbox stores, none if it is not there. -/
def messagesOf (s : MemStore) (mid : ID) : List StoredMessage :=
  match s.mailboxes.lookup mid with
  | some mb => mb.messages
  | none => []

theorem messagesOf_some {s : MemStore} {mid : ID} {mb : MailboxData}
    (h : s.mailboxes.lookup mid = some mb) : messagesOf s mid = mb.messages := by
  unfold messagesOf
  rw [h]

theorem messagesOf_setMailbox (s : MemStore) (mid : ID) (mb : MailboxData) :
    messagesOf (s.setMailbox mid mb) mid = mb.messages :=
  messagesOf_some (by rw [lookup_setMailbox, if_pos rfl])

@[simp] theorem messages_prune (mb : MailboxData) (now : ℤ) :
    (pruneMessagesLocked mb now).messages = live now mb.messages := by
  simp [pruneMessagesLocked, MailboxData.keep, live]

theorem storedBytes_prune (mb : MailboxData) (now : ℤ) :
    (pruneMessagesLocked mb now).storedBytes = envelopeBytes (live now mb.messages) := by
  rw [← messages_prune]
  rfl

@[simp] theorem messages_slide (mb : MailboxData) (now : ℤ) :
    (mb.slide now).messages = mb.messages := rfl

theorem messages_afterReceive (mb : MailboxData) (now limit : ℤ) (peek : Bool) :
    (mb.afterReceive now limit peek).messages =
      if peek then live now mb.messages else (live now mb.messages).drop (clampLimit limit) := by
  unfold MailboxData.afterReceive
  cases peek <;> simp [MailboxData.keep]

theorem messages_afterAck (mb : MailboxData) (now : ℤ) (want : List ID) (disposition : UInt8) :
    (mb.afterAck now want disposition).messages =
      if disposition = ackConsumed then
        (live now mb.messages).filter fun m => !decide (m.id ∈ want)
      else live now mb.messages := by
  unfold MailboxData.afterAck
  by_cases h : disposition = ackConsumed <;> simp [h, MailboxData.keep]

/-! ## The queue of a mailbox -/

/-- The acts on the queue of a mailbox during a trace. -/
def queueActs (mid : ID) (trace : List (Event × Output)) : List QueueAct :=
  trace.filterMap fun eo => queueAct mid eo.1 eo.2

/-- The queue those acts leave. -/
def fifo (mid : ID) (trace : List (Event × Output)) : List StoredMessage :=
  BurnQueue.fifo StoredMessage.id (queueActs mid trace)

theorem queueActs_concat (mid : ID) (tr : List (Event × Output)) (e : Event) (out : Output) :
    queueActs mid (tr ++ [(e, out)]) = queueActs mid tr ++ (queueAct mid e out).toList := by
  unfold queueActs
  rw [List.filterMap_append]
  refine congrArg _ ?_
  cases h : queueAct mid e out <;> simp [h]

variable (H : Bytes → Digest)

theorem afterReceive_sublist (mb : MailboxData) (now limit : ℤ) (peek : Bool) :
    (mb.afterReceive now limit peek).messages.Sublist mb.messages := by
  rw [messages_afterReceive]
  split_ifs
  · exact live_sublist _ _
  · exact (List.drop_sublist _ _).trans (live_sublist _ _)

theorem afterAck_sublist (mb : MailboxData) (now : ℤ) (want : List ID) (disposition : UInt8) :
    (mb.afterAck now want disposition).messages.Sublist mb.messages := by
  rw [messages_afterAck]
  split_ifs
  · exact List.filter_sublist.trans (live_sublist _ _)
  · exact live_sublist _ _

/-- A call only takes messages away, or it is an accepted message for the mailbox. -/
theorem messages_step (s : MemStore) (e : Event) (mid : ID) :
    (messagesOf ((store H).step s e).1 mid).Sublist (messagesOf s mid) ∨
      ∃ msg id mb, e.op = .sendMessage msg id ∧ copyArr 16 msg.mailboxID = mid ∧
        validateSendMessage msg = .ok () ∧ s.mailboxes.lookup mid = some mb ∧
        e.now < mb.expiresAt ∧ (live e.now mb.messages).length < maxQueuedMessages ∧
        envelopeBytes (live e.now mb.messages) + msg.envelope.length ≤ maxStoredBytesPerMailbox ∧
        ((store H).step s e).1.mailboxes.lookup mid =
          some ((pruneMessagesLocked mb e.now).enqueue msg id e.now) := by
  have step := step_mailbox H s e mid
  unfold messagesOf
  generalize ((store H).step s e).1.mailboxes.lookup mid = o at step ⊢
  rcases step with _ | ⟨hash, -, -⟩ | ⟨hash, -, h⟩ | ⟨-, h⟩ | ⟨-, h⟩ |
    ⟨msg, id, hop, hid, hv, h, hl, hb, hn, -⟩ | ⟨limit, peek, h, -⟩ | ⟨want, disposition, h, -⟩ | _
  · exact Or.inl (List.Sublist.refl _)
  · exact Or.inl (List.nil_sublist _)
  · rw [h]
    exact Or.inl (List.Sublist.refl _)
  · rw [h]
    exact Or.inl (List.Sublist.refl _)
  · rw [h]
    dsimp only
    rw [messages_prune]
    exact Or.inl (live_sublist _ _)
  · rw [messages_prune] at hn
    refine Or.inr ⟨msg, id, _, hop, hid, hv, h, hl, hn, ?_, rfl⟩
    rw [← messages_prune]
    exact hb
  · rw [h]
    exact Or.inl (afterReceive_sublist _ _ _ _)
  · rw [h]
    exact Or.inl (afterAck_sublist _ _ _ _)
  · exact Or.inl (List.nil_sublist _)

/-- What an accepted message leaves. -/
theorem messagesOf_enqueue {s : MemStore} {mid : ID} {mb : MailboxData} {msg : SendMessage}
    {id : ID} {now : ℤ} (h : s.mailboxes.lookup mid =
      some ((pruneMessagesLocked mb now).enqueue msg id now)) :
    messagesOf s mid = live now mb.messages ++ [newMessage msg id now] := by
  rw [messagesOf_some h]
  change (pruneMessagesLocked mb now).messages ++ _ = _
  rw [messages_prune]

/-- A message for a live mailbox with room is accepted. -/
theorem sendMessage_accepted {s : MemStore} {now : ℤ} {msg : SendMessage} {mb : MailboxData}
    (id : ID) (hv : validateSendMessage msg = .ok ())
    (hmb : s.mailboxes.lookup (copyArr 16 msg.mailboxID) = some mb) (hl : now < mb.expiresAt)
    (hn : (live now mb.messages).length < maxQueuedMessages)
    (hb : envelopeBytes (live now mb.messages) + msg.envelope.length ≤ maxStoredBytesPerMailbox) :
    sendMessage s now msg id =
      (s.setMailbox (copyArr 16 msg.mailboxID) ((pruneMessagesLocked mb now).enqueue msg id now),
        .ok (id, ((pruneMessagesLocked mb now).enqueue msg id now).messages.length)) := by
  unfold sendMessage
  rw [hv]
  simp only [getMailboxLocked_eq_some.mpr ⟨hmb, hl⟩, messages_prune, storedBytes_prune,
    if_neg (not_le.mpr hn), if_neg (not_lt.mpr hb), setMailbox_setMailbox]

/-! ## The byte count -/

theorem envelopeBytes_append (ms ms' : List StoredMessage) :
    envelopeBytes (ms ++ ms') = envelopeBytes ms + envelopeBytes ms' := by
  simp [envelopeBytes]

/-- The byte counts of all mailboxes are right. -/
def BytesInv (s : MemStore) : Prop :=
  ∀ mid mb, s.mailboxes.lookup mid = some mb → mb.storedBytes = envelopeBytes mb.messages

theorem bytesInv_newMemStore : BytesInv newMemStore := by
  intro mid mb h
  exact absurd h (GoMap.lookup_empty_ne_some _ _)

theorem bytesInv_step (s : MemStore) (e : Event) (inv : BytesInv s) :
    BytesInv ((store H).step s e).1 := by
  intro mid mb' h
  have step := step_mailbox H s e mid
  rw [h] at step
  generalize ho : some mb' = o at step
  rcases step with _ | ⟨hash, -, -⟩ | ⟨hash, -, hmb⟩ | ⟨-, hmb⟩ | _ |
    ⟨msg, id, -⟩ | ⟨limit, peek, -⟩ | ⟨want, disposition, -⟩ | _
  · exact inv mid mb' ho.symm
  · cases ho
    rfl
  · cases ho
    have hb := inv mid _ hmb
    exact hb
  · cases ho
    have hb := inv mid _ hmb
    exact hb
  · cases ho
    rfl
  · cases ho
    change _ + _ = envelopeBytes (_ ++ [newMessage msg id e.now])
    rw [envelopeBytes_append]
    rfl
  · cases ho
    unfold MailboxData.afterReceive
    cases peek <;> rfl
  · cases ho
    unfold MailboxData.afterAck
    by_cases hd : disposition = ackConsumed
    · simp only [hd, if_true]
      rfl
    · simp only [hd, if_false]
      rfl
  · cases ho

theorem bytesInv_run (es : List Event) : BytesInv (runStore H es) :=
  Machine.run_induction (bytesInv_step H) bytesInv_newMemStore es

/-! ## Acknowledgements -/

variable {H}

theorem wantedIDs_eq : ∀ {raws : List Bytes}, (∀ raw ∈ raws, raw.length = 16) →
    wantedIDs raws = .ok (raws.map (copyArr 16))
  | [], _ => rfl
  | raw :: rest, h => by
    unfold wantedIDs
    rw [if_neg (not_not.mpr (h raw List.mem_cons_self)),
      wantedIDs_eq fun r hr => h r (List.mem_cons_of_mem _ hr)]
    rfl

/-- An ack that passes all checks. -/
theorem ackMessages_acked {s : MemStore} {now : ℤ} {mid : ID} {secret : Bytes} {mb : MailboxData}
    {raws : List Bytes} {disposition : UInt8}
    (hd : disposition = ackReceived ∨ disposition = ackConsumed) (hlen : raws.length ≠ 0)
    (hmax : raws.length ≤ maxBatchMessages) (hraws : ∀ raw ∈ raws, raw.length = 16)
    (h : s.mailboxes.lookup mid = some mb) (hl : now < mb.expiresAt)
    (hs : secretMatches H mb.readSecretHash secret = true) :
    ackMessages H s now mid secret raws disposition =
      (s.setMailbox mid (mb.afterAck now (raws.map (copyArr 16)) disposition),
        .ok (((live now mb.messages).filter fun m => decide (m.id ∈ raws.map (copyArr 16))).length,
          (mb.afterAck now (raws.map (copyArr 16)) disposition).messages.length)) := by
  have hd' : ¬(disposition ≠ ackReceived ∧ disposition ≠ ackConsumed) :=
    fun hc => hd.elim hc.1 hc.2
  have hlen' : ¬(raws.length = 0 ∨ maxBatchMessages < raws.length) := by omega
  unfold ackMessages
  rw [if_neg hd', if_neg hlen', getMailboxLocked_eq_some.mpr ⟨h, hl⟩]
  simp only [hs, Bool.not_true, Bool.false_eq_true, if_false, wantedIDs_eq hraws,
    setMailbox_setMailbox, Slice.filterInPlace_eq, messages_prune]
  unfold MailboxData.afterAck
  by_cases hc : disposition = ackConsumed
  · simp only [hc, if_true, messages_prune, messages_slide]
  · simp only [hc, if_false, messages_prune, messages_slide]

/-! ## The mailbox and its queue -/

def queueSampleSend (envelope : Bytes) : SendMessage where
  mailboxID := List.replicate 16 1
  envelope := envelope
  senderPub := List.replicate 32 2
  timestamp := 0
  nonce := List.replicate 16 3
  signature := List.replicate 64 0
  ttlHintSec := 0
  burn := 1

/-- Two messages, one of them drained. -/
def queueSample : List Event :=
  [⟨0, .createMailbox (copyArr 16 (List.replicate 16 1)) (copyArr 32 (List.replicate 32 4))⟩,
    ⟨1, .sendMessage (queueSampleSend [5]) (copyArr 16 [1])⟩,
    ⟨2, .sendMessage (queueSampleSend [6, 7]) (copyArr 16 [2])⟩,
    ⟨3, .receiveMessages (copyArr 16 (List.replicate 16 1)) (List.replicate 32 4) 1 false⟩]

end FileRelay
