import FileRelay.Queue

/-!
# The legacy shard wrapper

`Server` of `server/shard/shard.go` is a thin delegate to a `MemStore` that its callers share
with the HTTP handler. `Receive` hands its `peek` to the store negated : a peek drains and a
drain only peeks. The envelopes it returns are the right ones, so one call looks right, and the
next one does not.

`wrapper_faithful_iff` compares the wrapper with `storeServer`, which passes `peek` on as it is,
along whole runs of mixed calls : they agree exactly while no `Receive` finds a message.
-/

namespace FileRelay

variable (H : Bytes → Digest)

/-! ## The wrapper -/

/-- `Server.Send`. -/
def Server.send (s : MemStore) (now : ℤ) (m : SendMessage) (id : ID) : MemStore × Result ID :=
  let r := sendMessage s now m id
  (r.1, r.2.map Prod.fst)

/-- The envelopes of what `ReceiveMessages` returns. -/
def envelopes (r : MemStore × Result (List StoredMessage × Bool)) :
    MemStore × Result (List Bytes) :=
  (r.1, r.2.map fun out => out.1.map StoredMessage.envelope)

/-- `Server.Receive`. -/
def Server.receive (s : MemStore) (now : ℤ) (mailboxID readSecret : Bytes) (limit : ℤ)
    (peek : Bool) : MemStore × Result (List Bytes) :=
  envelopes (receiveMessages H s now (copyArr 16 mailboxID) readSecret limit !peek)

/-- A call of the wrapper, or of the store behind it. -/
inductive ShardCall
  | send (m : SendMessage) (id : ID)
  | receive (mailboxID readSecret : Bytes) (limit : ℤ) (peek : Bool)
  | direct (op : Op)

inductive ShardAnswer
  | sent (r : Result ID)
  | received (r : Result (List Bytes))
  | direct (out : Output)

/-- The wrapper and its store as a machine. -/
def shardServer : Machine MemStore (ℤ × ShardCall) ShardAnswer where
  step s e :=
    match e.2 with
    | .send m id => ((Server.send s e.1 m id).1, .sent (Server.send s e.1 m id).2)
    | .receive mailboxID readSecret limit peek =>
      let r := Server.receive H s e.1 mailboxID readSecret limit peek
      (r.1, .received r.2)
    | .direct op => ((callStore H s e.1 op).1, .direct (callStore H s e.1 op).2)

/-- What the wrapper is for : each call means the call of the store. -/
def storeServer : Machine MemStore (ℤ × ShardCall) ShardAnswer where
  step s e :=
    match e.2 with
    | .send m id => ((sendMessage s e.1 m id).1, .sent ((sendMessage s e.1 m id).2.map Prod.fst))
    | .receive mailboxID readSecret limit peek =>
      let r := envelopes (receiveMessages H s e.1 (copyArr 16 mailboxID) readSecret limit peek)
      (r.1, .received r.2)
    | .direct op => ((callStore H s e.1 op).1, .direct (callStore H s e.1 op).2)

/-! ## One call -/

/-- A `Receive` with these arguments has nothing to hand over : there is no such mailbox, or the
secret is wrong, or all its messages have expired. -/
def NothingToRead (s : MemStore) (now : ℤ) (mid : ID) (secret : Bytes) : Prop :=
  ∀ mb, s.mailboxes.lookup mid = some mb → now < mb.expiresAt →
    secretMatches H mb.readSecretHash secret = true → live now mb.messages = []

/-- The call means that of the store. A peek removes nothing, and a drain leaves what comes after
the messages it returns. -/
structure Faithful (s : MemStore) (e : ℤ × ShardCall) : Prop where
  same : (shardServer H).step s e = (storeServer H).step s e
  peeked : ∀ mailboxID secret limit, e.2 = .receive mailboxID secret limit true →
    live e.1 (messagesOf ((shardServer H).step s e).1 (copyArr 16 mailboxID)) =
      live e.1 (messagesOf s (copyArr 16 mailboxID))
  drained : ∀ mailboxID secret limit out, e.2 = .receive mailboxID secret limit false →
    ((shardServer H).step s e).2 = .received (.ok out) →
      messagesOf ((shardServer H).step s e).1 (copyArr 16 mailboxID) =
        (live e.1 (messagesOf s (copyArr 16 mailboxID))).drop out.length

/-- Every `Receive` is one that finds nothing. -/
def FindsNothing (s : MemStore) (e : ℤ × ShardCall) : Prop :=
  ∀ mailboxID secret limit peek, e.2 = .receive mailboxID secret limit peek →
    NothingToRead H s e.1 (copyArr 16 mailboxID) secret

variable {H}

section OneCall

variable {s : MemStore} {now : ℤ} {mid : ID} {secret : Bytes}

/-- Whether a `ReceiveMessages` is turned away does not depend on `peek`. -/
theorem receiveMessages_cases (H : Bytes → Digest) (s : MemStore) (now : ℤ) (mid : ID)
    (secret : Bytes) :
    (∃ mb, s.mailboxes.lookup mid = some mb ∧ now < mb.expiresAt ∧
      secretMatches H mb.readSecretHash secret = true) ∨
    ∃ e, ∀ limit peek, receiveMessages H s now mid secret limit peek = (s, .error e) := by
  cases hg : getMailboxLocked s mid now with
  | none =>
    refine .inr ⟨⟨.mailboxNotFound, "mailbox not found", 0⟩, fun limit peek => ?_⟩
    unfold receiveMessages
    rw [hg]
    rfl
  | some mb =>
    obtain ⟨h, hl⟩ := getMailboxLocked_eq_some.mp hg
    by_cases hs : secretMatches H mb.readSecretHash secret = true
    · exact .inl ⟨mb, h, hl, hs⟩
    · refine .inr ⟨⟨.authFailed, "bad read secret", 0⟩, fun limit peek => ?_⟩
      unfold receiveMessages
      rw [hg]
      simp only [hs, Bool.not_false, if_true]
      rfl

/-- A mailbox without messages is left the same by a peek and by a drain. -/
theorem afterReceive_of_empty {mb : MailboxData} (h : live now mb.messages = []) (limit : ℤ)
    (peek : Bool) : mb.afterReceive now limit peek = (mb.keep []).slide now := by
  have hprune : pruneMessagesLocked mb now = mb.keep [] := by
    have hmessages := messages_prune mb now
    rw [h] at hmessages
    change mb.keep _ = _
    rw [show Slice.filterInPlace .zero (fun m => decide (now < m.expiresAt)) mb.messages = []
      from hmessages]
  unfold MailboxData.afterReceive
  rw [hprune]
  cases peek <;> simp [MailboxData.keep]

theorem receiveMessages_of_nothing (h : NothingToRead H s now mid secret) (limit : ℤ)
    (peek peek' : Bool) :
    envelopes (receiveMessages H s now mid secret limit peek) =
      envelopes (receiveMessages H s now mid secret limit peek') := by
  rcases receiveMessages_cases H s now mid secret with ⟨mb, hmb, hl, hs⟩ | ⟨e, he⟩
  · have hempty := h mb hmb hl hs
    rw [receiveMessages_read H limit peek hmb hl hs, receiveMessages_read H limit peek' hmb hl hs,
      afterReceive_of_empty hempty, afterReceive_of_empty hempty, messages_prune, hempty]
    simp [envelopes, Except.map]
  · rw [he, he]

/-- Then a `ReceiveMessages` changes no unexpired message and returns none. -/
theorem messages_of_nothing (h : NothingToRead H s now mid secret) (limit : ℤ) (peek : Bool) :
    live now (messagesOf (receiveMessages H s now mid secret limit peek).1 mid) =
        live now (messagesOf s mid) ∧
      ∀ out, (envelopes (receiveMessages H s now mid secret limit peek)).2 = .ok out →
        out = [] ∧ messagesOf (receiveMessages H s now mid secret limit peek).1 mid = [] ∧
          live now (messagesOf s mid) = [] := by
  rcases receiveMessages_cases H s now mid secret with ⟨mb, hmb, hl, hs⟩ | ⟨e, he⟩
  · have hempty := h mb hmb hl hs
    have hafter : messagesOf (s.setMailbox mid (mb.afterReceive now limit peek)) mid = [] := by
      rw [messagesOf_setMailbox, afterReceive_of_empty hempty]
      rfl
    rw [receiveMessages_read H limit peek hmb hl hs, hafter, messagesOf_some hmb, hempty]
    refine ⟨rfl, fun out hout => ⟨?_, rfl, rfl⟩⟩
    rw [messages_prune, hempty] at hout
    simpa [envelopes, Except.map] using hout.symm
  · rw [he]
    exact ⟨rfl, nofun⟩

theorem clampLimit_pos (limit : ℤ) : 0 < clampLimit limit := by
  unfold clampLimit maxBatchMessages
  split_ifs <;> omega

/-- If a peek and a drain leave the same store, there was nothing to read. -/
theorem nothing_of_same (limit : ℤ) (peek : Bool)
    (h : (receiveMessages H s now mid secret limit (!peek)).1 =
      (receiveMessages H s now mid secret limit peek).1) : NothingToRead H s now mid secret := by
  intro mb hmb hl hs
  rw [receiveMessages_read H limit _ hmb hl hs, receiveMessages_read H limit _ hmb hl hs] at h
  have hmessages := congrArg (fun s => messagesOf s mid) h
  dsimp only at hmessages
  rw [messagesOf_setMailbox, messagesOf_setMailbox, messages_afterReceive,
    messages_afterReceive] at hmessages
  have hdrop : (live now mb.messages).drop (clampLimit limit) = live now mb.messages := by
    cases peek with
    | false => exact hmessages.symm
    | true => exact hmessages
  have hlen := congrArg List.length hdrop
  rw [List.length_drop] at hlen
  have hpos := clampLimit_pos limit
  exact List.eq_nil_of_length_eq_zero (by omega)

/-- A call is faithful exactly if it is not a `Receive` that finds a message. -/
theorem faithful_iff (s : MemStore) (e : ℤ × ShardCall) :
    Faithful H s e ↔ FindsNothing H s e := by
  obtain ⟨now, call⟩ := e
  cases call with
  | send m id => exact ⟨nofun, fun _ => ⟨rfl, nofun, nofun⟩⟩
  | direct op => exact ⟨nofun, fun _ => ⟨rfl, nofun, nofun⟩⟩
  | receive mailboxID secret limit peek =>
    constructor
    · rintro ⟨hsame, -, -⟩ _ _ _ _ hcall
      cases hcall
      have hstore : ((shardServer H).step s (now, .receive mailboxID secret limit peek)).1 =
          ((storeServer H).step s (now, .receive mailboxID secret limit peek)).1 := by rw [hsame]
      exact nothing_of_same limit peek hstore
    · intro hnothing
      have hread := hnothing mailboxID secret limit peek rfl
      have hsame : (shardServer H).step s (now, .receive mailboxID secret limit peek) =
          (storeServer H).step s (now, .receive mailboxID secret limit peek) := by
        change (Prod.fst (envelopes _), ShardAnswer.received (Prod.snd (envelopes _))) =
          (Prod.fst (envelopes _), ShardAnswer.received (Prod.snd (envelopes _)))
        rw [receiveMessages_of_nothing hread limit (!peek) peek]
      obtain ⟨hkept, hempty⟩ := messages_of_nothing hread limit !peek
      refine ⟨hsame, fun _ _ _ hcall => ?_, fun _ _ _ out hcall hout => ?_⟩
      · cases hcall
        exact hkept
      · cases hcall
        obtain ⟨rfl, hafter, hbefore⟩ := hempty out (ShardAnswer.received.inj hout)
        change messagesOf (receiveMessages H s now _ secret limit !false).1 _ =
          (live now (messagesOf s _)).drop 0
        rw [hafter, hbefore]
        rfl

end OneCall

/-! ## Whole runs -/

/-- The wrapper means the store along a run exactly if no `Receive` of the run finds a message.
Then it is the store. -/
theorem wrapper_faithful_iff (H : Bytes → Digest) (s : MemStore) (es : List (ℤ × ShardCall)) :
    ((shardServer H).Along (Faithful H) s es ↔ (shardServer H).Along (FindsNothing H) s es) ∧
      ((shardServer H).Along (FindsNothing H) s es →
        (shardServer H).run s es = (storeServer H).run s es ∧
          (shardServer H).trace s es = (storeServer H).trace s es) := by
  have hnothing : (shardServer H).Along (FindsNothing H) s es →
      (shardServer H).Along (Faithful H) s es :=
    Machine.along_mono fun s e => (faithful_iff s e).mpr
  refine ⟨⟨Machine.along_mono fun s e => (faithful_iff s e).mp, hnothing⟩, fun h => ?_⟩
  exact Machine.run_eq_of_along (Machine.along_mono (fun _ _ hf => hf.same) (hnothing h))

/-! ### A mailbox read twice -/

def legacyID : Bytes := List.replicate 16 1

def legacySecret : Bytes := List.replicate 32 4

/-- A mailbox is registered, with no message or with one. -/
def legacySetup (sends : List (ℤ × ShardCall)) : List (ℤ × ShardCall) :=
  (0, .direct (.createMailbox (copyArr 16 legacyID) (copyArr 32 legacySecret))) :: sends

/-- A peek at an empty mailbox is faithful. -/
theorem empty_mailbox_faithful :
    (shardServer (copyArr 32)).Along (Faithful (copyArr 32)) newMemStore
      (legacySetup [(2, .receive legacyID legacySecret 0 true)]) := by
  refine (wrapper_faithful_iff (copyArr 32) newMemStore _).1.mpr ⟨nofun, ?_, trivial⟩
  intro mailboxID secret limit peek hcall mb hmb _ _
  cases hcall
  have hmessages : ((createMailbox newMemStore 0 (copyArr 16 legacyID)
      (copyArr 32 legacySecret)).1.mailboxes.lookup (copyArr 16 legacyID)).map
        (fun mb => mb.messages) = some [] := rfl
  have hnone : some mb.messages = some [] := hmessages ▸ congrArg (Option.map _) hmb.symm
  rw [Option.some.inj hnone]
  rfl

/-- Two peeks, then : the first one has drained the message. Two drains : the second one gets
the message again. -/
theorem peek_drains :
    ((shardServer (copyArr 32)).trace newMemStore (legacySetup
      [(1, .send (queueSampleSend [5]) (copyArr 16 [1])),
        (2, .receive legacyID legacySecret 0 true),
        (3, .receive legacyID legacySecret 0 true)])).map Prod.snd =
      [.direct (.answer true), .sent (.ok (copyArr 16 [1])), .received (.ok [[5]]),
        .received (.ok [])] ∧
    ((storeServer (copyArr 32)).trace newMemStore (legacySetup
      [(1, .send (queueSampleSend [5]) (copyArr 16 [1])),
        (2, .receive legacyID legacySecret 0 true),
        (3, .receive legacyID legacySecret 0 true)])).map Prod.snd =
      [.direct (.answer true), .sent (.ok (copyArr 16 [1])), .received (.ok [[5]]),
        .received (.ok [[5]])] ∧
    ((shardServer (copyArr 32)).trace newMemStore (legacySetup
      [(1, .send (queueSampleSend [5]) (copyArr 16 [1])),
        (2, .receive legacyID legacySecret 0 false),
        (3, .receive legacyID legacySecret 0 false)])).map Prod.snd =
      [.direct (.answer true), .sent (.ok (copyArr 16 [1])), .received (.ok [[5]]),
        .received (.ok [[5]])] :=
  ⟨rfl, rfl, rfl⟩

end FileRelay
