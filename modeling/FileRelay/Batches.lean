import FileRelay.Prefixed
import FileRelay.Queue
import FileRelay.ShardHandlers

/-!
# Drained batches are delivered

`ReceiveMessages` drains a batch before its response is encoded, so a batch the encoder or the
decoder refused would be lost. A batch is `Deliverable` if it has at most 32 messages, each with
an id of 16 bytes and an envelope of 1 to 32768 bytes. The encoder accepts exactly these batches
(`batchLoop_eq_ok`), the decoder returns exactly these (`split_eq_ok`), and every batch of a
reachable store is one (`deliverable_run`).

`drained_batches_delivered` puts this together, through `handleReceive`.
-/

namespace FileRelay

open NanoPack (Field Codec layout)

/-! ## Batches that fit -/

/-- A message the response can carry. -/
def ReceivedMessage.Sized (m : ReceivedMessage) : Prop :=
  m.msgID.length = 16 ∧ 1 ≤ m.envelope.length ∧ m.envelope.length ≤ maxMessageBytes

/-- A batch the response can carry. -/
structure Deliverable (msgs : List ReceivedMessage) : Prop where
  count : msgs.length ≤ maxBatchMessages
  sized : ∀ m ∈ msgs, m.Sized

/-- The ids one after the other. -/
def batchIDs (msgs : List ReceivedMessage) : Bytes :=
  msgs.flatMap ReceivedMessage.msgID

/-- The envelopes one after the other, each behind its length. -/
def batchPayloads (msgs : List ReceivedMessage) : Bytes :=
  Prefixed.encode 4 (msgs.map ReceivedMessage.envelope)

theorem batchIDs_cons (m : ReceivedMessage) (ms : List ReceivedMessage) :
    batchIDs (m :: ms) = m.msgID ++ batchIDs ms := rfl

theorem batchPayloads_cons (m : ReceivedMessage) (ms : List ReceivedMessage) :
    batchPayloads (m :: ms) = Prefixed.entry 4 m.envelope ++ batchPayloads ms := rfl

theorem length_batchIDs : ∀ {msgs : List ReceivedMessage}, (∀ m ∈ msgs, m.Sized) →
    (batchIDs msgs).length = 16 * msgs.length
  | [], _ => rfl
  | m :: ms, h => by
    rw [batchIDs_cons, List.length_append, (h m List.mem_cons_self).1,
      length_batchIDs fun m' hm' => h m' (List.mem_cons_of_mem m hm'), List.length_cons]
    omega

theorem length_batchPayloads_le : ∀ {msgs : List ReceivedMessage}, (∀ m ∈ msgs, m.Sized) →
    (batchPayloads msgs).length ≤ (4 + maxMessageBytes) * msgs.length
  | [], _ => le_refl _
  | m :: ms, h => by
    have hm := (h m List.mem_cons_self).2.2
    have hms := length_batchPayloads_le fun m' hm' => h m' (List.mem_cons_of_mem m hm')
    rw [batchPayloads_cons, List.length_append, Prefixed.length_entry, List.length_cons,
      Nat.mul_add, Nat.mul_one]
    omega

/-! ## The encoder -/

theorem putU32_ofNat {n : ℕ} (h : n < 2 ^ 32) : putU32 (UInt32.ofNat n) = beBytes 4 n := by
  unfold putU32
  rw [UInt32.toNat_ofNat_of_lt' h]

/-- The encoder takes the messages that fit and no others. -/
theorem batchLoop_eq_ok : ∀ (msgs : List ReceivedMessage) (r : Bytes × Bytes),
    batchLoop msgs = .ok r ↔ (∀ m ∈ msgs, m.Sized) ∧ r = (batchIDs msgs, batchPayloads msgs)
  | [], r => by
    constructor
    · intro h
      cases h
      exact ⟨nofun, rfl⟩
    · rintro ⟨-, rfl⟩
      rfl
  | m :: ms, r => by
    rw [batchLoop]
    constructor
    · intro h
      obtain ⟨_, hid, h⟩ := wire_bind_eq_ok.mp h
      obtain ⟨_, henv, h⟩ := wire_bind_eq_ok.mp h
      obtain ⟨r', hr', h⟩ := wire_bind_eq_ok.mp h
      cases h
      obtain ⟨hms, rfl⟩ := (batchLoop_eq_ok ms r').mp hr'
      have hid := not_not.mp (rejectIf_eq_ok.mp hid)
      have henv := rejectIf_eq_ok.mp henv
      have hmax : m.envelope.length ≤ 32768 := not_lt.mp fun hc => henv (Or.inr hc)
      refine ⟨fun m' hm' => ?_, ?_⟩
      · rcases List.mem_cons.mp hm' with rfl | hm'
        · exact ⟨hid, by omega, hmax⟩
        · exact hms m' hm'
      · rw [putU32_ofNat (by omega)]
        rfl
    · rintro ⟨h, rfl⟩
      obtain ⟨hid, hpos, hmax⟩ := h m List.mem_cons_self
      have hrest := (batchLoop_eq_ok ms _).mpr
        ⟨fun m' hm' => h m' (List.mem_cons_of_mem m hm'), rfl⟩
      have hlt : m.envelope.length < 2 ^ 32 := lt_of_le_of_lt hmax (by decide)
      rw [rejectIf_neg (not_not.mpr hid), ok_bind, rejectIf_neg (by omega), ok_bind, hrest, ok_bind,
        putU32_ofNat hlt]
      rfl

/-- The fields the encoder writes. -/
def batchFields (msgs : List ReceivedMessage) (consumed : Bool) : List Field :=
  [⟨1, putU32 (UInt32.ofNat msgs.length)⟩, ⟨2, batchIDs msgs⟩, ⟨3, batchPayloads msgs⟩,
    ⟨4, [if consumed then 1 else 0]⟩]

theorem marshalReceiveMessagesResponse_eq {np : Codec} (hnp : np.Lawful)
    {msgs : List ReceivedMessage} (h : Deliverable msgs) (consumed : Bool) :
    marshalReceiveMessagesResponse np msgs consumed = .ok (layout (batchFields msgs consumed)) := by
  unfold marshalReceiveMessagesResponse
  rw [rejectIf_neg (not_lt.mpr h.count), ok_bind, (batchLoop_eq_ok msgs _).mpr ⟨h.sized, rfl⟩,
    ok_bind]
  exact encodeFields_eq hnp (by simp)

/-- The largest batch leaves 3443 bytes of what the decoder accepts. -/
theorem length_batchFields_le {msgs : List ReceivedMessage} (h : Deliverable msgs)
    (consumed : Bool) : (layout (batchFields msgs consumed)).length ≤
      maxBatchMessages * maxMessageBytes + 4096 := by
  have hids := length_batchIDs h.sized
  have hpay := length_batchPayloads_le h.sized
  have hcount := h.count
  unfold maxMessageBytes at *
  unfold maxBatchMessages at *
  refine NanoPack.length_layout_le (by decide) ?_
  simp only [batchFields, List.map_cons, List.map_nil, List.sum_cons, List.sum_nil, length_putU32,
    List.length_singleton]
  omega

/-! ## The decoder -/

/-- One round of the loop takes one entry off the payloads. -/
theorem payloadLoop_succ_eq_ok {ids payloads : Bytes} {k i pos : ℕ}
    {r : List ReceivedMessage × ℕ} : payloadLoop ids payloads (k + 1) i pos = .ok r ↔
      ∃ e rest r', Prefixed.cut 4 (payloads.drop pos) = some (e, rest) ∧
        (1 ≤ e.length ∧ e.length ≤ maxMessageBytes) ∧
        payloadLoop ids payloads k (i + 1) (pos + 4 + e.length) = .ok r' ∧
        r = (⟨(ids.drop (i * 16)).take 16, e⟩ :: r'.1, r'.2) := by
  have hlen : (payloads.drop pos).length = payloads.length - pos := List.length_drop
  rw [payloadLoop, Prefixed.cut, hlen, List.drop_drop, List.drop_drop]
  generalize hn : beNat ((payloads.drop pos).take 4) = n
  have htake : ((payloads.drop (pos + 4)).take n).length = min n (payloads.length - (pos + 4)) := by
    rw [List.length_take, List.length_drop]
  dsimp only
  by_cases hshort : payloads.length < pos + 4
  · rw [if_pos hshort, if_pos (by omega)]
    constructor
    · intro h
      cases h
    · rintro ⟨_, _, _, hc, -⟩
      cases hc
  · rw [if_neg hshort, if_neg (show ¬payloads.length - pos < 4 by omega)]
    by_cases hbad : n = 0 ∨ maxMessageBytes < n ∨ payloads.length < pos + 4 + n
    · rw [if_pos hbad]
      constructor
      · intro h
        cases h
      · rintro ⟨e, rest, r', hc, he, -⟩
        split_ifs at hc with hfit
        cases hc
        omega
    · have hlen' : ((payloads.drop (pos + 4)).take n).length = n := by omega
      rw [if_neg hbad, if_neg (show ¬payloads.length - pos < 4 + n by omega), wire_map_eq_ok]
      constructor
      · rintro ⟨r', hr', rfl⟩
        exact ⟨_, _, r', rfl, by omega, by rwa [hlen'], rfl⟩
      · rintro ⟨e, rest, r', hc, -, hr', rfl⟩
        cases hc
        exact ⟨r', by rwa [hlen'] at hr', rfl⟩

/-- The loop reads back what the encoder wrote. -/
theorem payloadLoop_encode (ids payloads : Bytes) : ∀ (i pos : ℕ) {msgs : List ReceivedMessage},
    (∀ m ∈ msgs, m.Sized) → ids.drop (i * 16) = batchIDs msgs →
    payloads.drop pos = batchPayloads msgs →
    payloadLoop ids payloads msgs.length i pos = .ok (msgs, pos + (batchPayloads msgs).length)
  | i, pos, [], _, _, _ => rfl
  | i, pos, m :: ms, h, hids, hpay => by
    obtain ⟨hid, hpos, hmax⟩ := h m List.mem_cons_self
    rw [batchIDs_cons] at hids
    rw [batchPayloads_cons] at hpay
    have hlt : m.envelope.length < 256 ^ 4 := lt_of_le_of_lt hmax (by decide)
    have hids' : ids.drop ((i + 1) * 16) = batchIDs ms := by
      rw [Nat.succ_mul, ← List.drop_drop, hids, List.drop_left' hid]
    have hpay' : payloads.drop (pos + 4 + m.envelope.length) = batchPayloads ms := by
      rw [Nat.add_assoc, ← List.drop_drop, hpay, List.drop_left' (Prefixed.length_entry 4 _)]
    refine payloadLoop_succ_eq_ok.mpr ⟨m.envelope, batchPayloads ms, _,
      Prefixed.cut_eq_some.mpr ⟨hlt, hpay⟩, ⟨hpos, hmax⟩,
      payloadLoop_encode ids payloads _ _ (fun m' hm' => h m' (List.mem_cons_of_mem m hm')) hids'
        hpay', ?_⟩
    rw [hids, List.take_left' hid, batchPayloads_cons, List.length_append, Prefixed.length_entry]
    simp only [Prod.mk.injEq, true_and]
    omega

/-- What the loop reads to the end of both fields is what the encoder writes there. -/
theorem payloadLoop_decode (ids payloads : Bytes) : ∀ {k i pos : ℕ}
    {r : List ReceivedMessage × ℕ}, payloadLoop ids payloads k i pos = .ok r →
    (ids.drop (i * 16)).length = 16 * k → r.2 = payloads.length →
    r.1.length = k ∧ (∀ m ∈ r.1, m.Sized) ∧ ids.drop (i * 16) = batchIDs r.1 ∧
      payloads.drop pos = batchPayloads r.1
  | 0, i, pos, r, h, hids, hend => by
    cases h
    exact ⟨rfl, nofun, List.eq_nil_of_length_eq_zero hids, List.drop_eq_nil_of_le hend.ge⟩
  | k + 1, i, pos, r, h, hids, hend => by
    obtain ⟨e, rest, r', hcut, he, hr', rfl⟩ := payloadLoop_succ_eq_ok.mp h
    obtain ⟨-, hpay⟩ := Prefixed.cut_eq_some.mp hcut
    have hdrop : ids.drop ((i + 1) * 16) = (ids.drop (i * 16)).drop 16 := by
      rw [List.drop_drop, Nat.succ_mul]
    have hids' : (ids.drop ((i + 1) * 16)).length = 16 * k := by
      rw [hdrop, List.length_drop, hids]
      omega
    have hhead : ((ids.drop (i * 16)).take 16).length = 16 := by
      rw [List.length_take, hids]
      omega
    obtain ⟨hlen, hsized, hidr, hpayr⟩ := payloadLoop_decode ids payloads hr' hids' hend
    refine ⟨congrArg (· + 1) hlen, fun m hm => ?_, ?_, ?_⟩
    · rcases List.mem_cons.mp hm with rfl | hm
      · exact ⟨hhead, he⟩
      · exact hsized m hm
    · rw [batchIDs_cons, ← hidr, hdrop, List.take_append_drop]
    · have hrest : payloads.drop (pos + 4 + e.length) = rest := by
        rw [Nat.add_assoc, ← List.drop_drop, hpay, List.drop_left' (Prefixed.length_entry 4 e)]
      rw [batchPayloads_cons, ← hpayr, hrest, hpay]

/-- The count names the length of the ids, which are too short for the product to wrap. -/
theorem ids_length_iff {n : ℕ} {count : UInt32} (hn : n < 2 ^ 32)
    (hcount : count.toNat ≤ maxBatchMessages) :
    UInt32.ofNat n = count * 16 ↔ n = 16 * count.toNat := by
  have hmul : (count * 16).toNat = 16 * count.toNat := by
    unfold maxBatchMessages at hcount
    rw [UInt32.toNat_mul]
    change count.toNat * 16 % 2 ^ 32 = _
    omega
  rw [← UInt32.toNat_inj, hmul, UInt32.toNat_ofNat_of_lt' hn]

/-- The fields split into the batches that fit, and only as the encoder writes them. -/
theorem split_eq_ok {b : BatchFields} {msgs : List ReceivedMessage} (hb : b.ids.length < 2 ^ 32) :
    b.split = .ok msgs ↔ Deliverable msgs ∧ b.count.toNat = msgs.length ∧
      b.ids = batchIDs msgs ∧ b.payloads = batchPayloads msgs := by
  unfold BatchFields.split
  constructor
  · intro h
    obtain ⟨_, hcount, h⟩ := wire_bind_eq_ok.mp h
    obtain ⟨_, hids, h⟩ := wire_bind_eq_ok.mp h
    obtain ⟨r, hr, h⟩ := wire_bind_eq_ok.mp h
    obtain ⟨_, hend, h⟩ := wire_bind_eq_ok.mp h
    cases h
    have hcount := not_lt.mp (rejectIf_eq_ok.mp hcount)
    have hids := (ids_length_iff hb hcount).mp (not_not.mp (rejectIf_eq_ok.mp hids))
    have hend := not_not.mp (rejectIf_eq_ok.mp hend)
    obtain ⟨hlen, hsized, hidr, hpayr⟩ := payloadLoop_decode b.ids b.payloads hr hids hend
    exact ⟨⟨hlen ▸ hcount, hsized⟩, hlen.symm, hidr, hpayr⟩
  · rintro ⟨hmsgs, hcount, hids, hpay⟩
    have hmax := hcount ▸ hmsgs.count
    have hlen : b.ids.length = 16 * b.count.toNat := by
      rw [hids, length_batchIDs hmsgs.sized, hcount]
    have hloop := payloadLoop_encode b.ids b.payloads 0 0 hmsgs.sized
      (by rw [Nat.zero_mul, List.drop_zero, hids]) (by rw [List.drop_zero, hpay])
    rw [rejectIf_neg (not_lt.mpr hmax), ok_bind,
      rejectIf_neg (not_not.mpr ((ids_length_iff hb hmax).mpr hlen)), ok_bind, hcount, hloop,
      ok_bind, rejectIf_neg (not_not.mpr (by rw [hpay, Nat.zero_add])), ok_bind]
    rfl

theorem unmarshal_batchFields {np : Codec} (hnp : np.Lawful) {msgs : List ReceivedMessage}
    (h : Deliverable msgs) (consumed : Bool) :
    unmarshalReceiveMessagesResponse np (layout (batchFields msgs consumed)) =
      .ok ⟨msgs, consumed⟩ := by
  let b : BatchFields :=
    ⟨UInt32.ofNat msgs.length, batchIDs msgs, batchPayloads msgs, consumed⟩
  have hcount : b.count.toNat = msgs.length :=
    UInt32.toNat_ofNat_of_lt' (lt_of_le_of_lt h.count (by decide))
  have hids : b.ids.length < 2 ^ 32 := by
    have := h.count
    unfold maxBatchMessages at this
    change (batchIDs msgs).length < _
    rw [length_batchIDs h.sized]
    omega
  have hset : (batchFields msgs consumed).foldlM BatchFields.set ⟨0, [], [], false⟩ = .ok b := by
    simp only [batchFields, List.foldlM_cons, List.foldlM_nil, BatchFields.set, fieldU32_putU32]
    cases consumed <;> rfl
  unfold unmarshalReceiveMessagesResponse
  rw [unmarshal_layout hnp (by simp [batchFields]) hset rfl,
    checkBodyLen_map_eq_ok.mpr ⟨length_batchFields_le h consumed, rfl⟩, ok_bind,
    (split_eq_ok hids).mpr ⟨h, hcount, rfl, rfl⟩, ok_bind]
  rfl

/-- The ids are no longer than the body they came in. -/
theorem length_ids_le {np : Codec} (hnp : np.Slices) {body : Bytes} {fs : List Field}
    {b : BatchFields} (hfs : decodeFields np body = .ok fs)
    (hb : fs.foldlM BatchFields.set ⟨0, [], [], false⟩ = .ok b) :
    b.ids.length ≤ body.length := by
  have hdec : np.decodeID body = .ok fs := by
    unfold decodeFields at hfs
    cases h : np.decodeID body with
    | error e => rw [h] at hfs; cases hfs
    | ok gs => rw [h] at hfs; cases hfs; rfl
  refine foldlM_ok_induction (P := fun b : BatchFields => b.ids.length ≤ body.length) fs ?_
    (Nat.zero_le _) hb
  intro f hf out out' hout hset
  unfold BatchFields.set at hset
  split_ifs at hset with h₁ h₂ h₃ h₄
  · obtain ⟨v, -, rfl⟩ := wire_map_eq_ok.mp hset
    exact hout
  · cases hset
    exact hnp body fs hdec f hf
  · cases hset
    exact hout
  · obtain ⟨v, -, rfl⟩ := wire_map_eq_ok.mp hset
    exact hout
  · cases hset
    exact hout

/-! ## Batches of a reachable store -/

/-- All stored envelopes have the sizes `ValidateSendMessage` allows. -/
def EnvelopesSized (s : MemStore) : Prop :=
  ∀ mid, ∀ m ∈ messagesOf s mid, 1 ≤ m.envelope.length ∧ m.envelope.length ≤ maxMessageBytes

variable (H : Bytes → Digest)

theorem envelopesSized_step (s : MemStore) (e : Event) (inv : EnvelopesSized s) :
    EnvelopesSized ((store H).step s e).1 := by
  intro mid m hm
  rcases messages_step H s e mid with hsub | ⟨msg, id, mb, -, -, hv, hmb, -, -, -, hnew⟩
  · exact inv mid m (hsub.subset hm)
  · rw [messagesOf_enqueue hnew] at hm
    rcases List.mem_append.mp hm with hm | hm
    · refine inv mid m ?_
      rw [messagesOf_some hmb]
      exact (live_sublist e.now mb.messages).subset hm
    · cases List.mem_singleton.mp hm
      obtain ⟨hne, hmax⟩ := (validateSendMessage_eq_ok.mp hv).2.1
      exact ⟨Nat.one_le_iff_ne_zero.mpr hne, hmax⟩

theorem envelopesSized_run (es : List Event) : EnvelopesSized (runStore H es) := by
  refine Machine.run_induction (envelopesSized_step H) (fun mid m hm => ?_) es
  have hnone : newMemStore.mailboxes.lookup mid = none := Finmap.lookup_empty mid
  unfold messagesOf at hm
  rw [hnone] at hm
  exact absurd hm List.not_mem_nil

theorem clampLimit_le (limit : ℤ) : clampLimit limit ≤ maxBatchMessages := by
  unfold clampLimit
  split_ifs with h
  · exact le_refl _
  · omega

/-- What `ReceiveMessages` returns can be delivered. -/
theorem deliverable_run (es : List Event) {now : ℤ} {mid : ID} {secret : Bytes} {limit : ℤ}
    {peek : Bool} {s' : MemStore} {batch : List StoredMessage} {consumed : Bool}
    (h : receiveMessages H (runStore H es) now mid secret limit peek =
      (s', .ok (batch, consumed))) : Deliverable (batch.map StoredMessage.received) := by
  have hout := receiveMessages_outcome H (runStore H es) now mid secret limit peek
  rw [h] at hout
  cases hout with
  | read hmb =>
    rename_i mb _ _
    constructor
    · rw [List.length_map, List.length_take]
      exact (Nat.min_le_left _ _).trans (clampLimit_le limit)
    · intro m hm
      obtain ⟨m₀, hm₀, rfl⟩ := List.mem_map.mp hm
      rw [messages_prune] at hm₀
      have hstored := (live_sublist now mb.messages).subset (List.mem_of_mem_take hm₀)
      rw [← messagesOf_some hmb] at hstored
      exact ⟨m₀.id.toList_length, envelopesSized_run H es mid m₀ hstored⟩

/-! ## The handler -/

variable (np : Codec) (limits : RateLimits)

/-- What `handleReceive` does to the store : nothing if it answers an error, and else one call
of `ReceiveMessages` whose batch the answer carries. -/
theorem handleReceive_outcome (hnp : np.Lawful) (es : List Event) (limiter : Buckets)
    (now storeNow : ℤ) (ip raw : Bytes) :
    let r := handleReceive np H limits ⟨runStore H es, limiter⟩ now storeNow ip raw
    (∃ e, r.2 = .error e ∧ r.1.store = runStore H es) ∨
      ∃ mid secret limit peek batch consumed body,
        receiveMessages H (runStore H es) storeNow mid secret limit peek =
          (r.1.store, .ok (batch, consumed)) ∧ r.2 = .ok body ∧
        unmarshalReceiveMessagesResponse np body =
          .ok ⟨batch.map StoredMessage.received, consumed⟩ := by
  intro r
  have hr : r = handleReceive np H limits ⟨runStore H es, limiter⟩ now storeNow ip raw := rfl
  clear_value r
  unfold handleReceive at hr
  split at hr
  · exact Or.inl ⟨_, by rw [hr], by rw [hr]⟩
  split at hr
  · exact Or.inl ⟨_, by rw [hr], by rw [hr]⟩
  rename_i req hreq
  split at hr
  · exact Or.inl ⟨_, by rw [hr], by rw [hr]⟩
  dsimp only at hr
  generalize (if (req.limit.toNat : ℤ) ≤ 0 then (maxBatchMessages : ℤ) else req.limit.toNat) =
    limit at hr
  split at hr
  · rename_i s' e hrecv
    refine Or.inl ⟨_, by rw [hr], ?_⟩
    have hout := receiveMessages_outcome H (runStore H es) storeNow (copyArr 16 req.mailboxID)
      req.readSecret limit (req.peek == 1)
    rw [hrecv] at hout
    cases hout
    rw [hr]
  · rename_i s' batch consumed hrecv
    have hbatch := deliverable_run H es hrecv
    rw [marshalReceiveMessagesResponse_eq hnp hbatch] at hr
    refine Or.inr ⟨copyArr 16 req.mailboxID, req.readSecret, limit, req.peek == 1, batch, consumed,
      _, ?_, by rw [hr], unmarshal_batchFields hnp hbatch _⟩
    rw [hr]
    exact hrecv

/-- What holds of the batches of a shard. `delivered` : what fits is encoded within the bound of
the decoder and comes back. `drained` : what the store hands out fits. `handled` : the handler
has left the store alone if it answers an error, and else its answer carries the batch.
`canonical` : a batch that is accepted fits, and the encoder writes the fields it was read from. -/
structure BatchDelivery : Prop where
  delivered : ∀ msgs consumed, Deliverable msgs →
    ∃ body, marshalReceiveMessagesResponse np msgs consumed = .ok body ∧
      body.length ≤ maxBatchMessages * maxMessageBytes + 4096 ∧
      unmarshalReceiveMessagesResponse np body = .ok ⟨msgs, consumed⟩
  drained : ∀ es now mid secret limit peek s' batch consumed,
    receiveMessages H (runStore H es) now mid secret limit peek = (s', .ok (batch, consumed)) →
      Deliverable (batch.map StoredMessage.received)
  handled : ∀ es limiter now storeNow ip raw,
    let r := handleReceive np H limits ⟨runStore H es, limiter⟩ now storeNow ip raw
    (∃ e, r.2 = .error e ∧ r.1.store = runStore H es) ∨
      ∃ mid secret limit peek batch consumed body,
        receiveMessages H (runStore H es) storeNow mid secret limit peek =
          (r.1.store, .ok (batch, consumed)) ∧ r.2 = .ok body ∧
        unmarshalReceiveMessagesResponse np body =
          .ok ⟨batch.map StoredMessage.received, consumed⟩
  canonical : ∀ body res, unmarshalReceiveMessagesResponse np body = .ok res →
    Deliverable res.messages ∧ ∃ fs b, decodeFields np body = .ok fs ∧
      fs.foldlM BatchFields.set ⟨0, [], [], false⟩ = .ok b ∧ res.consumed = b.consumed ∧
      b.count = UInt32.ofNat res.messages.length ∧
      batchLoop res.messages = .ok (b.ids, b.payloads)

/-- No batch is drained and then lost on its way through the encoder and the decoder. -/
theorem drained_batches_delivered (hnp : np.Lawful) (hsl : np.Slices) :
    BatchDelivery H np limits where
  delivered msgs consumed h := ⟨_, marshalReceiveMessagesResponse_eq hnp h consumed,
    length_batchFields_le h consumed, unmarshal_batchFields hnp h consumed⟩
  drained es _ _ _ _ _ _ _ _ h := deliverable_run H es h
  handled es limiter now storeNow ip raw :=
    handleReceive_outcome H np limits hnp es limiter now storeNow ip raw
  canonical body res h := by
    obtain ⟨b, hb, h⟩ := wire_bind_eq_ok.mp h
    obtain ⟨msgs, hsplit, h⟩ := wire_bind_eq_ok.mp h
    cases h
    obtain ⟨hbody, fs, hfs, hset, -⟩ := unmarshal_eq_ok hb
    have hids : b.ids.length < 2 ^ 32 :=
      lt_of_le_of_lt ((length_ids_le hsl hfs hset).trans hbody) (by decide)
    obtain ⟨hmsgs, hcount, hidr, hpay⟩ := (split_eq_ok hids).mp hsplit
    refine ⟨hmsgs, fs, b, hfs, hset, rfl, ?_, ?_⟩
    · rw [← hcount, UInt32.ofNat_toNat]
    · rw [hidr, hpay]
      exact (batchLoop_eq_ok msgs _).mpr ⟨hmsgs.sized, rfl⟩

theorem drained_batches_delivered_reference :
    NanoPack.reference.Lawful ∧ NanoPack.reference.Slices ∧
      BatchDelivery (copyArr 32) NanoPack.reference ⟨0, 0, 0, 0⟩ ∧
      (receiveMessages (copyArr 32) (runStore (copyArr 32) (queueSample.take 3)) 3
        (copyArr 16 (List.replicate 16 1)) (List.replicate 32 4) 1 false).2.toOption.map
          (fun r => r.1.map StoredMessage.received) = some [⟨1 :: List.replicate 15 0, [5]⟩] :=
  ⟨NanoPack.reference_lawful, NanoPack.reference_slices,
    drained_batches_delivered _ _ _ NanoPack.reference_lawful NanoPack.reference_slices,
    by decide +kernel⟩

end FileRelay
