import FileRelay.Provenance
import FileRelay.Reports

/-!
# Messages on their way

A mailbox hands out its messages in the order in which it accepted them, and each at most once. For
the store this needs no assumption about clocks or ids : what has been drained, followed by what is
stored, is a sublist of what was accepted (`handed_run`).

In the relay a message is accepted for a request that is told the id of the message, and drained for
a request that is told the message. `mail_in_order` says that these are all : the batches in the
bodies of the responses to the readers, put one after the other, are a sublist of the envelopes of
the senders that were told of success. What is missing has expired, was acknowledged, or is still
there.
-/

namespace FileRelay

open Pool (started history answers turns)

variable {H : Bytes → Digest}

/-! ## The store -/

/-- A call drains and keeps messages in the order of the queue. -/
theorem handed_step (s : MemStore) (e : Event) (mid : ID) :
    (BurnQueue.drained (queueAct mid e ((store H).step s e).2).toList ++
      messagesOf ((store H).step s e).1 mid).Sublist
    (messagesOf s mid ++ BurnQueue.accepted (queueAct mid e ((store H).step s e).2).toList) := by
  have step := step_mailbox H s e mid
  have hmsgs : ∀ s' : MemStore, messagesOf s' mid =
      ((s'.mailboxes.lookup mid).map MailboxData.messages).getD [] := by
    intro s'
    unfold messagesOf
    cases s'.mailboxes.lookup mid <;> rfl
  rw [hmsgs ((store H).step s e).1]
  generalize ((store H).step s e).1.mailboxes.lookup mid = o at step
  generalize ((store H).step s e).2 = out at step ⊢
  -- A call that does not act on the queue only takes messages away.
  have hquiet : ∀ {act : Option QueueAct} {ms : List StoredMessage},
      BurnQueue.drained act.toList = [] → BurnQueue.accepted act.toList = [] →
      ms.Sublist (messagesOf s mid) →
      (BurnQueue.drained act.toList ++ ms).Sublist
        (messagesOf s mid ++ BurnQueue.accepted act.toList) := by
    intro act ms hd ha hms
    rwa [hd, ha, List.nil_append, List.append_nil]
  rcases step with hact | ⟨hash, hact, h⟩ | ⟨hash, hact, h⟩ | ⟨hact, h⟩ | ⟨hact, h⟩ |
    ⟨msg, id, -, -, -, h, -, -, -, hact⟩ | ⟨limit, peek, h, hact⟩ | ⟨want, disposition, h, hact⟩ |
    ⟨hact, h, -, hempty⟩
  · exact hact ▸ hquiet rfl rfl (hmsgs s ▸ .refl _)
  · exact hact ▸ hquiet rfl rfl (List.nil_sublist _)
  · exact hact ▸ hquiet rfl rfl (messagesOf_some h ▸ .refl _)
  · exact hact ▸ hquiet rfl rfl (messagesOf_some h ▸ .refl _)
  · refine hact ▸ hquiet rfl rfl (messagesOf_some h ▸ ?_)
    change (pruneMessagesLocked _ e.now).messages.Sublist _
    rw [messages_prune]
    exact live_sublist _ _
  · rw [hact, messagesOf_some h]
    change ((pruneMessagesLocked _ e.now).messages ++ [newMessage msg id e.now]).Sublist
      (_ ++ [newMessage msg id e.now])
    rw [messages_prune]
    exact (live_sublist _ _).append_right _
  · cases peek with
    | true => exact hact ▸ hquiet rfl rfl (messagesOf_some h ▸ afterReceive_sublist _ _ _ _)
    | false =>
      rename_i mb
      rw [hact, messagesOf_some h]
      change ((pruneMessagesLocked mb e.now).messages.take (clampLimit limit) ++ [] ++
        (mb.afterReceive e.now limit false).messages).Sublist (mb.messages ++ [])
      rw [messages_afterReceive, if_neg (by decide), messages_prune, List.append_nil,
        List.append_nil, List.take_append_drop]
      exact live_sublist _ _
  · rename_i mb
    have hdropped := afterAck_sublist mb e.now want disposition
    by_cases hd : disposition = ackConsumed
    · rw [if_pos hd] at hact
      exact hact ▸ hquiet rfl rfl (messagesOf_some h ▸ hdropped)
    · rw [if_neg hd] at hact
      exact hact ▸ hquiet rfl rfl (messagesOf_some h ▸ hdropped)
  · exact hact ▸ hquiet rfl rfl (List.nil_sublist _)

/-- What was drained and what is left are accepted messages, in order. -/
theorem handed_run (es : List Event) (mid : ID) :
    (BurnQueue.drained (queueActs mid ((store H).trace newMemStore es)) ++
      messagesOf (runStore H es) mid).Sublist
    (BurnQueue.accepted (queueActs mid ((store H).trace newMemStore es))) := by
  refine Machine.history_induction (M := store H) (s := newMemStore)
    (P := fun _ s tr => (BurnQueue.drained (queueActs mid tr) ++ messagesOf s mid).Sublist
      (BurnQueue.accepted (queueActs mid tr))) ?_ (fun es e ih => ?_) es
  · exact List.nil_sublist _
  · rw [queueActs_concat, BurnQueue.drained_append, BurnQueue.accepted_append, List.append_assoc]
    refine ((handed_step _ e mid).append_left _).trans ?_
    rw [← List.append_assoc]
    exact ih.append_right _

/-! ## The relay -/

/-- What a step does to the queue of a mailbox of store `i`, with the task that does it. -/
def taskAct (i : ℕ) (mid : ID) (x : RelayStep) : Option (ℕ × QueueAct) :=
  (storeStep i x).bind fun y => (queueAct mid y.1 y.2).map (Prod.mk x.2.task)

/-- The calls that act on the queue of a mailbox. -/
inductive QueueCall (mid : ID) (env : Env) : (c : StoreCall) → c.Answer → QueueAct → Prop
  | accepted (q : SendMessage) (r : ID × ℕ) (hid : copyArr 16 q.mailboxID = mid) :
    QueueCall mid env (.sendMessage q) (Except.ok r) (.accepted (newMessage q env.id env.now))
  | drained (secret : Bytes) (limit : ℤ) (batch : List StoredMessage) (consumed : Bool) :
    QueueCall mid env (.receiveMessages mid secret limit false) (Except.ok (batch, consumed))
      (.drained batch)
  | consumed (secret : Bytes) (ids : List Bytes) (want : List ID) (r : ℕ × ℕ) :
    QueueCall mid env (.ackMessages mid secret ids ackConsumed) (Except.ok r) (.consumed want)

theorem queueCall_of_act {mid : ID} {env : Env} {c : StoreCall} {a : c.Answer} {act : QueueAct}
    (h : queueAct mid ⟨env.now, c.op env⟩ (c.output a) = some act) : QueueCall mid env c a act := by
  cases c with
  | sendMessage q =>
    rcases a with e | r
    · cases h
    · change (if _ then _ else none) = _ at h
      split_ifs at h with hid
      cases h
      exact .accepted q r hid
  | receiveMessages mid' secret limit peek =>
    cases peek with
    | true => rcases a with e | ⟨batch, consumed⟩ <;> cases h
    | false =>
      rcases a with e | ⟨batch, consumed⟩
      · cases h
      · change (if _ then _ else none) = _ at h
        split_ifs at h with hid
        cases h
        exact hid ▸ .drained secret limit batch consumed
  | ackMessages mid' secret ids disposition =>
    rcases a with e | r
    · cases h
    · change (if _ then _ else none) = _ at h
      split_ifs at h with hack
      obtain ⟨want, -, rfl⟩ := Option.map_eq_some_iff.mp h
      obtain ⟨rfl, rfl⟩ := hack
      exact .consumed secret ids want r
  | _ => cases h

/-- They are last calls. -/
theorem QueueCall.final {mid : ID} {env : Env} {c : StoreCall} {a : c.Answer} {act : QueueAct}
    (h : QueueCall mid env c a act) : c.final = true := by
  cases h <;> rfl

namespace Deployment

variable (d : Deployment)

/-- What happens to the queue of a mailbox of store `i`, each with its task. -/
def taskActs (i : ℕ) (mid : ID) (es : List RelayEvent) : List (ℕ × QueueAct) :=
  (d.trace es).filterMap (taskAct i mid)

variable {d} {es pre : List RelayEvent} {i k : ℕ} {mid : ID} {env : Env}

theorem map_taskActs : (d.taskActs i mid es).map Prod.snd = queueActs mid (d.storeTrace i es) := by
  unfold taskActs queueActs storeTrace
  rw [List.map_filterMap, List.filterMap_filterMap]
  refine List.filterMap_congr fun x _ => ?_
  unfold taskAct
  cases storeStep i x with
  | none => rfl
  | some y => cases h : queueAct mid y.1 y.2 <;> simp [h]

theorem mem_taskActs {act : QueueAct} : (k, act) ∈ d.taskActs i mid es ↔
    ∃ pre env c, ∃ a : c.Answer, d.CallsAt es pre k env (.store i c) a ∧
      queueAct mid ⟨env.now, c.op env⟩ (c.output a) = some act := by
  constructor
  · intro h
    obtain ⟨x, hmem, hx⟩ := List.mem_filterMap.mp h
    obtain ⟨y, hy, hact⟩ := Option.bind_eq_some_iff.mp hx
    obtain ⟨j, k', env, c, a, resp, rfl, rfl⟩ := storeStep_eq_some.mp hy
    obtain ⟨act', hact', heq⟩ := Option.map_eq_some_iff.mp hact
    obtain ⟨rfl, rfl⟩ := Prod.mk.inj heq
    obtain ⟨rfl, pre, hat⟩ := calls_of_trace hmem
    exact ⟨pre, env, c, a, hat, hact'⟩
  · rintro ⟨pre, env, c, a, hat, hact⟩
    obtain ⟨resp, hmem⟩ := hat.mem_trace
    refine List.mem_filterMap.mpr ⟨_, hmem, ?_⟩
    have hstep : storeStep i (.advance k env, ⟨k, some ⟨.store i c, a⟩, resp⟩) =
        some (⟨env.now, c.op env⟩, c.output a) := if_pos rfl
    unfold taskAct
    rw [hstep, Option.bind_some, hact]
    rfl

/-- A request acts on a queue once. -/
theorem nodup_taskActs (es : List RelayEvent) :
    ((d.taskActs i mid es).map Prod.fst).Nodup := by
  induction es using List.reverseRecOn with
  | nil => exact List.nodup_nil
  | append_singleton es e ih =>
    have hconcat : d.taskActs i mid (es ++ [e]) = d.taskActs i mid es ++
        (taskAct i mid (e, (d.relay.pool.step (d.run es) e).2)).toList := by
      unfold taskActs trace
      rw [Machine.trace_concat, List.filterMap_append]
      rfl
    cases hx : taskAct i mid (e, (d.relay.pool.step (d.run es) e).2) with
    | none => rwa [hconcat, hx, Option.toList_none, List.append_nil]
    | some x =>
      rw [hx, Option.toList_some] at hconcat
      rw [hconcat, List.map_append, List.nodup_append]
      refine ⟨ih, List.nodup_singleton _, ?_⟩
      rintro k hk _ hk' rfl
      obtain ⟨⟨k, act⟩, hmem, rfl⟩ := List.mem_map.mp hk
      obtain rfl : k = x.1 := List.mem_singleton.mp hk'
      -- The last step is the only one at which its task makes a last call.
      obtain ⟨pre, env, c, a, hat, hact⟩ := mem_taskActs.mp hmem
      obtain ⟨y, hy, hact'⟩ := Option.bind_eq_some_iff.mp hx
      obtain ⟨j, k', env', c', a', resp, hstep, rfl⟩ := storeStep_eq_some.mp hy
      obtain ⟨rfl, hout⟩ := Prod.mk.inj hstep
      obtain ⟨act', hact₁, rfl⟩ := Option.map_eq_some_iff.mp hact'
      have hcall := congrArg Pool.Output.call hout
      obtain ⟨j', env'', c'', next, he, hj, -⟩ := d.relay.call_step hcall
      cases he
      have htask : (d.relay.pool.step (d.run es) (.advance j env')).2.task = j := by
        rw [d.relay.step_call hj]
      have hlast : d.CallsAt (es ++ [.advance j env']) es j env' (.store i c') a' :=
        ⟨⟨[], rfl⟩, hcall⟩
      dsimp only at hat
      rw [htask] at hat
      obtain rfl := (hat.mono [.advance j env']).final_unique hlast (queueCall_of_act hact).final
        (queueCall_of_act hact₁).final
      obtain ⟨post, hes⟩ := hat.place
      exact absurd (congrArg List.length hes) (by simp)

variable (d es i mid)

/-- Request `k` has sent the message, and was told its id. -/
def SentBy (k : ℕ) (m : StoredMessage) : Prop :=
  ∃ r q now resp queued, (started es)[k]? = some (.shard i, r) ∧ r.Asks d.np (.send q) ∧
    copyArr 16 q.mailboxID = mid ∧ authSend d.H d.verify q now = .ok () ∧
    m.envelope = q.envelope ∧ answers k (d.trace es) = [resp] ∧ resp.status = 200 ∧
    unmarshalSendMessageResponse d.np resp.body = .ok ⟨1, queued, m.id.toList⟩

/-- Request `k` reads the mailbox and was told the batch. -/
def ReadBy (k : ℕ) (batch : List StoredMessage) : Prop :=
  ∃ r q resp, (started es)[k]? = some (.shard i, r) ∧ r.Asks d.np (.receive q) ∧
    copyArr 16 q.mailboxID = mid ∧ answers k (d.trace es) = [resp] ∧ resp.status = 200 ∧
    unmarshalReceiveMessagesResponse d.np resp.body =
      .ok ⟨batch.map StoredMessage.received, true⟩

/-- The mail of a mailbox : the requests that were told of success are those that have acted on its
queue, each once, and the messages that readers were told are accepted messages in order. -/
structure MailInOrder : Prop where
  order : (BurnQueue.drained ((d.taskActs i mid es).map Prod.snd) ++
    messagesOf ((d.run es).object.stores i) mid).Sublist
      (BurnQueue.accepted ((d.taskActs i mid es).map Prod.snd))
  once : ((d.taskActs i mid es).map Prod.fst).Nodup
  sent : ∀ {k m}, (k, .accepted m) ∈ d.taskActs i mid es → d.SentBy es i mid k m
  read : ∀ {k batch}, (k, .drained batch) ∈ d.taskActs i mid es → d.ReadBy es i mid k batch
  allSent : ∀ {k r q resp}, (started es)[k]? = some (.shard i, r) → r.Asks d.np (.send q) →
    copyArr 16 q.mailboxID = mid → resp ∈ answers k (d.trace es) → resp.status = 200 →
      ∃ m, (k, .accepted m) ∈ d.taskActs i mid es
  allRead : ∀ {k r q resp}, (started es)[k]? = some (.shard i, r) → r.Asks d.np (.receive q) →
    copyArr 16 q.mailboxID = mid → q.peek ≠ 1 → resp ∈ answers k (d.trace es) →
      resp.status = 200 → ∃ batch, (k, .drained batch) ∈ d.taskActs i mid es

variable {d es i mid}

theorem sentBy_of_act (hnp : d.np.Lawful) {m : StoredMessage}
    (h : (k, .accepted m) ∈ d.taskActs i mid es) : d.SentBy es i mid k m := by
  obtain ⟨pre, env, c, a, hat, hact⟩ := mem_taskActs.mp h
  cases queueCall_of_act hact with
  | accepted q res hid =>
    have hres : (sendMessage ((d.run pre).object.stores i) env.now q env.id).2 = .ok res :=
      hat.served.1.symm
    have hnew : res.1 = env.id := by
      have hout := sendMessage_outcome ((d.run pre).object.stores i) env.now q env.id
      generalize sendMessage ((d.run pre).object.stores i) env.now q env.id = res' at hout hres
      rcases hout with ⟨e⟩ | ⟨e, -, -⟩ | ⟨-, -, -, -, -⟩
      · cases hres
      · cases hres
      · exact (congrArg Prod.fst (Except.ok.inj hres)).symm
    obtain ⟨⟨host, r⟩, hx, hhost, hasks, now, hadm⟩ := hat.entitled
    cases hhost
    obtain ⟨resp, hresp, hstatus, -, hread⟩ := reported hnp hat rfl
    have hbody := hread trivial
    rw [Reply.ReadFrom, hnew] at hbody
    exact ⟨r, q, now, resp, UInt32.ofNat res.2, hat.started_mono hx, hasks, hid, hadm.signed, rfl,
      hresp, hstatus, hbody⟩

theorem readBy_of_act (hnp : d.np.Lawful) {batch : List StoredMessage}
    (h : (k, .drained batch) ∈ d.taskActs i mid es) : d.ReadBy es i mid k batch := by
  obtain ⟨pre, env, c, a, hat, hact⟩ := mem_taskActs.mp h
  cases queueCall_of_act hact with
  | drained secret limit batch consumed =>
    have hres : (receiveMessages d.H ((d.run pre).object.stores i) env.now mid secret limit
        false).2 = .ok (batch, consumed) := hat.served.1.symm
    obtain rfl : consumed = true := by
      have hout := receiveMessages_outcome d.H ((d.run pre).object.stores i) env.now mid secret
        limit false
      generalize receiveMessages d.H ((d.run pre).object.stores i) env.now mid secret limit
        false = res at hout hres
      rcases hout with ⟨e⟩ | ⟨-, -, -⟩
      · cases hres
      · exact (congrArg Prod.snd (Except.ok.inj hres)).symm
    obtain ⟨⟨host, r⟩, hx, hhost, q, now, hasks, hid, -⟩ := hat.entitled
    cases hhost
    obtain ⟨resp, hresp, hstatus, -, hread⟩ := reported hnp hat rfl
    exact ⟨r, q, resp, hat.started_mono hx, hasks, hid.symm, hresp, hstatus, hread trivial⟩

/-- A message that a sender was told of has been accepted. -/
theorem act_of_sent (hnp : d.np.Lawful) {r : HTTPRequest} {q : SendMessage} {resp : Response}
    (hx : (started es)[k]? = some (.shard i, r)) (hasks : r.Asks d.np (.send q))
    (hid : copyArr 16 q.mailboxID = mid) (hresp : resp ∈ answers k (d.trace es))
    (hstatus : resp.status = 200) :
    ∃ m, (k, .accepted m) ∈ d.taskActs i mid es ∧ m.envelope = q.envelope := by
  obtain ⟨c, reply, a, pre, env, hcall, hreply, hat, -⟩ :=
    told_of_status hnp hx hasks hresp hstatus
  cases hcall
  rcases a with e | out
  · cases hreply
  · exact ⟨_, mem_taskActs.mpr ⟨pre, env, _, _, hat, if_pos hid⟩, rfl⟩

/-- A batch that a reader was told of has been drained. -/
theorem act_of_read (hnp : d.np.Lawful) {r : HTTPRequest} {q : ReceiveMessages} {resp : Response}
    (hx : (started es)[k]? = some (.shard i, r)) (hasks : r.Asks d.np (.receive q))
    (hid : copyArr 16 q.mailboxID = mid) (hpeek : q.peek ≠ 1)
    (hresp : resp ∈ answers k (d.trace es)) (hstatus : resp.status = 200) :
    ∃ batch, (k, .drained batch) ∈ d.taskActs i mid es := by
  obtain ⟨c, reply, a, pre, env, hcall, hreply, hat, -⟩ :=
    told_of_status hnp hx hasks hresp hstatus
  cases hcall
  have hno : (q.peek == 1) = false := beq_eq_false_iff_ne.mpr hpeek
  rw [hno] at hat
  rcases a with e | ⟨batch, consumed⟩
  · cases hreply
  · exact ⟨batch, mem_taskActs.mpr ⟨pre, env, _, _, hat, if_pos hid⟩⟩

theorem handed_relay (d : Deployment) (es : List RelayEvent) (i : ℕ) (mid : ID) :
    (BurnQueue.drained ((d.taskActs i mid es).map Prod.snd) ++
      messagesOf ((d.run es).object.stores i) mid).Sublist
        (BurnQueue.accepted ((d.taskActs i mid es).map Prod.snd)) := by
  rw [map_taskActs, ← store_run, ← store_trace]
  exact handed_run _ mid

/-- The mail of every mailbox is in order, after every run. -/
theorem mail_in_order (d : Deployment) (hnp : d.np.Lawful) (es : List RelayEvent) (i : ℕ)
    (mid : ID) : d.MailInOrder es i mid where
  order := handed_relay d es i mid
  once := nodup_taskActs es
  sent := sentBy_of_act hnp
  read := readBy_of_act hnp
  allSent hx hasks hid hresp hstatus := by
    obtain ⟨m, hm, -⟩ := act_of_sent hnp hx hasks hid hresp hstatus
    exact ⟨m, hm⟩
  allRead := act_of_read hnp

theorem mail_in_order_sampleMail :
    let mid := sampleDeployment.mailboxOf sampleRegister.clientPub
    sampleDeployment.MailInOrder sampleMail 0 mid ∧
      (sampleDeployment.taskActs 0 mid sampleMail).length = 2 :=
  ⟨mail_in_order _ NanoPack.reference_lawful _ _ _, by decide +kernel⟩

end Deployment

end FileRelay
