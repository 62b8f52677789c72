import FileRelay.Growth
import FileRelay.Queue
import FileRelay.Registration
import FileRelay.Traffic

/-!
# Where what a shard holds comes from

Nothing is in a store that no call put there (`Recorded`), and no call that puts something there is
made but by a handler that was entitled to it. So every mailbox of a shard is that of a key that
signed a registration with the router, every queued message was signed for the mailbox it is in,
every transfer was asked for with a signature, every chunk was uploaded for its transfer and index,
and every sealed transfer was completed with a signature, which is that of its creator if no id is
drawn twice (`Authentic`). This holds after every run of the relay, whatever requests arrive and
however their handlers are interleaved (`authentic_run`).
-/

namespace FileRelay

open Pool (started history answers turns)

variable {H : Bytes → Digest}

/-! ## The store -/

/-- Every record of the store has the calls behind it that made it what it is. -/
structure Recorded (H : Bytes → Digest) (tr : List (Event × Output)) (s : MemStore) : Prop where
  mailbox : ∀ {mid mb}, s.mailboxes.lookup mid = some mb →
    ∃ e out, (e, out) ∈ tr ∧ e.op = .createMailbox mid mb.readSecretHash
  message : ∀ {mid m}, m ∈ messagesOf s mid → ∃ e out msg id, (e, out) ∈ tr ∧
    e.op = .sendMessage msg id ∧ copyArr 16 msg.mailboxID = mid ∧ m = newMessage msg id e.now
  transfer : ∀ {tid t}, s.transfers.lookup tid = some t → ∃ e r ticket,
    (e, .created (.ok (tid, ticket.toList, deadline e.now uploadTTLSeconds))) ∈ tr ∧
      e.op = .createTransfer r tid (some ticket) ∧
      t.fixed = (createdTransfer H r ticket e.now).fixed
  chunk : ∀ {tid t i p}, s.transfers.lookup tid = some t → t.chunks.lookup i = some p →
    ∃ e out c, (e, out) ∈ tr ∧ e.op = .putChunk c ∧ copyArr 16 c.transferID = tid ∧
      c.index.toNat = i ∧ c.payload = p
  completed : ∀ {tid t}, s.transfers.lookup tid = some t → t.state = .complete →
    ∃ e out r, (e, out) ∈ tr ∧ e.op = .completeTransfer r ∧ copyArr 16 r.transferID = tid

section Step

variable {s : MemStore} {e : Event}

theorem mailbox_origin {mid : ID} {mb : MailboxData}
    (hmb : ((store H).step s e).1.mailboxes.lookup mid = some mb) :
    e.op = .createMailbox mid mb.readSecretHash ∨
      ∃ mb₀, s.mailboxes.lookup mid = some mb₀ ∧ mb.readSecretHash = mb₀.readSecretHash := by
  obtain ⟨now, op⟩ := e
  by_cases hop : ∃ id hash, op = .createMailbox id hash
  · obtain ⟨id, hash, rfl⟩ := hop
    by_cases hid : mid = id
    · subst hid
      obtain ⟨mb', hmb', rfl⟩ := Router.lookup_createMailbox (H := H) s now mid hash
      obtain rfl := Option.some.inj (hmb'.symm.trans hmb)
      exact .inl rfl
    · rw [store_step, Router.lookup_createMailbox_ne s now hid hash] at hmb
      exact .inr ⟨mb, hmb, rfl⟩
  · have hkept := Router.kept_call (H := H) s now (fun id hash hc => hop ⟨id, hash, hc⟩) mid
    exact .inr (hkept.before hmb)

theorem message_origin {mid : ID} {m : StoredMessage}
    (hm : m ∈ messagesOf ((store H).step s e).1 mid) :
    (∃ msg id, e.op = .sendMessage msg id ∧ copyArr 16 msg.mailboxID = mid ∧
      m = newMessage msg id e.now) ∨ m ∈ messagesOf s mid := by
  rcases messages_step H s e mid with hsub | ⟨msg, id, mb, hop, hid, -, hmb, -, -, -, hlookup⟩
  · exact .inr (hsub.subset hm)
  · rw [messagesOf_enqueue hlookup, List.mem_append, List.mem_singleton] at hm
    rcases hm with hm | rfl
    · rw [messagesOf_some hmb]
      exact .inr ((live_sublist _ _).subset hm)
    · exact .inl ⟨msg, id, hop, hid, rfl⟩

/-- What a call can have added to a transfer that was there. -/
structure Grown (e : Event) (tid : ID) (t₀ t : TransferData) : Prop where
  fixed : t.fixed = t₀.fixed
  chunk : ∀ {i p}, t.chunks.lookup i = some p → t₀.chunks.lookup i = some p ∨
    ∃ c, e.op = .putChunk c ∧ copyArr 16 c.transferID = tid ∧ c.index.toNat = i ∧ c.payload = p
  completed : t.state = .complete → t₀.state = .complete ∨
    ∃ r, e.op = .completeTransfer r ∧ copyArr 16 r.transferID = tid

theorem transfer_origin {tid : ID} {t : TransferData}
    (ht : ((store H).step s e).1.transfers.lookup tid = some t) :
    (∃ r ticket, e.op = .createTransfer r tid (some ticket) ∧
      ((store H).step s e).2 =
        .created (.ok (tid, ticket.toList, deadline e.now uploadTTLSeconds)) ∧
      t = createdTransfer H r ticket e.now) ∨
    ∃ t₀, s.transfers.lookup tid = some t₀ ∧ Grown e tid t₀ t := by
  have step := step_transfer H s e tid
  rw [ht] at step
  generalize hsome : some t = o at step
  rcases step with _ | ⟨r, ticket, hop, -, -, hout⟩ | ⟨h, -, -⟩ |
    ⟨c, hop, hid, -, h, -, hc, -, -⟩ | ⟨r, hop, hid, h, -, -, -⟩ | _ | _
  · exact .inr ⟨t, hsome.symm, rfl, .inl, .inl⟩
  · exact .inl ⟨r, ticket, hop, hout, Option.some.inj hsome⟩
  · cases hsome
    exact .inr ⟨_, h, rfl, .inl, nofun⟩
  · rename_i t₀ hout
    cases hsome
    refine .inr ⟨t₀, h, rfl, fun {i p} hp => ?_, fun hs => ?_⟩
    · by_cases hi : i = c.index.toNat
      · subst hi
        have hput : (storeChunk H t₀ c e.now).chunks.lookup c.index.toNat = some c.payload :=
          Finmap.lookup_insert _
        exact .inr ⟨c, hop, hid, rfl, Option.some.inj (hput.symm.trans hp)⟩
      · exact .inl ((Finmap.lookup_insert_of_ne _ hi).symm.trans hp)
    · -- A chunk is stored in no sealed transfer.
      have hopen := ((checkChunk_eq_ok H).mp hc).1.1
      simp only [storeChunk] at hs
      split_ifs at hs
      exact absurd hs hopen
  · cases hsome
    exact .inr ⟨_, h, rfl, .inl, fun _ => .inr ⟨r, hop, hid⟩⟩
  · cases hsome
  · cases hsome

end Step

theorem recorded_step {tr : List (Event × Output)} {s : MemStore} (h : Recorded H tr s)
    (e : Event) : Recorded H (tr ++ [(e, ((store H).step s e).2)]) ((store H).step s e).1 := by
  have hnew : (e, ((store H).step s e).2) ∈ tr ++ [(e, ((store H).step s e).2)] := by simp
  have hold : ∀ {x}, x ∈ tr → x ∈ tr ++ [(e, ((store H).step s e).2)] :=
    fun hx => List.mem_append_left _ hx
  refine ⟨fun hmb => ?_, fun hm => ?_, fun ht => ?_, fun ht hp => ?_, fun ht hs => ?_⟩
  · rcases mailbox_origin hmb with hop | ⟨mb₀, hmb₀, hsec⟩
    · exact ⟨e, _, hnew, hop⟩
    · obtain ⟨e', out, hmem, hop⟩ := h.mailbox hmb₀
      exact ⟨e', out, hold hmem, hsec ▸ hop⟩
  · rcases message_origin hm with ⟨msg, id, hop, hid, rfl⟩ | hm
    · exact ⟨e, _, msg, id, hnew, hop, hid, rfl⟩
    · obtain ⟨e', out, msg, id, hmem, hrest⟩ := h.message hm
      exact ⟨e', out, msg, id, hold hmem, hrest⟩
  · rcases transfer_origin ht with ⟨r, ticket, hop, hout, rfl⟩ | ⟨t₀, ht₀, hgrown⟩
    · exact ⟨e, r, ticket, hout ▸ hnew, hop, rfl⟩
    · obtain ⟨e', r, ticket, hmem, hop, hfixed⟩ := h.transfer ht₀
      exact ⟨e', r, ticket, hold hmem, hop, hgrown.fixed.trans hfixed⟩
  · rcases transfer_origin ht with ⟨r, ticket, -, -, rfl⟩ | ⟨t₀, ht₀, hgrown⟩
    · cases hp
    · rcases hgrown.chunk hp with hp | ⟨c, hop, hrest⟩
      · obtain ⟨e', out, c, hmem, hrest⟩ := h.chunk ht₀ hp
        exact ⟨e', out, c, hold hmem, hrest⟩
      · exact ⟨e, _, c, hnew, hop, hrest⟩
  · rcases transfer_origin ht with ⟨r, ticket, -, -, rfl⟩ | ⟨t₀, ht₀, hgrown⟩
    · cases hs
    · rcases hgrown.completed hs with hs | ⟨r, hop, hid⟩
      · obtain ⟨e', out, r, hmem, hrest⟩ := h.completed ht₀ hs
        exact ⟨e', out, r, hold hmem, hrest⟩
      · exact ⟨e, _, r, hnew, hop, hid⟩

theorem recorded_new : Recorded H [] newMemStore where
  mailbox h := by cases h
  message h := by cases h
  transfer h := by cases h
  chunk h := by cases h
  completed h := by cases h

theorem recorded_run (es : List Event) :
    Recorded H ((store H).trace newMemStore es) (runStore H es) :=
  Machine.history_induction (P := fun _ s tr => Recorded H tr s)
    recorded_new (fun _ e h => recorded_step h e) es

/-! ## The relay -/

/-- The id a call has created a transfer under. -/
def transferCreated : Event × Output → Option ID
  | (_, .created (.ok (id, _, _))) => some id
  | _ => none

namespace Deployment

variable (d : Deployment) (es : List RelayEvent)

/-- A request of the run asks for `ask`. -/
def Asked (host : Host) (ask : Ask) : Prop :=
  ∃ r, (host, r) ∈ started es ∧ r.Asks d.np ask

/-- The clock showed `now` at a step of the run. -/
def ClockShowed (now : ℤ) : Prop :=
  ∃ k env, .advance k env ∈ es ∧ env.now = now

/-- Store `i` draws no id for two transfers. -/
def NoIDTwice (i : ℕ) : Prop :=
  ((d.storeTrace i es).filterMap transferCreated).Nodup

/-- Every record of store `i` is there because requests of the run, with their signatures, asked for
it. -/
structure Authentic (i : ℕ) (s : MemStore) : Prop where
  mailbox : ∀ {mid mb}, s.mailboxes.lookup mid = some mb → d.HomeOf mid i ∧
    ∃ q now, ∃ secret : ByteArr 32, d.Asked es .router (.register q) ∧ ClockShowed es now ∧
      authRegister d.verify q now = .ok () ∧ mid = d.mailboxOf q.clientPub ∧
      mb.readSecretHash = d.H secret.toList
  message : ∀ {mid m}, m ∈ messagesOf s mid → ∃ q now id time,
    d.Asked es (.shard i) (.send q) ∧ ClockShowed es now ∧ authSend d.H d.verify q now = .ok () ∧
      copyArr 16 q.mailboxID = mid ∧ m = newMessage q id time
  transfer : ∀ {tid t}, s.transfers.lookup tid = some t → ∃ q now ticket time,
    d.Asked es (.shard i) (.create q) ∧ ClockShowed es now ∧
      authCreate d.H d.verify q now = .ok () ∧ t.fixed = (createdTransfer d.H q ticket time).fixed
  chunk : ∀ {tid t index p}, s.transfers.lookup tid = some t → t.chunks.lookup index = some p →
    ∃ c, d.Asked es (.shard i) (.put c) ∧ copyArr 16 c.transferID = tid ∧
      c.index.toNat = index ∧ c.payload = p
  completed : ∀ {tid t}, s.transfers.lookup tid = some t → t.state = .complete → ∃ q now,
    d.Asked es (.shard i) (.complete q) ∧ ClockShowed es now ∧
      authComplete d.verify q now = .ok () ∧ copyArr 16 q.transferID = tid ∧
      (d.NoIDTwice es i → q.senderPub = t.senderPub)

variable {d es} {i : ℕ}

theorem CallsAt.asked {pre : List RelayEvent} {k : ℕ} {env : Env} {c : RelayCall} {a : c.Answer}
    (h : d.CallsAt es pre k env c a) {host : Host} {r : HTTPRequest} {ask : Ask}
    (hk : (started pre)[k]? = some (host, r)) (hr : r.Asks d.np ask) : d.Asked es host ask := by
  obtain ⟨post, rfl⟩ := h.place
  refine ⟨r, ?_, hr⟩
  rw [Pool.started_append]
  exact List.mem_append_left _ (List.mem_of_getElem? hk)

theorem CallsAt.clockShowed {pre : List RelayEvent} {k : ℕ} {env : Env} {c : RelayCall}
    {a : c.Answer}
    (h : d.CallsAt es pre k env c a) {now : ℤ} {h' : History}
    (hh : history k (d.trace pre) = clocked now :: h') : ClockShowed es now := by
  obtain ⟨post, rfl⟩ := h.place
  obtain ⟨env', hmem, hnow⟩ := clocked_of_history hh
  exact ⟨k, env', List.mem_append_left _ hmem, hnow.symm⟩

/-- With ids drawn once, two creates of one transfer are the same. -/
theorem create_unique (hfresh : d.NoIDTwice es i) {tid : ID} {e e' : Event} {ticket ticket' : Bytes}
    {deadline deadline' : ℤ} (h : (e, .created (.ok (tid, ticket, deadline))) ∈ d.storeTrace i es)
    (h' : (e', .created (.ok (tid, ticket', deadline'))) ∈ d.storeTrace i es) :
    e = e' ∧ ticket = ticket' := by
  have hsym : Std.Symm fun a b : Event × Output => ∀ id, transferCreated a = some id →
      ∀ id', transferCreated b = some id' → id ≠ id' :=
    ⟨fun a b hab id hb id' ha => (hab id' ha id hb).symm⟩
  by_contra hne
  refine (List.pairwise_filterMap.mp hfresh).forall h h' ?_ tid rfl tid rfl rfl
  intro heq
  cases heq
  exact hne ⟨rfl, rfl⟩

theorem recorded_relay (d : Deployment) (es : List RelayEvent) (i : ℕ) :
    Recorded d.H (d.storeTrace i es) ((d.run es).object.stores i) := by
  rw [← store_trace, ← store_run]
  exact recorded_run _

/-- A record that was there before the run went on has its create in the run. -/
theorem transfer_recorded (es : List RelayEvent) {tid : ID} {t : TransferData}
    (ht : ((d.run es).object.stores i).transfers.lookup tid = some t) (more : List RelayEvent) :
    ∃ e r ticket, (e, .created (.ok (tid, ticket.toList, deadline e.now uploadTTLSeconds))) ∈
      d.storeTrace i (es ++ more) ∧ e.op = .createTransfer r tid (some ticket) ∧
        t.fixed = (createdTransfer d.H r ticket e.now).fixed := by
  obtain ⟨e, r, ticket, hmem, hrest⟩ := (recorded_relay d es i).transfer ht
  refine ⟨e, r, ticket, ?_, hrest⟩
  rw [storeTrace_append]
  exact List.mem_append_left _ hmem

theorem mailbox_authentic {mid : ID} {mb : MailboxData}
    (hmb : ((d.run es).object.stores i).mailboxes.lookup mid = some mb) : d.HomeOf mid i ∧
      ∃ q now, ∃ secret : ByteArr 32, d.Asked es .router (.register q) ∧ ClockShowed es now ∧
        authRegister d.verify q now = .ok () ∧ mid = d.mailboxOf q.clientPub ∧
        mb.readSecretHash = d.H secret.toList := by
  obtain ⟨e, out, hmem, hop⟩ := (recorded_relay d es i).mailbox hmb
  obtain ⟨pre, k, env, c, a, hat, rfl, rfl⟩ := calls_of_mem hmem
  obtain ⟨⟨host, r⟩, hx, hent⟩ := hat.entitled
  cases c <;> cases hop
  obtain ⟨hhost, q, now, secret, hreg, hmid, hhash, hhome⟩ := hent
  cases hhost
  exact ⟨hhome, q, now, secret, hat.asked hx hreg.asks, hat.clockShowed hreg.calls, hreg.signed,
    hmid, hhash⟩

theorem message_authentic {mid : ID} {m : StoredMessage}
    (hm : m ∈ messagesOf ((d.run es).object.stores i) mid) : ∃ q now id time,
      d.Asked es (.shard i) (.send q) ∧ ClockShowed es now ∧
        authSend d.H d.verify q now = .ok () ∧ copyArr 16 q.mailboxID = mid ∧
        m = newMessage q id time := by
  obtain ⟨e, out, msg, id, hmem, hop, hid, rfl⟩ := (recorded_relay d es i).message hm
  obtain ⟨pre, k, env, c, a, hat, rfl, rfl⟩ := calls_of_mem hmem
  obtain ⟨⟨host, r⟩, hx, hent⟩ := hat.entitled
  cases c <;> cases hop
  obtain ⟨hhost, hasks, now, hadm⟩ := hent
  cases hhost
  exact ⟨msg, now, env.id, env.now, hat.asked hx hasks, hat.clockShowed hadm.calls, hadm.signed,
    hid, rfl⟩

theorem transfer_authentic {tid : ID} {t : TransferData}
    (ht : ((d.run es).object.stores i).transfers.lookup tid = some t) : ∃ q now ticket time,
      d.Asked es (.shard i) (.create q) ∧ ClockShowed es now ∧
        authCreate d.H d.verify q now = .ok () ∧
        t.fixed = (createdTransfer d.H q ticket time).fixed := by
  obtain ⟨e, q, ticket, hmem, hop, hfixed⟩ := (recorded_relay d es i).transfer ht
  obtain ⟨pre, k, env, c, a, hat, rfl, -⟩ := calls_of_mem hmem
  obtain ⟨⟨host, r⟩, hx, hent⟩ := hat.entitled
  cases c with
  | createTransfer q' =>
    obtain ⟨hhost, hasks, now, hadm⟩ := hent
    cases hhost
    obtain rfl : q' = q := by
      injection hop
    exact ⟨q', now, ticket, env.now, hat.asked hx hasks, hat.clockShowed hadm.calls, hadm.signed,
      hfixed⟩
  | _ => cases hop

theorem chunk_authentic {tid : ID} {t : TransferData} {index : ℕ} {p : Bytes}
    (ht : ((d.run es).object.stores i).transfers.lookup tid = some t)
    (hp : t.chunks.lookup index = some p) : ∃ c, d.Asked es (.shard i) (.put c) ∧
      copyArr 16 c.transferID = tid ∧ c.index.toNat = index ∧ c.payload = p := by
  obtain ⟨e, out, c, hmem, hop, hid, hindex, hpay⟩ := (recorded_relay d es i).chunk ht hp
  obtain ⟨pre, k, env, c', a, hat, rfl, rfl⟩ := calls_of_mem hmem
  obtain ⟨⟨host, r⟩, hx, hent⟩ := hat.entitled
  cases c' <;> cases hop
  obtain ⟨hhost, hasks, -⟩ := hent
  cases hhost
  exact ⟨c, hat.asked hx hasks, hid, hindex, hpay⟩

theorem completed_authentic {tid : ID} {t : TransferData}
    (ht : ((d.run es).object.stores i).transfers.lookup tid = some t) (hs : t.state = .complete) :
    ∃ q now, d.Asked es (.shard i) (.complete q) ∧ ClockShowed es now ∧
      authComplete d.verify q now = .ok () ∧ copyArr 16 q.transferID = tid ∧
      (d.NoIDTwice es i → q.senderPub = t.senderPub) := by
  have hrec := recorded_relay d es i
  obtain ⟨e, out, q, hmem, hop, hid⟩ := hrec.completed ht hs
  obtain ⟨pre, k, env, c, a, hat, rfl, rfl⟩ := calls_of_mem hmem
  obtain ⟨⟨host, r⟩, hx, hent⟩ := hat.entitled
  cases c <;> cases hop
  obtain ⟨hhost, hasks, h₀, now, tv, hadm, hfound, hsender⟩ := hent
  cases hhost
  have hcalls := hfound.trans (congrArg (· ++ _) hadm.calls)
  refine ⟨q, now, hat.asked hx hasks, hat.clockShowed hcalls, hadm.signed, hid, fun hfresh => ?_⟩
  -- The handler saw the sender of the record under the same id, and its create is the same.
  obtain ⟨pre', env', hat', -⟩ := calls_of_history hfound
  obtain ⟨t₀, ht₀, -, hview⟩ := onTransfer_eq_ok hat'.served.1.symm
  rw [hid] at ht₀
  obtain ⟨post, rfl⟩ := hat.place
  obtain ⟨mid, rfl⟩ := hat'.place
  obtain ⟨e₀, r₀, ticket₀, hmem₀, hop₀, hfixed₀⟩ := transfer_recorded pre' ht₀
    (.advance k env' :: mid ++ .advance k env :: post)
  obtain ⟨e₁, r₁, ticket₁, hmem₁, hop₁, hfixed₁⟩ := hrec.transfer ht
  rw [← List.append_assoc] at hmem₀
  obtain ⟨rfl, -⟩ := create_unique hfresh hmem₀ hmem₁
  cases hop₀.symm.trans hop₁
  have hsame : t₀.senderPub = t.senderPub :=
    congrArg (fun f => f.2.2.2.2.1) (hfixed₀.trans hfixed₁.symm)
  obtain rfl := Except.ok.inj hview
  exact hsender.symm.trans hsame

/-- Everything a shard holds is authentic, after every run. -/
theorem authentic_run (d : Deployment) (es : List RelayEvent) (i : ℕ) :
    d.Authentic es i ((d.run es).object.stores i) :=
  ⟨mailbox_authentic, message_authentic, transfer_authentic, chunk_authentic, completed_authentic⟩

end Deployment

end FileRelay
