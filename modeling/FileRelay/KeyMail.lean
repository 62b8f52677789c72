import FileRelay.EndToEnd
import FileRelay.Once

/-!
# Mail to a key

A sender knows the key of the recipient and nothing else. Its bridge resolves the key and sends
frames to the mailbox and the server it was told (`Mails`). The owner of the key has registered it
through a bridge of its own, attaches the mailbox at the server this bridge was told, and polls it
(`Attends`).

`key_mail` says that the two meet : what the owner polls in a session are frames that were accepted
for the mailbox of the key, in the order in which they were accepted and each once, and every frame
that a sender was told is sent was accepted for it.
-/

namespace FileRelay

open NanoPack (Codec layout)
open Pool (started history answers turns)
open Fallible Gather

/-! ## The queue of a mailbox while a run goes on -/

namespace Deployment

variable {d : Deployment} {es pre : List RelayEvent} {i k : ℕ} {mid : ID}

theorem taskActs_mono (d : Deployment) (i : ℕ) (mid : ID) (hpre : pre <+: es) :
    ∃ more, d.taskActs i mid es = d.taskActs i mid pre ++ more := by
  obtain ⟨post, rfl⟩ := hpre
  unfold taskActs
  rw [trace, Machine.trace_append, List.filterMap_append]
  exact ⟨_, rfl⟩

/-- Only a request that has arrived acts on a queue. -/
theorem lt_of_mem_taskActs {act : QueueAct} (h : (k, act) ∈ d.taskActs i mid es) :
    k < (started es).length := by
  obtain ⟨pre, env, c, a, hat, -⟩ := mem_taskActs.mp h
  obtain ⟨x, hx, -⟩ := hat.entitled
  exact (List.getElem?_eq_some_iff.mp (hat.started_mono hx)).1

theorem sublist_drained {acts : List (ℕ × QueueAct)} {batch : List StoredMessage}
    (h : (k, .drained batch) ∈ acts) : batch.Sublist (BurnQueue.drained (acts.map Prod.snd)) := by
  obtain ⟨as, bs, rfl⟩ := List.append_of_mem h
  rw [List.map_append, List.map_cons, BurnQueue.drained_append]
  exact (List.sublist_append_left batch _).trans (List.sublist_append_right _ _)

/-! ## Polls -/

variable {js : BindingsJSON} {locate : Locate} {moment : ℕ → List RelayEvent}
  {ins : List (CourierInput js)}

/-- The frames that a turn of a bridge hands over for a mailbox. -/
def polledFrames (np : Codec) (mid : ID) : CourierTurn js → List Bytes
  | (.request _ _ payload, some (.polled frames)) =>
    match unmarshalPoll np payload with
    | .ok req => if req.mailboxID = mid.toList then frames else []
    | .error _ => []
  | _ => []

/-- A poll of one mailbox hands over one batch. -/
theorem fetched_of_gather {np : Codec} {post : ShardPost} {b : Bridge}
    {order : b.mailboxes.RangeOrder} {req : PollReq} {frames : List Bytes}
    (hid : req.mailboxID = mid.toList)
    (h : gather (pollAsk np post req.limit.toNat) req.limit.toNat (pollTargets b order req) 0 [] =
      .ok frames) : frames = [] ∨ ∃ mb limit, b.mailboxes.lookup mid.toList = some mb ∧
        fetchBatch np (post 0) mb.shardURL mid.toList mb.readSecret limit = .ok frames := by
  have hlen : req.mailboxID.length = 16 := by rw [hid, List.Vector.toList_length]
  unfold pollTargets at h
  rw [if_pos hlen, hid] at h
  cases hmb : b.mailboxes.lookup mid.toList with
  | none =>
    rw [hmb] at h
    cases h
    exact .inl rfl
  | some mb =>
    rw [hmb] at h
    dsimp only [gather] at h
    split_ifs at h with hlimit
    · cases h
      exact .inl rfl
    · cases hask : pollAsk np post req.limit.toNat 0 ([] : List Bytes).length (mid.toList, mb) with
      | error e =>
        rw [hask] at h
        cases h
      | ok got =>
        rw [hask] at h
        cases h
        exact .inr ⟨mb, _, rfl, hask⟩

variable (d ins) in
/-- All servers that the session attaches for the mailbox are shard `i`. -/
def AttachesAt (locate : Locate) (mid : ID) (i : ℕ) : Prop :=
  ∀ req, Attaches d.np (d.session ins) req → req.mailboxID = mid.toList →
    ShardAt locate req.shardURL i

/-- The frames of a turn were drained during the turn. -/
theorem polled_step (hnp : d.np.Lawful) {before after : List RelayEvent} {s s' : Courier js}
    {world : (s : Courier js) → CourierWorld s} {op : UInt8} {payload : Bytes} {o : Outcome}
    (hat : d.AttachesAt ins locate mid i) (hknown : Known d.np (d.session ins) s)
    (hdoes : Does d.H d.np (world s) op payload s' o) (hlater : before <+: after)
    (hw : d.Wired locate before after (world s)) : ∃ more,
      d.taskActs i mid after = d.taskActs i mid before ++ more ∧
      (polledFrames d.np mid (.request world op payload, some o)).Sublist
        ((BurnQueue.drained (more.map Prod.snd)).map StoredMessage.envelope) := by
  obtain ⟨more, hmore⟩ := taskActs_mono d i mid hlater
  refine ⟨more, hmore, ?_⟩
  cases hdoes with
  | @polled _ req frames hreq hframes =>
    dsimp only [polledFrames]
    rw [hreq]
    dsimp only
    split_ifs with hid
    · rcases fetched_of_gather hid hframes with rfl | ⟨mb, limit, hmb, hfetch⟩
      · exact List.nil_sublist _
      · obtain ⟨areq, hareq, haid, rfl⟩ := hknown.attached _ _ hmb
        obtain ⟨k, batch, hk, hact, rfl⟩ := read_of_fetch hnp hw (hat areq hareq haid) hfetch
        -- The request arrived after the earlier acts.
        rw [hmore, List.mem_append] at hact
        have hnew := hact.resolve_left fun hold => absurd (lt_of_mem_taskActs hold) (by omega)
        exact (sublist_drained hnew).map _
    · exact List.nil_sublist _
  | _ => exact List.nil_sublist _

/-- What a bridge has polled in a session was drained from the mailbox in that order. -/
theorem polled_run (hnp : d.np.Lawful) (hjs : js.Lawful) (h : d.Session locate es moment ins)
    (hat : d.AttachesAt ins locate mid i) {pre : List (CourierInput js)} (hpre : pre <+: ins) :
    ((d.session pre).flatMap (polledFrames d.np mid)).Sublist
      ((BurnQueue.drained ((d.taskActs i mid (moment pre.length)).map Prod.snd)).map
        StoredMessage.envelope) := by
  induction pre using List.reverseRecOn with
  | nil => exact List.nil_sublist _
  | append_singleton pre e ih =>
    obtain ⟨post, hins⟩ := hpre
    have hins' : ins = pre ++ e :: post := by rw [← hins, List.append_assoc, List.singleton_append]
    replace ih := ih ⟨e :: post, hins'.symm⟩
    rw [session, Machine.trace_concat, List.flatMap_append, List.length_append,
      List.length_singleton]
    have hstep : ∃ more, d.taskActs i mid (moment (pre.length + 1)) =
        d.taskActs i mid (moment pre.length) ++ more ∧
        (polledFrames d.np mid (e, ((courier d.H d.np js).step
          ((courier d.H d.np js).run (newCourier js) pre) e).2)).Sublist
          ((BurnQueue.drained (more.map Prod.snd)).map StoredMessage.envelope) := by
      cases e with
      | restart =>
        obtain ⟨more, hmore⟩ := taskActs_mono d i mid (h.later pre.length)
        exact ⟨more, hmore, List.nil_sublist _⟩
      | request world op payload =>
        obtain ⟨s, s', o, hout, hknown, hdoes, hw⟩ := h.turn_at hjs hins'
        rw [hout]
        exact polled_step hnp hat hknown hdoes (h.later _) hw
    obtain ⟨more, hmore, hnew⟩ := hstep
    rw [hmore, List.map_append, BurnQueue.drained_append, List.map_append]
    refine ih.append ?_
    rwa [List.flatMap_singleton]

/-! ## Keys -/

variable (d locate) in
/-- The router has shards, and its URLs lead to them. -/
structure Configured : Prop where
  nonempty : d.router.shards ≠ []
  leads : ∀ ref ∈ d.router.shards, ShardAt locate ref.url ref.store

variable (d ins locate) in
/-- The bridge has resolved the key, at a router that it was named. -/
def BridgeResolved (pub mailboxID url : Bytes) : Prop :=
  ∃ world payload req, (.request world 10 payload, some (.resolved mailboxID url)) ∈ d.session ins ∧
    unmarshalResolveReq d.np payload = .ok req ∧ req.recipientPub = pub ∧ req.routerURL ≠ [] ∧
    RouterAt locate req.routerURL

variable (d ins) in
/-- A frame was sent through the bridge to an address, as the bridge says. -/
def BridgeSent (mailboxID url frame : Bytes) : Prop :=
  ∃ world payload o req, (.request world 3 payload, some o) ∈ d.session ins ∧
    (∀ code e, o ≠ .failed code e) ∧ unmarshalSend d.np payload = .ok req ∧
    req.mailboxID = mailboxID ∧ req.shardURL = url ∧ url ≠ [] ∧ req.frame = frame

variable (d ins locate) in
/-- The key was registered through the bridge, which was told the server. -/
def BridgeRegistered (pub url : Bytes) : Prop :=
  ∃ world payload op mailboxID secret routerURL req,
    (.request world 17 payload, some (.registered op mailboxID secret url routerURL)) ∈
      d.session ins ∧
    unmarshalIdentityRegisterReq d.np payload = .ok req ∧ req.pubkey = pub ∧
    RouterAt locate routerURL

variable (d ins locate) in
/-- A frame was sent to the key : to an address that the bridge has resolved it to. -/
def Mails (pub frame : Bytes) : Prop :=
  ∃ mailboxID url, d.BridgeResolved locate ins pub mailboxID url ∧
    d.BridgeSent ins mailboxID url frame

variable (d ins locate) in
/-- The mailbox of the key is attached at no other server than its registration has named. -/
def Attends (pub : Bytes) : Prop :=
  ∀ req, Attaches d.np (d.session ins) req → req.mailboxID = (d.mailboxOf pub).toList →
    d.BridgeRegistered locate ins pub req.shardURL

theorem Configured.shardAt (hc : d.Configured locate) (hi : d.HomeOf mid i) {url : Bytes}
    (h : d.Homes mid url) : ShardAt locate url i := by
  obtain ⟨ref, hfind, hhome⟩ := h
  obtain ⟨hmem, rfl⟩ := Router.Config.findShard_eq_some hfind
  rw [homeOf_unique hi hhome]
  exact hc.leads ref hmem

/-- A resolve through a bridge gives the mailbox of the key and a server that has it. -/
theorem homes_of_bridgeResolved (hnp : d.np.Lawful) (hjs : js.Lawful) (hc : d.Configured locate)
    (h : d.Session locate es moment ins) {pub mailboxID url : Bytes}
    (hres : d.BridgeResolved locate ins pub mailboxID url) :
    mailboxID = (d.mailboxOf pub).toList ∧ d.Homes (d.mailboxOf pub) url := by
  obtain ⟨world, payload, req, hmem, hreq, rfl, hne, hrouter⟩ := hres
  obtain ⟨s, s', -, hdoes, hw⟩ := h.turn hjs hmem
  cases hdoes with
  | @resolved _ req' mid _ hreq' hresolve =>
    cases hreq.symm.trans hreq'
    rw [CourierWorld.routerFor, if_neg hne] at hresolve
    obtain ⟨rfl, hhomes⟩ := resolved_of_resolve hnp hc.nonempty hw hrouter hresolve
    exact ⟨rfl, hhomes⟩

/-- So does a registration. -/
theorem homes_of_bridgeRegistered (hnp : d.np.Lawful) (hjs : js.Lawful)
    (hc : d.Configured locate) (h : d.Session locate es moment ins) {pub url : Bytes}
    (hreg : d.BridgeRegistered locate ins pub url) : d.Homes (d.mailboxOf pub) url := by
  obtain ⟨world, payload, op, mailboxID, secret, routerURL, req, hmem, hreq, rfl, hrouter⟩ := hreg
  obtain ⟨s, s', -, hdoes, hw⟩ := h.turn hjs hmem
  obtain ⟨q, hq, -, hhomes⟩ := registered_of_does hnp hc.nonempty hw hrouter hdoes
  cases hq with
  | identity hreq' =>
    cases hreq.symm.trans hreq'
    exact hhomes

variable (d es i mid) in
/-- The frames that were accepted for a mailbox, in order. -/
def acceptedFrames : List Bytes :=
  (BurnQueue.accepted ((d.taskActs i mid es).map Prod.snd)).map StoredMessage.envelope

/-- A frame that a bridge reports as sent to the key was accepted for its mailbox. -/
theorem mem_acceptedFrames (hnp : d.np.Lawful) (hjs : js.Lawful) (hc : d.Configured locate)
    (h : d.Session locate es moment ins) {pub frame : Bytes} (hi : d.HomeOf (d.mailboxOf pub) i)
    (hmail : d.Mails locate ins pub frame) : frame ∈ d.acceptedFrames es i (d.mailboxOf pub) := by
  obtain ⟨mailboxID, url, hres, world, payload, o, req, hmem, hok, hreq, hid, hurl, hne, rfl⟩ :=
    hmail
  obtain ⟨rfl, hhomes⟩ := homes_of_bridgeResolved hnp hjs hc h hres
  obtain ⟨s, s', -, hdoes, hw⟩ := h.turn hjs hmem
  obtain ⟨req', mid, url', hreq', htarget, hsent⟩ := sent_of_does hnp hw hdoes hok
  cases hreq.symm.trans hreq'
  have hnamed : req.mailboxID.length = 16 ∧ req.shardURL ≠ [] := by
    rw [hid, hurl, List.Vector.toList_length]
    exact ⟨rfl, hne⟩
  rw [CourierWorld.sendTarget, if_pos hnamed, hid, copyArr_self, hurl] at htarget
  cases htarget
  obtain ⟨k, m, hact, henv⟩ := hsent i (hc.shardAt hi hhomes)
  exact List.mem_map.mpr ⟨m, List.mem_filterMap.mpr ⟨_, List.mem_map_of_mem hact, rfl⟩, henv⟩

/-- What a bridge polls for a mailbox are accepted frames, in order. -/
theorem polled_sublist (hnp : d.np.Lawful) (hjs : js.Lawful) (h : d.Session locate es moment ins)
    (hat : d.AttachesAt ins locate mid i) :
    ((d.session ins).flatMap (polledFrames d.np mid)).Sublist (d.acceptedFrames es i mid) := by
  obtain ⟨more, hmore⟩ := taskActs_mono d i mid (h.within ins.length)
  have hdrained : (BurnQueue.drained ((d.taskActs i mid (moment ins.length)).map Prod.snd)).Sublist
      (BurnQueue.drained ((d.taskActs i mid es).map Prod.snd)) := by
    rw [hmore, List.map_append, BurnQueue.drained_append]
    exact List.sublist_append_left _ _
  have haccepted := (List.sublist_append_left _ _).trans (handed_relay d es i mid)
  exact (polled_run hnp hjs h hat List.prefix_rfl).trans ((hdrained.trans haccepted).map _)

/-- What the owner of a key and those who write to it can rely on. -/
structure KeyMail (d : Deployment) (locate : Locate) (es : List RelayEvent) (i : ℕ) (pub : Bytes)
    (owner : List (CourierInput js)) : Prop where
  /-- The owner polls accepted frames in order, each once. -/
  polled : ((d.session owner).flatMap (polledFrames d.np (d.mailboxOf pub))).Sublist
    (d.acceptedFrames es i (d.mailboxOf pub))
  /-- What a sender was told is sent was accepted. -/
  sent : ∀ {moment : ℕ → List RelayEvent} {sender : List (CourierInput js)} {frame : Bytes},
    d.Session locate es moment sender → d.Mails locate sender pub frame →
      frame ∈ d.acceptedFrames es i (d.mailboxOf pub)

/-- Those who write to a key and its owner meet at one mailbox of one shard. -/
theorem key_mail (d : Deployment) (hnp : d.np.Lawful) (hjs : js.Lawful) (locate : Locate)
    (hc : d.Configured locate) (es : List RelayEvent) (pub : Bytes)
    {moment : ℕ → List RelayEvent} {owner : List (CourierInput js)}
    (h : d.Session locate es moment owner) (hattends : d.Attends locate owner pub) :
    ∃ i, d.HomeOf (d.mailboxOf pub) i ∧ d.KeyMail locate es i pub owner := by
  obtain ⟨ref, -, hi⟩ := homes_owner hc.nonempty (d.mailboxOf pub)
  refine ⟨ref.store, hi, polled_sublist hnp hjs h fun req hreq hid => ?_, fun hs hmail =>
    mem_acceptedFrames hnp hjs hc hs hi hmail⟩
  exact hc.shardAt hi (homes_of_bridgeRegistered hnp hjs hc h (hattends req hreq hid))

/-! ## A letter -/

/-- The frame as the bridge of the writer sends it. -/
def sampleLetter : SendMessage where
  mailboxID := sampleMessage.mailboxID
  envelope := [7, 8]
  senderPub := (copyArr 32 []).toList
  timestamp := 100000
  nonce := (copyArr 16 []).toList
  signature := (copyArr 64 []).toList
  ttlHintSec := UInt32.ofNat msgTTLSeconds.toNat
  burn := 1

/-- A registration, a resolve of its key, a message to the mailbox and a read of it. -/
def sampleLetters : List RelayEvent :=
  inTurn sampleEnv
    [(.router, bridgePost .register (marshalRegister NanoPack.reference sampleRegister)),
      (.router, bridgePost .resolve (marshalResolve NanoPack.reference ⟨sampleRegister.clientPub⟩)),
      (.shard 0, bridgePost .send (marshalSendMessage NanoPack.reference sampleLetter)),
      (.shard 0, bridgePost .receive (marshalReceiveMessages NanoPack.reference sampleReceive))]

/-- The run up to request `k`. -/
def lettersUpTo (k : ℕ) : List RelayEvent :=
  sampleLetters.take (7 * k)

/-- How many requests of the run have arrived before the requests of the owner's core. -/
def ownerClock : ℕ → ℕ
  | 0 | 1 => 0
  | 2 => 1
  | 3 => 3
  | _ => 4

/-- The same for the writer's core. -/
def writerClock : ℕ → ℕ
  | 0 => 0
  | 1 => 1
  | 2 => 2
  | _ => 3

/-- A bridge that is started, registers the key, attaches the mailbox and polls it. -/
noncomputable def sampleOwner : List (CourierInput .reference) :=
  [.request (sampleWorld (lettersUpTo 0) 4) 2 (layout [⟨1, [1]⟩]),
    .request (sampleWorld (lettersUpTo 1) 0) 17 (layout [⟨1, sampleRegister.clientPub⟩,
      ⟨2, putU64 sampleRegister.timestamp⟩, ⟨3, sampleRegister.nonce⟩,
      ⟨4, sampleRegister.signature⟩, ⟨5, ascii "r"⟩]),
    .request (sampleWorld (lettersUpTo 3) 4) 4 (layout [⟨1, sampleMessage.mailboxID⟩,
      ⟨2, sampleTicket.toList⟩, ⟨3, ascii "a"⟩]),
    .request (sampleWorld (lettersUpTo 4) 3) 6 (layout [⟨1, [8]⟩, ⟨2, sampleMessage.mailboxID⟩])]

/-- A bridge that is started, resolves the key and sends a frame to it. -/
noncomputable def sampleWriter : List (CourierInput .reference) :=
  [.request (sampleWorld (lettersUpTo 1) 4) 2 (layout [⟨1, [1]⟩]),
    .request (sampleWorld (lettersUpTo 2) 1) 10 (layout [⟨1, sampleRegister.clientPub⟩,
      ⟨2, ascii "r"⟩]),
    .request (sampleWorld (lettersUpTo 3) 2) 3 (layout [⟨1, [7, 8]⟩, ⟨4, sampleMessage.mailboxID⟩,
      ⟨5, ascii "a"⟩])]

theorem outcomes_sampleLetters :
    (sampleDeployment.session sampleOwner).map Prod.snd =
      [some (.acked 2), some (.registered 17 sampleMessage.mailboxID sampleTicket.toList (ascii "a")
        (ascii "r")), some (.acked 4), some (.polled [[7, 8]])] ∧
    (sampleDeployment.session sampleWriter).map Prod.snd =
      [some (.acked 2), some (.resolved sampleMessage.mailboxID (ascii "a")), some (.acked 3)] := by
  decide +kernel

theorem session_sampleOwner : sampleDeployment.Session sampleLocate sampleLetters
    (fun n => lettersUpTo (ownerClock n)) sampleOwner where
  later
    | 0 | 1 | 2 | 3 => List.take_prefix_take_left (by decide)
    | _ + 4 => List.prefix_rfl
  within n := List.take_prefix _ _
  wired
    | 0, _, _, _, h, s => by
      cases h
      exact wired_sampleWorld (by decide) s
    | 1, _, _, _, h, s => by
      cases h
      exact wired_sampleWorld (by decide) s
    | 2, _, _, _, h, s => by
      cases h
      exact wired_sampleWorld (by decide) s
    | 3, _, _, _, h, s => by
      cases h
      exact wired_sampleWorld (by decide) s
    | _ + 4, _, _, _, h, _ => nomatch h
  plain r hr := by
    have hout := outcome_of_creates hr
    rw [outcomes_sampleLetters.1] at hout
    simp at hout

theorem session_sampleWriter : sampleDeployment.Session sampleLocate sampleLetters
    (fun n => lettersUpTo (writerClock n)) sampleWriter where
  later
    | 0 | 1 | 2 => List.take_prefix_take_left (by decide)
    | _ + 3 => List.prefix_rfl
  within n := List.take_prefix _ _
  wired
    | 0, _, _, _, h, s => by
      cases h
      exact wired_sampleWorld (by decide) s
    | 1, _, _, _, h, s => by
      cases h
      exact wired_sampleWorld (by decide) s
    | 2, _, _, _, h, s => by
      cases h
      exact wired_sampleWorld (by decide) s
    | _ + 3, _, _, _, h, _ => nomatch h
  plain r hr := by
    have hout := outcome_of_creates hr
    rw [outcomes_sampleLetters.2] at hout
    simp at hout

theorem configured_sampleLocate : sampleDeployment.Configured sampleLocate where
  nonempty := List.cons_ne_nil _ _
  leads ref href := by
    rw [List.mem_singleton.mp href]
    exact shardAt_sampleLocate

theorem routerAt_sampleLocate : RouterAt sampleLocate (ascii "r") := by
  intro route _
  cases route <;> rfl

theorem unmarshal_sampleLetters :
    unmarshalIdentityRegisterReq NanoPack.reference (layout [⟨1, sampleRegister.clientPub⟩,
        ⟨2, putU64 sampleRegister.timestamp⟩, ⟨3, sampleRegister.nonce⟩,
        ⟨4, sampleRegister.signature⟩, ⟨5, ascii "r"⟩]) =
      .ok ⟨sampleRegister.clientPub, sampleRegister.timestamp, sampleRegister.nonce,
        sampleRegister.signature, ascii "r"⟩ ∧
    (unmarshalAttach NanoPack.reference (layout [⟨1, sampleMessage.mailboxID⟩,
        ⟨2, sampleTicket.toList⟩, ⟨3, ascii "a"⟩])).map AttachReq.shardURL = .ok (ascii "a") ∧
    unmarshalResolveReq NanoPack.reference (layout [⟨1, sampleRegister.clientPub⟩,
        ⟨2, ascii "r"⟩]) = .ok ⟨sampleRegister.clientPub, ascii "r"⟩ ∧
    unmarshalSend NanoPack.reference (layout [⟨1, [7, 8]⟩, ⟨4, sampleMessage.mailboxID⟩,
        ⟨5, ascii "a"⟩]) = .ok ⟨[7, 8], [], sampleMessage.mailboxID, ascii "a"⟩ := by
  decide +kernel

theorem registered_sampleOwner : sampleDeployment.BridgeRegistered sampleLocate sampleOwner
    sampleRegister.clientPub (ascii "a") := by
  have hout := (List.cons.inj (List.cons.inj outcomes_sampleLetters.1).2).1.symm
  exact ⟨_, _, 17, _, _, ascii "r", _, Machine.mem_trace.mpr ⟨[_], _, rfl, hout⟩,
    unmarshal_sampleLetters.1, rfl, routerAt_sampleLocate⟩

theorem attends_sampleOwner :
    sampleDeployment.Attends sampleLocate sampleOwner sampleRegister.clientPub := by
  rintro req ⟨world, payload, hmem, hreq⟩ -
  have hurl : (unmarshalAttach NanoPack.reference payload).map AttachReq.shardURL =
      .ok (ascii "a") := by
    have hasked := asked_of_session hmem
    simp [sampleOwner, CourierInput.asked] at hasked
    rw [hasked]
    exact unmarshal_sampleLetters.2.1
  rw [show unmarshalAttach NanoPack.reference payload = .ok req from hreq] at hurl
  rw [Except.ok.inj hurl]
  exact registered_sampleOwner

theorem mails_sampleWriter : sampleDeployment.Mails sampleLocate sampleWriter
    sampleRegister.clientPub [7, 8] := by
  have hresolved := (List.cons.inj (List.cons.inj outcomes_sampleLetters.2).2).1.symm
  have hsent := (List.cons.inj (List.cons.inj (List.cons.inj outcomes_sampleLetters.2).2).2).1.symm
  obtain ⟨-, -, hresolve, hsend⟩ := unmarshal_sampleLetters
  exact ⟨sampleMessage.mailboxID, ascii "a", ⟨_, _, _,
    Machine.mem_trace.mpr ⟨[_], _, rfl, hresolved⟩, hresolve, rfl, by decide,
    routerAt_sampleLocate⟩, _, _, _, _, Machine.mem_trace.mpr ⟨[_, _], _, rfl, hsent⟩,
    (fun _ _ h => by cases h), hsend, rfl, rfl, by decide, rfl⟩

theorem key_mail_sampleLetters :
    let pub := sampleRegister.clientPub
    let mid := sampleDeployment.mailboxOf pub
    (sampleDeployment.session sampleOwner).flatMap (polledFrames NanoPack.reference mid) =
      [[7, 8]] ∧
    ∃ i, sampleDeployment.KeyMail sampleLocate sampleLetters i pub sampleOwner ∧
      [7, 8] ∈ sampleDeployment.acceptedFrames sampleLetters i mid := by
  obtain ⟨i, -, hmail⟩ := key_mail sampleDeployment NanoPack.reference_lawful
    BindingsJSON.reference_lawful sampleLocate configured_sampleLocate sampleLetters
    sampleRegister.clientPub session_sampleOwner attends_sampleOwner
  exact ⟨by decide +kernel, i, hmail, hmail.sent session_sampleWriter mails_sampleWriter⟩

end Deployment

end FileRelay
