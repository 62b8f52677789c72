import FileRelay.Files
import FileRelay.Mail
import FileRelay.Sessions

/-!
# Bridges and a relay

A bridge is wired to a run of the relay if every answer it gets from one of its servers is an
answer of the run to the request it made (`Wired`). `answered_of_gets` turns a post of the bridge
that was answered with status 200 into a request of the run that asks what the bridge wanted, and
with it a reply of the bridge into what the stores did : a chunk that was put (`uploaded_of_put`),
read (`downloaded_of_got`), a transfer that was created (`created_of_does`), a message that was sent
(`sent_of_does`) or read (`read_of_fetch`).
-/

namespace FileRelay

open NanoPack (Codec layout)
open Pool (started history answers turns)
open Fallible

/-! ## Requests on the wire -/

/-- The request of `postBinary`, as the server gets it. -/
structure HTTPRequest.Posts (r : HTTPRequest) (path body : Bytes) : Prop where
  method : r.method = .post
  path : r.path = path
  contentLength : r.contentLength = body.length
  body : r.body = body
  whole : r.broken = false

/-- The request that `postBinary` makes. -/
def posted (path body : Bytes) : HTTPRequest :=
  ⟨.post, path, [], body.length, body, false⟩

/-- The body of what is asked, as its clients encode it. -/
def Ask.marshal (np : Codec) : Ask → Wire Bytes
  | register q => marshalRegister np q
  | resolve q => marshalResolve np q
  | send m => marshalSendMessage np m
  | receive q => marshalReceiveMessages np q
  | ack q => marshalMessageAck np q
  | create t => marshalTransferCreate np t
  | put c => marshalChunkUpload np c
  | get q => marshalChunkDownload np q
  | resume q => marshalResumeRequest np q
  | complete t => marshalTransferComplete np t
  | cancel t => marshalTransferCancel np t

/-- A ticket is absent or has its width. -/
def Ask.Plain : Ask → Prop
  | get q => PlainTicket q.ticket
  | resume q => PlainTicket q.ticket
  | _ => True

/-- A handler decodes what a client encodes. -/
theorem decodeRequest_posts {α β : Type} {c : RequestCodec α β} {limit : ℕ} {plain : α → Prop}
    {np : Codec} (hc : c.Lawful limit plain) (hnp : np.Lawful) {r : HTTPRequest} {a : α}
    {path body : Bytes} (hp : plain a) (hm : c.marshal np a = .ok body) (hr : r.Posts path body) :
    decodeRequest r limit (fun b => c.unmarshal np b) = .ok a := by
  obtain ⟨hlen, -, hread, hun⟩ := (hc.agree hnp).round_trip a body hp hm
  have hraw : readRequest r limit = .ok body := by
    unfold readRequest
    rw [if_neg (by rw [hr.contentLength]; omega), if_neg (by simp [hr.whole]), hr.body,
      List.take_of_length_le (by omega), hread]
  unfold decodeRequest
  rw [hraw]
  exact hun

theorem asks_of_posts {np : Codec} (hnp : np.Lawful) {r : HTTPRequest} {ask : Ask} {body : Bytes}
    (hp : ask.Plain) (hm : ask.marshal np = .ok body) (hr : r.Posts ask.route.path body) :
    r.Asks np ask := by
  refine ⟨hr.method, route_of_spells (spells_of_path hr.path), ?_⟩
  cases ask with
  | register q => exact decodeRequest_posts registerCodec_lawful hnp trivial hm hr
  | resolve q => exact decodeRequest_posts resolveCodec_lawful hnp trivial hm hr
  | send m => exact decodeRequest_posts sendMessageCodec_lawful hnp trivial hm hr
  | receive q => exact decodeRequest_posts receiveMessagesCodec_lawful hnp trivial hm hr
  | ack q => exact decodeRequest_posts messageAckCodec_lawful hnp trivial hm hr
  | create t => exact decodeRequest_posts transferCreateCodec_lawful hnp trivial hm hr
  | put c => exact decodeRequest_posts chunkUploadCodec_lawful hnp trivial hm hr
  | get q => exact decodeRequest_posts chunkDownloadCodec_lawful hnp hp hm hr
  | resume q => exact decodeRequest_posts resumeRequestCodec_lawful hnp hp hm hr
  | complete t => exact decodeRequest_posts transferCompleteCodec_lawful hnp trivial hm hr
  | cancel t => exact decodeRequest_posts transferCancelCodec_lawful hnp trivial hm hr

/-! ## Wires -/

/-- Where a URL leads : the host and the path there. -/
abbrev Locate := Bytes → Option (Host × Bytes)

/-- The routes of a shard. -/
def Route.ofShard : Route → Bool
  | .hello | .register | .resolve | .table => false
  | _ => true

/-- The base URL is one of shard `i`. -/
def ShardAt (locate : Locate) (base : Bytes) (i : ℕ) : Prop :=
  ∀ route : Route, route.ofShard = true →
    locate (Bridge.joinURL base route.path) = some (.shard i, route.path)

/-- The base URL is one of the router. -/
def RouterAt (locate : Locate) (base : Bytes) : Prop :=
  ∀ route ∈ [Route.register, Route.resolve],
    locate (Bridge.joinURL base route.path) = some (.router, route.path)

/-- The host of what is asked. -/
def Ask.At (locate : Locate) (base : Bytes) (ask : Ask) (host : Host) : Prop :=
  locate (Bridge.joinURL base ask.route.path) = some (host, ask.route.path)

namespace Deployment

variable (d : Deployment) {js : BindingsJSON}

/-- What the bridge is told by a server of the relay while the run goes on from `before` to `es` is
what the relay has answered to a request that arrived in that time. -/
def Wired (locate : Locate) (before es : List RelayEvent) {s : Courier js} (w : CourierWorld s) :
    Prop :=
  ∀ j url body status raw host path, locate url = some (host, path) →
    w.post j url body = .ok (status, raw) → ∃ k r resp, (started before).length ≤ k ∧
      (started es)[k]? = some (host, r) ∧ r.Posts path body ∧ resp ∈ answers k (d.trace es) ∧
      status.toNat = resp.status ∧ raw = resp.body

/-- A network that hands the answer of task `k` to whoever made its request. -/
def replyOf (locate : Locate) (es : List RelayEvent) (k : ℕ) (url body : Bytes) :
    Except String (UInt64 × Bytes) :=
  match locate url, (answers k (d.trace es)).head? with
  | some (host, path), some resp =>
    if (started es)[k]? = some (host, posted path body) ∧ resp.status < 2 ^ 64 then
      .ok (UInt64.ofNat resp.status, resp.body)
    else .error "unreachable"
  | _, _ => .error "unreachable"

variable {d} {locate : Locate} {before es : List RelayEvent} {s : Courier js} {w : CourierWorld s}

theorem wired_of_replyOf {k : ℕ} (hk : (started before).length ≤ k)
    (hw : ∀ j, w.post j = d.replyOf locate es k) : d.Wired locate before es w := by
  intro j url body status raw host path hloc hpost
  rw [hw j, replyOf, hloc] at hpost
  cases hresp : (answers k (d.trace es)).head? with
  | none =>
    rw [hresp] at hpost
    cases hpost
  | some resp =>
    rw [hresp] at hpost
    dsimp only at hpost
    split_ifs at hpost with hserved
    cases hpost
    exact ⟨k, _, resp, hk, hserved.1, ⟨rfl, rfl, rfl, rfl, rfl⟩, List.mem_of_mem_head? hresp,
      UInt64.toNat_ofNat_of_lt' hserved.2, rfl⟩

theorem answers_mono {pre : List RelayEvent} (hpre : pre <+: es) {k : ℕ} {resp : Response}
    (h : resp ∈ answers k (d.trace pre)) : resp ∈ answers k (d.trace es) := by
  obtain ⟨post, rfl⟩ := hpre
  rw [trace, Machine.trace_append, Pool.answers_append]
  exact List.mem_append_left _ h

theorem Wired.mono {after : List RelayEvent} (hw : d.Wired locate before after w)
    (hpre : after <+: es) : d.Wired locate [] es w := by
  intro j url body status raw host path hloc hpost
  obtain ⟨k, r, resp, -, hx, hr, hresp, hrest⟩ := hw _ _ _ _ _ _ _ hloc hpost
  exact ⟨k, r, resp, Nat.zero_le k, Pool.started_mono hpre hx, hr, answers_mono hpre hresp, hrest⟩

/-- A post that was answered with status 200 is a request of the run that was. -/
theorem answered_of_gets (hnp : d.np.Lawful) (hw : d.Wired locate before es w) {j : ℕ}
    {base body raw : Bytes} (ask : Ask) {host : Host} (hat : ask.At locate base host)
    (hp : ask.Plain) (hm : ask.marshal d.np = .ok body)
    (hg : w.Gets j base ask.route.path body raw) : ∃ k r resp, (started before).length ≤ k ∧
      (started es)[k]? = some (host, r) ∧ r.Asks d.np ask ∧ resp ∈ answers k (d.trace es) ∧
      resp.status = 200 ∧ raw = resp.body.take (2 <<< 20) := by
  obtain ⟨⟨status, raw'⟩, hpost, heq⟩ := map_eq_ok_iff.mp hg
  obtain ⟨k, r, resp, hk, hx, hr, hresp, hstatus, rfl⟩ := hw _ _ _ _ _ _ _ hat hpost
  obtain ⟨h200, hraw⟩ := Prod.mk.inj heq
  exact ⟨k, r, resp, hk, hx, asks_of_posts hnp hp hm hr, hresp, hstatus.symm.trans h200,
    hraw.symm⟩

/-- A body that is shorter than the limit of the client is whole. -/
theorem eq_of_take {raw body : Bytes} {n : ℕ} (h : raw = body.take n) (hlen : raw.length < n) :
    raw = body := by
  rw [h, List.length_take] at hlen
  rw [h, List.take_of_length_le (by omega)]

/-- What the answer to a download says. -/
theorem read_get (hnp : d.np.Lawful) {k i : ℕ} {r : HTTPRequest} {q : ChunkDownload}
    {resp : Response} (hx : (started es)[k]? = some (.shard i, r)) (hasks : r.Asks d.np (.get q))
    (hresp : resp ∈ answers k (d.trace es)) (hstatus : resp.status = 200) :
    ∃ payload hash, unmarshalChunkDownloadResponse d.np resp.body =
      .ok ⟨(copyArr 16 q.transferID).toList, q.index, payload, hash⟩ := by
  obtain ⟨c, reply, a, pre, env, hcall, hreply, -, -, hread⟩ :=
    told_of_status hnp hx hasks hresp hstatus
  rw [Ask.lastCall] at hcall
  split_ifs at hcall
  all_goals
    cases hcall
    rcases a with e | out
    · cases hreply
    · cases hreply
      exact ⟨_, _, hread trivial⟩

variable {payload : Bytes} {s' : Courier js} {o : Outcome}

/-- A chunk whose put the bridge reports was put. -/
theorem uploaded_of_put (hnp : d.np.Lawful) (hw : d.Wired locate before es w)
    (h : Does d.H d.np w 12 payload s' o) (hok : ∀ code e, o ≠ .failed code e) :
    ∃ req bind, unmarshalXferPut d.np payload = .ok req ∧ s.Bound req.transferID bind ∧
      ∀ i, ShardAt locate bind.shardURL i →
        ∃ k, d.Uploaded es i (copyArr 16 req.transferID) k req.index.toNat req.payload := by
  cases h with
  | failed code e hs => exact absurd rfl (hok code e)
  | registered hq => cases hq
  | @put _ body raw req bind ack hreq hbind hbody hgets hres =>
    refine ⟨req, bind, hreq, hbind, fun i hat => ?_⟩
    obtain ⟨k, r, resp, -, hx, hasks, hresp, hstatus, -⟩ :=
      answered_of_gets hnp hw (.put req.upload) (hat .put rfl) trivial hbody hgets
    exact ⟨k, r, req.upload, resp, hx, hasks, rfl, rfl, rfl, hresp, hstatus⟩

/-- A chunk that the bridge hands over was read. -/
theorem downloaded_of_got (hnp : d.np.Lawful) (hw : d.Wired locate before es w) {p hash : Bytes}
    (h : Does d.H d.np w 14 payload s' (.chunk p hash)) : ∃ req url q,
      unmarshalXferGet d.np payload = .ok req ∧ req.Goes s url q ∧ ∀ i, ShardAt locate url i →
        ∃ k, d.Downloaded es i (copyArr 16 req.transferID) k req.index.toNat p := by
  cases h with
  | @got _ url body raw req q res _ hs hreq hgoes hbody hgets hres hhash =>
    refine ⟨req, url, q, hreq, hgoes, fun i hat => ?_⟩
    have hq : q.transferID = req.transferID ∧ q.index = req.index ∧ PlainTicket q.ticket := by
      cases hgoes with
      | ticket ht => exact ⟨rfl, rfl, .inr ht⟩
      | owner hb => exact ⟨rfl, rfl, .inl rfl⟩
    obtain ⟨k, r, resp, -, hx, hasks, hresp, hstatus, hraw⟩ :=
      answered_of_gets hnp hw (.get q) (hat .get rfl) hq.2.2 hbody hgets
    obtain rfl := eq_of_take hraw ((unmarshal_eq_ok hres).1.trans_lt (by decide))
    obtain ⟨payload', hash', hread⟩ := read_get hnp hx hasks hresp hstatus
    cases hres.symm.trans hread
    exact ⟨k, r, q, resp, hash', hx, hasks, by rw [hq.1], by rw [hq.2.1], hresp, hstatus,
      by rw [hread, hq.1]⟩

/-- The create behind a binding. -/
theorem askShard_eq_ok {H : Bytes → Digest} {np : Codec} {cw : CreateWorld}
    {res : TransferCreateResponse} {bind : TransferBind}
    (h : askShard H np cw payload = .ok (res, bind)) : ∃ req nonce,
      unmarshalXferCreate np payload = .ok req ∧
      createTarget cw req = .ok (bind.mailboxID, bind.shardURL) ∧
      cw.answer bind.shardURL (createRequest H cw req bind.mailboxID nonce) = .ok res := by
  unfold askShard at h
  split at h
  · cases h
  rename_i req hreq
  split at h
  · cases h
  rename_i mailbox shardURL htarget
  split at h
  · cases h
  rename_i nonce hnonce
  split at h
  · cases h
  split at h
  · cases h
  rename_i hres
  cases h
  exact ⟨req, nonce, hreq, htarget, hres⟩

/-- A transfer that the bridge reports was created. -/
theorem created_of_does (hnp : d.np.Lawful) (hw : d.Wired locate before es w) {r : XferCreated}
    (h : Does d.H d.np w 11 payload s' (.created r)) : ∃ req q, ∃ tid : ID, ∃ ticket : ByteArr 32,
      unmarshalXferCreate d.np payload = .ok req ∧ r.transferID = tid.toList ∧
      r.downloadSecret = ticket.toList ∧ q.totalSize = req.total ∧ q.chunkCount = req.chunkCount ∧
      ∀ i, ShardAt locate r.shardURL i → ∃ k, d.Created es i tid k q ticket := by
  cases h with
  | @created _ res bind hask =>
    obtain ⟨req, nonce, hreq, -, hanswer⟩ := askShard_eq_ok hask
    obtain ⟨body, hbody, hanswer⟩ := bind_eq_ok_iff.mp hanswer
    obtain ⟨raw, hraw, hres⟩ := bind_eq_ok_iff.mp hanswer
    refine ⟨req, createRequest d.H (w.createWorld d.np payload) req bind.mailboxID nonce,
      res.transferID, res.downloadSecret, hreq, rfl, rfl, rfl, rfl, fun i hat => ?_⟩
    obtain ⟨k, r, resp, -, hx, hasks, hresp, hstatus, htake⟩ := answered_of_gets hnp hw (.create _)
      (hat .create rfl) trivial (ofWire_eq_ok.mp hbody) (xferAnswer_eq_ok hraw)
    have hres := ofWire_eq_ok.mp hres
    obtain ⟨out, hout, -⟩ := wire_bind_eq_ok.mp hres
    obtain rfl := eq_of_take htake ((unmarshal_eq_ok hout).1.trans_lt (by decide))
    obtain ⟨c, reply, a, pre, env, hcall, hreply, -, -, hread⟩ :=
      told_of_status hnp hx hasks hresp hstatus
    cases hcall
    rcases a with e | ⟨tid, ticket, exp⟩
    · cases hreply
    · cases hreply
      cases hres.symm.trans (hread trivial)
      exact ⟨k, r, resp, _, hx, hasks, hresp, hstatus, hread trivial⟩

/-- A message that the bridge reports as sent was accepted. -/
theorem sent_of_does (hnp : d.np.Lawful) (hw : d.Wired locate before es w)
    (h : Does d.H d.np w 3 payload s' o) (hok : ∀ code e, o ≠ .failed code e) : ∃ req mid url,
      unmarshalSend d.np payload = .ok req ∧ w.sendTarget d.np req = .ok (mid, url) ∧
      ∀ i, ShardAt locate url i → ∃ k m, (k, .accepted m) ∈ d.taskActs i mid es ∧
        m.envelope = req.frame := by
  cases h with
  | failed code e hs => exact absurd rfl (hok code e)
  | registered hq => cases hq
  | @sent _ body raw url req mid nonce hreq htarget hbody hgets =>
    refine ⟨req, mid, url, hreq, htarget, fun i hat => ?_⟩
    obtain ⟨k, r, resp, -, hx, hasks, hresp, hstatus, -⟩ :=
      answered_of_gets hnp hw (.send _) (hat .send rfl) trivial hbody hgets
    obtain ⟨m, hm, henv⟩ := act_of_sent hnp hx hasks (copyArr_self mid) hresp hstatus
    exact ⟨k, m, hm, henv⟩

/-- A batch that the bridge has fetched was drained, for a request of the time of the fetch. -/
theorem read_of_fetch (hnp : d.np.Lawful) (hw : d.Wired locate before es w) {j i : ℕ} {mid : ID}
    {url secret : Bytes} {limit : ℤ} {got : List Bytes} (hat : ShardAt locate url i)
    (h : fetchBatch d.np (w.shardPost j) url mid.toList secret limit = .ok got) :
    ∃ k batch, (started before).length ≤ k ∧ (k, .drained batch) ∈ d.taskActs i mid es ∧
      got = batch.map StoredMessage.envelope := by
  obtain ⟨n, body, raw, res, hbody, hpost, hres, rfl⟩ := fetchBatch_eq_ok h
  obtain ⟨k, r, resp, hk, hx, hasks, hresp, hstatus, htake⟩ := answered_of_gets hnp hw (.receive _)
    (hat .receive rfl) trivial hbody (mapError_eq_ok_iff.mp hpost)
  obtain ⟨b, hb, -⟩ := wire_bind_eq_ok.mp hres
  obtain rfl := eq_of_take htake ((unmarshal_eq_ok hb).1.trans_lt (by decide))
  obtain ⟨batch, hact⟩ := act_of_read hnp hx hasks (copyArr_self mid) (by decide : (0 : UInt8) ≠ 1)
    hresp hstatus
  refine ⟨k, batch, hk, hact, ?_⟩
  obtain ⟨r', q', resp', -, -, -, hresp', -, hread⟩ := readBy_of_act hnp hact
  rw [hresp', List.mem_singleton] at hresp
  subst hresp
  rw [Except.ok.inj (hres.symm.trans hread), List.map_map]
  rfl

end Deployment

end FileRelay
