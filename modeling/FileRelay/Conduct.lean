import FileRelay.Replies
import FileRelay.Routes

/-!
# What the handlers do

Along every path of a handler : which calls it makes and what it has established before
(`Entitled`), that it makes no call after its last one (`Unfinished`), and what it answers and on
which grounds (`Accounted`). `conduct` proves this for the handlers of the router and of the shards.
What is proved about runs of `relay` later on goes through it, and no other proof about them opens a
handler.
-/

namespace FileRelay

open NanoPack (Field Codec layout)
open Fallible

/-! ## Requests and histories -/

/-- The body of a request as its handler decodes it. -/
inductive Ask
  | register (q : Register)
  | resolve (q : Resolve)
  | send (m : SendMessage)
  | receive (q : ReceiveMessages)
  | ack (q : MessageAck)
  | create (t : TransferCreate)
  | put (c : ChunkUpload)
  | get (q : ChunkDownload)
  | resume (q : ResumeRequest)
  | complete (t : TransferComplete)
  | cancel (t : TransferCancel)

def Ask.route : Ask → Route
  | register _ => .register
  | resolve _ => .resolve
  | send _ => .send
  | receive _ => .receive
  | ack _ => .ack
  | create _ => .create
  | put _ => .put
  | get _ => .get
  | resume _ => .resume
  | complete _ => .complete
  | cancel _ => .cancel

/-- The body decodes to what is asked. -/
def Ask.Decodes (np : Codec) (r : HTTPRequest) : Ask → Prop
  | register q => decodeRequest r 256 (unmarshalRegister np) = .ok q
  | resolve q => decodeRequest r 128 (unmarshalResolve np) = .ok q
  | send m => decodeRequest r maxRequestBytes (unmarshalSendMessage np) = .ok m
  | receive q => decodeRequest r 256 (unmarshalReceiveMessages np) = .ok q
  | ack q => decodeRequest r (maxBatchMessages * 16 + 256) (unmarshalMessageAck np) = .ok q
  | create t => decodeRequest r (maxManifestBytes + 512) (unmarshalTransferCreate np) = .ok t
  | put c => decodeRequest r (maxChunkBytes + 2048) (unmarshalChunkUpload np) = .ok c
  | get q => decodeRequest r 256 (unmarshalChunkDownload np) = .ok q
  | resume q => decodeRequest r 256 (unmarshalResumeRequest np) = .ok q
  | complete t => decodeRequest r 512 (unmarshalTransferComplete np) = .ok t
  | cancel t => decodeRequest r 256 (unmarshalTransferCancel np) = .ok t

/-- The request is a `POST` to the route of what it asks. -/
structure HTTPRequest.Asks (r : HTTPRequest) (np : Codec) (ask : Ask) : Prop where
  post : r.method = .post
  route : r.route = some ask.route
  decodes : ask.Decodes np r

/-- The calls of a handler with their answers. -/
abbrev History := List (Exchange RelayCall RelayCall.Answer)

/-- The clock read as `now`. -/
def clocked (now : ℤ) : Exchange RelayCall RelayCall.Answer :=
  ⟨.clock, now⟩

/-- A slot of a limiter, granted. -/
def granted (i : ℕ) (now : ℤ) (slot : Bytes × ℤ) : Exchange RelayCall RelayCall.Answer :=
  ⟨.allow i slot.1 now slot.2, true⟩

/-- A replay test, passed. -/
def unseen (i : ℕ) (key : Digest) : Exchange RelayCall RelayCall.Answer :=
  ⟨.store i (.checkAndMarkReplay key), false⟩

/-- A call of a store with its answer. -/
def answeredBy (i : ℕ) (c : StoreCall) (a : c.Answer) : Exchange RelayCall RelayCall.Answer :=
  ⟨.store i c, a⟩

/-- The last call of the handler of a shard for what is asked. -/
def Ask.lastCall : Ask → Option StoreCall
  | send m => some (.sendMessage m)
  | receive q => some (.receiveMessages (copyArr 16 q.mailboxID) q.readSecret q.batchLimit
      (q.peek == 1))
  | ack q => some (.ackMessages (copyArr 16 q.mailboxID) q.readSecret q.msgIDs q.disposition)
  | create t => some (.createTransfer t)
  | put c => some (.progress (copyArr 16 c.transferID))
  | get q =>
    if q.ticketMode then some (.getChunkByTicket (copyArr 16 q.transferID) q.ticket q.index)
    else some (.getChunk (copyArr 16 q.transferID) (copyArr 16 q.mailboxID) q.readSecret q.index)
  | resume q =>
    if q.ticketMode then some (.resumeByTicket (copyArr 16 q.transferID) q.ticket)
    else some (.resume (copyArr 16 q.transferID) (copyArr 16 q.mailboxID) q.readSecret)
  | complete t => some (.completeTransfer t)
  | cancel t => some (.cancelTransfer (copyArr 16 t.transferID) (copyArr 16 t.mailboxID)
      t.readSecret)
  | _ => none

/-- The calls a handler makes last. -/
def RelayCall.final : RelayCall → Bool
  | .store _ c => c.final
  | _ => false

/-- The handler has not made its last call. -/
def Unfinished (h : History) : Prop :=
  ∀ y ∈ h, y.1.final = false

theorem unfinished_nil : Unfinished [] :=
  fun _ hy => absurd hy List.not_mem_nil

theorem Unfinished.concat {h : History} (hu : Unfinished h) {c : RelayCall} (hc : c.final = false)
    (a : c.Answer) : Unfinished (h ++ [⟨c, a⟩]) := by
  intro y hy
  rcases List.mem_append.mp hy with hy | hy
  · exact hu y hy
  · rw [List.mem_singleton.mp hy]
    exact hc

theorem Unfinished.granted {h : History} (hu : Unfinished h) (i : ℕ) (now : ℤ)
    (slots : List (Bytes × ℤ)) : Unfinished (h ++ slots.map (FileRelay.granted i now)) := by
  intro y hy
  rcases List.mem_append.mp hy with hy | hy
  · exact hu y hy
  · obtain ⟨slot, -, rfl⟩ := List.mem_map.mp hy
    rfl

/-- The last call has no answer to tell, or none that can be encoded. -/
def Failed (np : Codec) (h : History) : Prop :=
  ∀ h₀ i c (a : c.Answer) reply body, h = h₀ ++ [answeredBy i c a] → c.reply a = some reply →
    reply.encode np ≠ .ok body

theorem failed_of_unfinished {np : Codec} {h : History} (hu : Unfinished h) : Failed np h := by
  rintro h₀ i c a reply body rfl hreply -
  have hfinal := hu _ (List.mem_append_right _ List.mem_cons_self)
  exact Bool.false_ne_true (hfinal.symm.trans (StoreCall.final_of_reply hreply))

theorem failed_concat {np : Codec} {h : History} {i : ℕ} {c : StoreCall} {a : c.Answer}
    (hfail : ∀ reply body, c.reply a = some reply → reply.encode np ≠ .ok body) :
    Failed np (h ++ [answeredBy i c a]) := by
  intro h₀ j c' a' reply body heq hreply
  obtain ⟨-, hlast⟩ := List.append_inj' heq rfl
  cases hlast
  exact hfail reply body hreply

namespace Deployment

variable (d : Deployment)

/-- The mailbox of a key. -/
def mailboxOf (pub : Bytes) : ID :=
  mailboxIDFromPub d.mac d.router.secret pub

/-- A signed request is past its signature, its replay test and the limiter, and its handler has
made no other calls. -/
structure Admitted (i : ℕ) (h : History) (q : Request) (now : ℤ) (slots : List (Bytes × ℤ)) :
    Prop where
  signed : q.auth d.H d.verify now = .ok ()
  calls : h = clocked now :: unseen i (q.replayKey d.H) :: slots.map (granted i now)

/-- The calls of a registration up to its replay test. -/
def registerCalls (r : HTTPRequest) (now : ℤ) : History :=
  [clocked now, ⟨.allowRegister (ascii "reg-ip:" ++ r.ip) now d.router.maxReg, true⟩]

/-- A registration is past its signature, its replay test and the limiter, and has drawn its
secret. -/
structure Registering (r : HTTPRequest) (h : History) (q : Register) (now : ℤ)
    (secret : ByteArr 32) : Prop where
  asks : r.Asks d.np (.register q)
  signed : authRegister d.verify q now = .ok ()
  calls : h = d.registerCalls r now ++
    [⟨.checkReplay q.clientPub q.nonce now, false⟩, ⟨.draw, some secret⟩]

/-- The shard that registers a mailbox. -/
def HomeOf (mid : ID) (i : ℕ) : Prop :=
  ∃ ref, d.router.findShard (owner d.H mid d.router.shardURLs) = some ref ∧ i = ref.store

/-- What a handler has established when it makes a call. -/
def Entitled (x : Host × HTTPRequest) (h : History) : RelayCall → Prop
  | .allow i _ now _ => x.1 = .shard i ∧ ∃ h', h = clocked now :: h'
  | .allowRegister _ now _ => x.1 = .router ∧ h = [clocked now]
  | .allowResolve _ now _ => x.1 = .router ∧ h = [clocked now]
  | .checkReplay pub nonce now => x.1 = .router ∧ ∃ q, x.2.Asks d.np (.register q) ∧
      pub = q.clientPub ∧ nonce = q.nonce ∧ authRegister d.verify q now = .ok () ∧
        h = d.registerCalls x.2 now
  | .store i (.createMailbox mid hash) => x.1 = .router ∧ ∃ q now secret,
      d.Registering x.2 h q now secret ∧ mid = d.mailboxOf q.clientPub ∧
        hash = d.H secret.toList ∧ d.HomeOf mid i
  | .store _ (.mailboxExists mid) => x.1 = .router ∧ ∃ q, x.2.Asks d.np (.resolve q) ∧
      mid = d.mailboxOf q.clientPub
  | .store i (.checkAndMarkReplay key) => x.1 = .shard i ∧ ∃ q : Request, ∃ now,
      h = [clocked now] ∧ q.auth d.H d.verify now = .ok () ∧ key = q.replayKey d.H
  | .store i (.sendMessage m) => x.1 = .shard i ∧ x.2.Asks d.np (.send m) ∧ ∃ now,
      d.Admitted i h (.send m) now (sendSlots d.limits.toRateLimits m x.2.ip)
  | .store i (.receiveMessages mid secret limit peek) => x.1 = .shard i ∧ ∃ q now,
      x.2.Asks d.np (.receive q) ∧ mid = copyArr 16 q.mailboxID ∧ secret = q.readSecret ∧
        limit = q.batchLimit ∧ peek = (q.peek == 1) ∧
        h = [clocked now, granted i now (ascii "recv-ip:" ++ x.2.ip, d.limits.receivesPerIP)]
  | .store i (.ackMessages mid secret ids disposition) => x.1 = .shard i ∧ ∃ q,
      x.2.Asks d.np (.ack q) ∧ mid = copyArr 16 q.mailboxID ∧ secret = q.readSecret ∧
        ids = q.msgIDs ∧ disposition = q.disposition
  | .store i (.createTransfer t) => x.1 = .shard i ∧ x.2.Asks d.np (.create t) ∧ ∃ now,
      d.Admitted i h (.create t) now (d.createSlots t x.2.ip)
  | .store i (.putChunk c) => x.1 = .shard i ∧ x.2.Asks d.np (.put c) ∧ ∃ now,
      h = clocked now :: (d.putSlots c x.2.ip).map (granted i now)
  | .store i (.progress tid) => x.1 = .shard i ∧ ∃ c, ∃ n : ℕ, x.2.Asks d.np (.put c) ∧
      tid = copyArr 16 c.transferID ∧ answeredBy i (.putChunk c) (Except.ok n) ∈ h
  | .store i (.getChunk tid mid secret index) => x.1 = .shard i ∧ ∃ q, x.2.Asks d.np (.get q) ∧
      q.ticketMode = false ∧ tid = copyArr 16 q.transferID ∧ mid = copyArr 16 q.mailboxID ∧
        secret = q.readSecret ∧ index = q.index
  | .store i (.getChunkByTicket tid ticket index) => x.1 = .shard i ∧ ∃ q,
      x.2.Asks d.np (.get q) ∧ q.ticketMode = true ∧ tid = copyArr 16 q.transferID ∧
        ticket = q.ticket ∧ index = q.index
  | .store i (.resume tid mid secret) => x.1 = .shard i ∧ ∃ q, x.2.Asks d.np (.resume q) ∧
      q.ticketMode = false ∧ tid = copyArr 16 q.transferID ∧ mid = copyArr 16 q.mailboxID ∧
        secret = q.readSecret
  | .store i (.resumeByTicket tid ticket) => x.1 = .shard i ∧ ∃ q, x.2.Asks d.np (.resume q) ∧
      q.ticketMode = true ∧ tid = copyArr 16 q.transferID ∧ ticket = q.ticket
  | .store i (.getTransfer tid) => x.1 = .shard i ∧ ∃ t now, x.2.Asks d.np (.complete t) ∧
      tid = copyArr 16 t.transferID ∧ d.Admitted i h (.complete t) now []
  | .store i (.completeTransfer t) => x.1 = .shard i ∧ x.2.Asks d.np (.complete t) ∧
      ∃ h₀ now, ∃ tv : TransferView, d.Admitted i h₀ (.complete t) now [] ∧
        h = h₀ ++ [answeredBy i (.getTransfer (copyArr 16 t.transferID)) (Except.ok tv)] ∧
        tv.senderPub = t.senderPub
  | .store i (.cancelTransfer tid mid secret) => x.1 = .shard i ∧ ∃ t,
      x.2.Asks d.np (.cancel t) ∧ tid = copyArr 16 t.transferID ∧ mid = copyArr 16 t.mailboxID ∧
        secret = t.readSecret
  | _ => True

/-- The outcome of the walk of a resolve : a shard that has the mailbox, or the primary if no shard
had it when it was asked. -/
def Walked (h : History) (mid : ID) (url : Bytes) : Prop :=
  (∃ ref, d.router.findShard url = some ref ∧ answeredBy ref.store (.mailboxExists mid) true ∈ h) ∨
    url = owner d.H mid d.router.shardURLs ∧ ∀ u ∈ d.router.shardURLs, ∀ ref,
      d.router.findShard u = some ref → answeredBy ref.store (.mailboxExists mid) false ∈ h

/-- What a request is told with status 200, after the calls `h` of its handler. -/
inductive Tells : Host × HTTPRequest → History → Reply → Prop
  | hello {host : Host} {r : HTTPRequest} {h : History} (now : ℤ) (hroute : r.route = some .hello) :
    Tells (host, r) (h ++ [clocked now]) (.hello (helloNow now))
  | registered {r : HTTPRequest} {h : History} {i : ℕ} {q : Register} {now : ℤ}
      {secret : ByteArr 32} {b : Bool} (hq : d.Registering r h q now secret)
      (hhome : d.HomeOf (d.mailboxOf q.clientPub) i) :
    Tells (.router, r) (h ++ [answeredBy i (.createMailbox (d.mailboxOf q.clientPub)
      (d.H secret.toList)) b]) (.registered (d.registered (d.mailboxOf q.clientPub) secret
        (owner d.H (d.mailboxOf q.clientPub) d.router.shardURLs) now))
  | resolved {r : HTTPRequest} {h : History} {q : Resolve} {url : Bytes}
      (hasks : r.Asks d.np (.resolve q)) (hwalk : d.Walked h (d.mailboxOf q.clientPub) url) :
    Tells (.router, r) h (.resolved (d.located (d.mailboxOf q.clientPub) url))
  | table {r : HTTPRequest} {h : History} (now : ℤ) (hroute : r.route = some .table) :
    Tells (.router, r) (h ++ [clocked now]) (.table
      (routerTable d.H d.sign d.router.version d.pub d.router.shardURLs now))
  | store {i : ℕ} {r : HTTPRequest} {h : History} {ask : Ask} {c : StoreCall} {a : c.Answer}
      {reply : Reply} (hasks : r.Asks d.np ask) (hcall : ask.lastCall = some c)
      (hput : ∀ u, ask = .put u → ∃ n : ℕ, answeredBy i (.putChunk u) (Except.ok n) ∈ h)
      (hreply : c.reply a = some reply) :
    Tells (.shard i, r) (h ++ [answeredBy i c a]) reply

/-- An answer tells what there is to tell, or it is an error with a short text, after a last call
that failed, or the page of the mux of a shard. -/
inductive Accounted (x : Host × HTTPRequest) (h : History) (resp : Response) : Prop
  | told (reply : Reply) (body : Bytes) (ht : d.Tells x h reply)
      (hbody : reply.encode d.np = .ok body) (hresp : resp = reply.response body)
  | refused (e : ProtocolError) (he : e.Brief) (hfail : Failed d.np h)
      (hresp : resp = x.1.writeError d.np e)
  | turned (hx : x.1 ≠ .router) (hh : h = []) (hresp : d.TurnedAway x.2 resp)

end Deployment

/-! ## Rules for the parts of a handler -/

section Rules

variable {np : Codec} {host : Host} {post : (c : RelayCall) → c.Answer → Prop}
  {Q : History → RelayCall → Prop} {R : History → Response → Prop} {h : History}

theorem holds_orRefuse {α : Type} {x : Wire α} {rest : α → Handler}
    (hR : ∀ e : ProtocolError, e.Brief → R h (host.writeError np e))
    (hx : Meets (fun a => Prog.Holds post Q R h (rest a)) WireError.Brief x) :
    Prog.Holds post Q R h (host.orRefuse np x rest) := by
  rcases x with (e | e) | a
  · exact hR e hx
  · exact hR _ (by decide : "invalid request".utf8ByteSize ≤ 128)
  · exact hx

theorem holds_onPost {r : HTTPRequest} {rest : Handler}
    (hR : ∀ e : ProtocolError, e.Brief → R h (host.writeError np e))
    (hrest : r.method = .post → Prog.Holds post Q R h rest) :
    Prog.Holds post Q R h (host.onPost np r rest) := by
  unfold Host.onPost
  split_ifs with hpost
  · exact hR _ (by decide : "method not allowed".utf8ByteSize ≤ 128)
  · exact hrest (not_not.mp hpost)

end Rules

/-- A body that decodes, with what is known of it afterwards. -/
theorem decodeRequest_meets {α : Type} {r : HTTPRequest} {limit : ℕ} {unmarshal : Bytes → Wire α}
    {Q : α → Prop} (hlimit : limit ≤ 2 ^ 21)
    (h : ∀ {raw : Bytes}, raw.length ≤ 2 ^ 21 → BriefWire (unmarshal raw))
    (hQ : ∀ a, decodeRequest r limit unmarshal = .ok a → Q a) :
    Meets Q WireError.Brief (decodeRequest r limit unmarshal) :=
  meets_iff.mpr ⟨hQ, (meets_iff.mp (decodeRequest_brief r hlimit h)).2⟩

theorem wireCheck_meets {c : Check} {Q : Prop} (h : Meets (fun _ => True) ProtocolError.Brief c)
    (hQ : c = .ok () → Q) : Meets (fun _ => Q) WireError.Brief (wireCheck c) :=
  meets_iff.mpr ⟨fun _ hc => hQ (wireCheck_eq_ok.mp hc), (meets_iff.mp (wireCheck_brief h)).2⟩

/-- An answer of the store. -/
theorem result_meets {α : Type} {x : Result α} {Q : α → Prop} (h : BriefResult x)
    (hQ : ∀ a, x = .ok a → Q a) : Meets Q WireError.Brief (x.mapError .protocol) := by
  refine Meets.mapError (meets_iff.mpr ⟨hQ, ?_⟩)
  exact (meets_iff.mp h).2

/-- A body that is encoded. -/
theorem encode_meets {x : Wire Bytes} {Q : Bytes → Prop} (h : BriefWire x)
    (hQ : ∀ body, x = .ok body → Q body) : Meets Q WireError.Brief x :=
  meets_iff.mpr ⟨hQ, (meets_iff.mp h).2⟩

/-! ## The handlers -/

namespace Deployment

variable (d : Deployment) (i : ℕ) (r : HTTPRequest)

/-- The handler keeps to `Entitled` and `Accounted`, and stops after its last call. -/
abbrev Conducts (x : Host × HTTPRequest) (h : History) (p : Handler) : Prop :=
  Prog.Holds RelayCall.Brief (fun h c => d.Entitled x h c ∧ Unfinished h) (d.Accounted x) h p

variable {d i r}

theorem accounted_error {x : Host × HTTPRequest} {h : History} (hu : Unfinished h)
    (e : ProtocolError) (he : e.Brief) : d.Accounted x h (x.1.writeError d.np e) :=
  .refused e he (failed_of_unfinished hu) rfl

/-- A reply is encoded, or the error of the encoder is. -/
theorem conducts_respond {x : Host × HTTPRequest} {h : History} {reply : Reply}
    (htable : ∀ body, reply.response body = writeProto reply.schema body)
    (ht : d.Tells x h reply) (hfail : (∀ body, reply.encode d.np ≠ .ok body) → Failed d.np h) :
    d.Conducts x h (x.1.respond d.np reply.schema (reply.encode d.np)) := by
  have hbrief := reply.encode_brief d.np
  unfold Host.respond Host.orRefuse
  cases hbody : reply.encode d.np with
  | ok body => exact .told reply body ht hbody (htable body).symm
  | error e =>
    rw [hbody] at hbrief
    refine .refused _ ?_ (hfail fun body h => nomatch hbody.symm.trans h) rfl
    cases e with
    | protocol e => exact hbrief
    | nanopack e => exact (by decide : "invalid request".utf8ByteSize ≤ 128)

/-- A call that is not the last one. -/
theorem conducts_call {x : Host × HTTPRequest} {h : History} {c : RelayCall}
    {next : c.Answer → Handler}
    (hc : c.final = false) (hu : Unfinished h) (hent : d.Entitled x h c)
    (hnext : ∀ a, c.Brief a → Unfinished (h ++ [⟨c, a⟩]) → d.Conducts x (h ++ [⟨c, a⟩]) (next a)) :
    d.Conducts x h (.call c next) :=
  ⟨⟨hent, hu⟩, fun a ha => hnext a ha (hu.concat hc a)⟩

theorem conducts_allowed {h : History} {now : ℤ} {slots : List (Bytes × ℤ)} {rest : Handler}
    (hu : Unfinished h)
    (hent : ∀ h' key max, d.Entitled (.shard i, r) (h ++ h') (.allow i key now max))
    (hrest : Unfinished (h ++ slots.map (granted i now)) →
      d.Conducts (.shard i, r) (h ++ slots.map (granted i now)) rest) :
    d.Conducts (.shard i, r) h ((Host.shard i).allowed d.np i now slots rest) := by
  induction slots generalizing h with
  | nil =>
    rw [List.map_nil, List.append_nil] at hrest
    exact hrest hu
  | cons slot slots ih =>
    refine conducts_call rfl hu (List.append_nil h ▸ hent [] slot.1 slot.2)
      fun (ok : Bool) _ hasked => ?_
    cases ok with
    | false => exact accounted_error hasked _ (by decide : "rate limited".utf8ByteSize ≤ 128)
    | true =>
      refine ih hasked (fun h' key max => ?_) fun hu => ?_
      · rw [List.append_assoc]
        exact hent _ key max
      · rw [List.append_assoc] at hu ⊢
        exact hrest hu

/-- The last call of a handler of a shard. -/
theorem conducts_last {h : History} {c : StoreCall} {ask : Ask} {rest : c.Answer → Handler}
    (hu : Unfinished h) (hent : d.Entitled (.shard i, r) h (.store i c))
    (hasks : r.Asks d.np ask) (hcall : ask.lastCall = some c)
    (hput : ∀ u, ask = .put u → ∃ n : ℕ, answeredBy i (.putChunk u) (Except.ok n) ∈ h)
    (hrest : ∀ a, c.Brief a →
      (∃ e : ProtocolError, e.Brief ∧ c.reply a = none ∧ rest a = (Host.shard i).refuse d.np e) ∨
        ∃ reply, c.reply a = some reply ∧
          rest a = (Host.shard i).respond d.np reply.schema (reply.encode d.np)) :
    d.Conducts (.shard i, r) h (.call (.store i c) rest) := by
  refine ⟨⟨hent, hu⟩, fun a ha => ?_⟩
  rcases hrest a ha with ⟨e, he, hnone, hret⟩ | ⟨reply, hreply, hret⟩
  · rw [hret]
    refine .refused e he (failed_concat fun reply body hreply => ?_) rfl
    exact nomatch hnone.symm.trans hreply
  · rw [hret]
    have htable : ∀ body, reply.response body = writeProto reply.schema body := by
      intro body
      cases reply with
      | table t =>
        -- No call of a store is answered with the table.
        cases c <;> first | cases hreply | (cases a <;> cases hreply)
      | _ => rfl
    refine conducts_respond (x := (.shard i, r)) htable (.store hasks hcall hput hreply) fun h => ?_
    exact failed_concat fun reply' body hreply' =>
      Option.some.inj (hreply.symm.trans hreply') ▸ h body

/-- A result that is refused or responded to. -/
theorem finishes {α : Type} {np : Codec} {host : Host} {res : Result α} (hres : BriefResult res)
    {reply : Result α → Option Reply} {toReply : α → Reply} {rest : α → Handler}
    (herror : ∀ e, reply (.error e) = none) (hok : ∀ a, reply (.ok a) = some (toReply a))
    (hrest : ∀ a, rest a = host.respond np (toReply a).schema ((toReply a).encode np)) :
    (∃ e : ProtocolError, e.Brief ∧ reply res = none ∧
      host.orRefuse np (res.mapError .protocol) rest = host.refuse np e) ∨
    ∃ r, reply res = some r ∧
      host.orRefuse np (res.mapError .protocol) rest = host.respond np r.schema (r.encode np) := by
  cases res with
  | error e => exact .inl ⟨e, hres, herror e, rfl⟩
  | ok a => exact .inr ⟨toReply a, hok a, hrest a⟩

theorem conducts_send (hroute : r.route = some .send) :
    d.Conducts (.shard i, r) [] (d.handleSend i r) := by
  unfold handleSend
  refine holds_onPost (accounted_error unfinished_nil) fun hpost => ?_
  refine conducts_call rfl unfinished_nil trivial fun (now : ℤ) _ hclock => ?_
  refine holds_orRefuse (accounted_error hclock)
    (decodeRequest_meets (by decide) unmarshalSendMessage_brief fun m hm => ?_)
  have hasks : r.Asks d.np (.send m) := ⟨hpost, hroute, hm⟩
  refine holds_orRefuse (accounted_error hclock)
    (wireCheck_meets (authSend_brief m) fun hauth => ?_)
  refine conducts_call rfl hclock ⟨rfl, .send m, now, rfl, hauth, rfl⟩
    fun (seen : Bool) _ hu => ?_
  cases seen with
  | true => exact accounted_error hu _ (by decide : "replay detected".utf8ByteSize ≤ 128)
  | false =>
    refine conducts_allowed hu (fun _ _ _ => ⟨rfl, _, rfl⟩) fun hu => ?_
    exact conducts_last hu ⟨rfl, hasks, now, hauth, rfl⟩ hasks rfl nofun
      fun (res : Result _) hres => finishes hres (fun _ => rfl) (fun _ => rfl) fun _ => rfl

theorem conducts_receive (hroute : r.route = some .receive) :
    d.Conducts (.shard i, r) [] (d.handleReceive i r) := by
  unfold handleReceive
  refine holds_onPost (accounted_error unfinished_nil) fun hpost => ?_
  refine conducts_call rfl unfinished_nil trivial fun (now : ℤ) _ hclock => ?_
  refine holds_orRefuse (accounted_error hclock)
    (decodeRequest_meets (by decide) unmarshalReceiveMessages_brief fun q hq => ?_)
  have hasks : r.Asks d.np (.receive q) := ⟨hpost, hroute, hq⟩
  refine conducts_allowed hclock (fun _ _ _ => ⟨rfl, _, rfl⟩) fun hu => ?_
  exact conducts_last hu ⟨rfl, q, now, hasks, rfl, rfl, rfl, rfl, rfl⟩ hasks rfl nofun
    fun (res : Result _) hres => finishes hres (fun _ => rfl) (fun _ => rfl) fun _ => rfl

theorem conducts_ack (hroute : r.route = some .ack) :
    d.Conducts (.shard i, r) [] (d.handleAck i r) := by
  unfold handleAck
  refine holds_onPost (accounted_error unfinished_nil) fun hpost => ?_
  refine holds_orRefuse (accounted_error unfinished_nil)
    (decodeRequest_meets (by decide) unmarshalMessageAck_brief fun q hq => ?_)
  have hasks : r.Asks d.np (.ack q) := ⟨hpost, hroute, hq⟩
  exact conducts_last unfinished_nil ⟨rfl, q, hasks, rfl, rfl, rfl, rfl⟩ hasks rfl nofun
    fun (res : Result _) hres => finishes hres (fun _ => rfl) (fun _ => rfl) fun _ => rfl

theorem conducts_create (hroute : r.route = some .create) :
    d.Conducts (.shard i, r) [] (d.handleCreate i r) := by
  unfold handleCreate
  refine holds_onPost (accounted_error unfinished_nil) fun hpost => ?_
  refine conducts_call rfl unfinished_nil trivial fun (now : ℤ) _ hclock => ?_
  refine holds_orRefuse (accounted_error hclock)
    (decodeRequest_meets (by decide) unmarshalTransferCreate_brief fun t ht => ?_)
  have hasks : r.Asks d.np (.create t) := ⟨hpost, hroute, ht⟩
  refine holds_orRefuse (accounted_error hclock)
    (wireCheck_meets (authCreate_brief t) fun hauth => ?_)
  refine conducts_call rfl hclock ⟨rfl, .create t, now, rfl, hauth, rfl⟩
    fun (seen : Bool) _ hu => ?_
  cases seen with
  | true => exact accounted_error hu _ (by decide : "replay detected".utf8ByteSize ≤ 128)
  | false =>
    refine conducts_allowed hu (fun _ _ _ => ⟨rfl, _, rfl⟩) fun hu => ?_
    exact conducts_last hu ⟨rfl, hasks, now, hauth, rfl⟩ hasks rfl nofun
      fun (res : Result _) hres => finishes hres (fun _ => rfl) (fun _ => rfl) fun _ => rfl

theorem conducts_put (hroute : r.route = some .put) :
    d.Conducts (.shard i, r) [] (d.handlePut i r) := by
  unfold handlePut
  refine holds_onPost (accounted_error unfinished_nil) fun hpost => ?_
  refine conducts_call rfl unfinished_nil trivial fun (now : ℤ) _ hclock => ?_
  refine holds_orRefuse (accounted_error hclock)
    (decodeRequest_meets (by decide) unmarshalChunkUpload_brief fun c hc => ?_)
  have hasks : r.Asks d.np (.put c) := ⟨hpost, hroute, hc⟩
  refine conducts_allowed hclock (fun _ _ _ => ⟨rfl, _, rfl⟩) fun hu => ?_
  refine conducts_call rfl hu ⟨rfl, hasks, now, rfl⟩ fun (res : Result ℕ) hres hstored => ?_
  refine holds_orRefuse (accounted_error hstored) (result_meets hres fun n hn => ?_)
  subst hn
  exact conducts_last hstored ⟨rfl, c, n, hasks, rfl, by simp [answeredBy]⟩ hasks rfl
    (fun u hu => by cases hu; exact ⟨n, by simp [answeredBy]⟩)
    fun (res : Result _) hres => finishes hres (fun _ => rfl) (fun _ => rfl) fun _ => rfl

theorem conducts_get (hroute : r.route = some .get) :
    d.Conducts (.shard i, r) [] (d.handleGet i r) := by
  unfold handleGet
  refine holds_onPost (accounted_error unfinished_nil) fun hpost => ?_
  refine holds_orRefuse (accounted_error unfinished_nil)
    (decodeRequest_meets (by decide) unmarshalChunkDownload_brief fun q hq => ?_)
  have hasks : r.Asks d.np (.get q) := ⟨hpost, hroute, hq⟩
  unfold getCall
  split_ifs with hcount hmode
  · exact accounted_error unfinished_nil _
      (by decide : "count must be 1 in v1".utf8ByteSize ≤ 128)
  · exact conducts_last unfinished_nil ⟨rfl, q, hasks, hmode, rfl, rfl, rfl⟩ hasks
      (by simp [Ask.lastCall, hmode]) nofun
      fun (res : Result _) hres => finishes hres (fun _ => rfl) (fun _ => rfl) fun _ => rfl
  · have hmode' : q.ticketMode = false := Bool.not_eq_true _ ▸ hmode
    exact conducts_last unfinished_nil ⟨rfl, q, hasks, hmode', rfl, rfl, rfl, rfl⟩ hasks
      (by simp [Ask.lastCall, hmode']) nofun
      fun (res : Result _) hres => finishes hres (fun _ => rfl) (fun _ => rfl) fun _ => rfl

theorem conducts_resume (hroute : r.route = some .resume) :
    d.Conducts (.shard i, r) [] (d.handleResume i r) := by
  unfold handleResume
  refine holds_onPost (accounted_error unfinished_nil) fun hpost => ?_
  refine holds_orRefuse (accounted_error unfinished_nil)
    (decodeRequest_meets (by decide) unmarshalResumeRequest_brief fun q hq => ?_)
  have hasks : r.Asks d.np (.resume q) := ⟨hpost, hroute, hq⟩
  unfold resumeCall
  split_ifs with hmode
  · exact conducts_last unfinished_nil ⟨rfl, q, hasks, hmode, rfl, rfl⟩ hasks
      (by simp [Ask.lastCall, hmode]) nofun
      fun (res : Result _) hres => finishes hres (fun _ => rfl) (fun _ => rfl) fun _ => rfl
  · have hmode' : q.ticketMode = false := Bool.not_eq_true _ ▸ hmode
    exact conducts_last unfinished_nil ⟨rfl, q, hasks, hmode', rfl, rfl, rfl⟩ hasks
      (by simp [Ask.lastCall, hmode']) nofun
      fun (res : Result _) hres => finishes hres (fun _ => rfl) (fun _ => rfl) fun _ => rfl

theorem conducts_complete (hroute : r.route = some .complete) :
    d.Conducts (.shard i, r) [] (d.handleComplete i r) := by
  unfold handleComplete
  refine holds_onPost (accounted_error unfinished_nil) fun hpost => ?_
  refine conducts_call rfl unfinished_nil trivial fun (now : ℤ) _ hclock => ?_
  refine holds_orRefuse (accounted_error hclock)
    (decodeRequest_meets (by decide) unmarshalTransferComplete_brief fun t ht => ?_)
  have hasks : r.Asks d.np (.complete t) := ⟨hpost, hroute, ht⟩
  refine holds_orRefuse (accounted_error hclock)
    (wireCheck_meets (authComplete_brief t) fun hauth => ?_)
  refine conducts_call rfl hclock ⟨rfl, .complete t, now, rfl, hauth, rfl⟩
    fun (seen : Bool) _ hu => ?_
  cases seen with
  | true => exact accounted_error hu _ (by decide : "replay detected".utf8ByteSize ≤ 128)
  | false =>
    refine conducts_call rfl hu ⟨rfl, t, now, hasks, rfl, hauth, rfl⟩
      fun (res : Result TransferView) hres hseen => ?_
    refine holds_orRefuse (accounted_error hseen) (result_meets hres fun tv htv => ?_)
    subst htv
    split_ifs with hsender
    · exact accounted_error hseen _ (by decide : "sender mismatch".utf8ByteSize ≤ 128)
    · exact conducts_last hseen ⟨rfl, hasks, _, now, tv, ⟨hauth, rfl⟩, rfl, not_not.mp hsender⟩
        hasks rfl nofun
        fun (res : Result _) hres => finishes hres (fun _ => rfl) (fun _ => rfl) fun _ => rfl

theorem conducts_cancel (hroute : r.route = some .cancel) :
    d.Conducts (.shard i, r) [] (d.handleCancel i r) := by
  unfold handleCancel
  refine holds_onPost (accounted_error unfinished_nil) fun hpost => ?_
  refine holds_orRefuse (accounted_error unfinished_nil)
    (decodeRequest_meets (by decide) unmarshalTransferCancel_brief fun t ht => ?_)
  have hasks : r.Asks d.np (.cancel t) := ⟨hpost, hroute, ht⟩
  exact conducts_last unfinished_nil ⟨rfl, t, hasks, rfl, rfl, rfl⟩ hasks rfl nofun
    fun (res : Result _) hres => finishes hres (fun _ => rfl) (fun _ => rfl) fun _ => rfl

theorem conducts_hello {host : Host} (hroute : r.route = some .hello) :
    d.Conducts (host, r) [] (handleHello d.np host r) := by
  have hanswer : ∀ now : ℤ, d.Accounted (host, r) ([] ++ [clocked now])
      (writeProto 50 (packed d.np (helloNow now).fields)) :=
    fun now => .told _ _ (.hello now hroute) rfl rfl
  unfold handleHello
  cases r.method with
  | connect | other =>
    exact accounted_error unfinished_nil _ (by decide : "method not allowed".utf8ByteSize ≤ 128)
  | get => exact ⟨⟨trivial, unfinished_nil⟩, fun (now : ℤ) _ => hanswer now⟩
  | post =>
    refine holds_orRefuse (accounted_error unfinished_nil)
      (decodeRequest_meets (by decide) unmarshalHello_brief fun _ _ => ?_)
    exact ⟨⟨trivial, unfinished_nil⟩, fun (now : ℤ) _ => hanswer now⟩

/-! ### The router -/

theorem conducts_createFor {h : History} {q : Register} {now : ℤ} (hu : Unfinished h)
    (hq : ∀ secret, d.Registering r (h ++ [⟨.draw, some secret⟩]) q now secret) :
    d.Conducts (.router, r) h (d.createFor q now) := by
  unfold createFor
  dsimp only
  split_ifs with hsecret hurls
  · exact accounted_error hu _ (by decide : "router not configured".utf8ByteSize ≤ 128)
  · exact accounted_error hu _ (by decide : "no shards".utf8ByteSize ≤ 128)
  cases hfind : d.router.findShard (owner d.H (mailboxIDFromPub d.mac d.router.secret q.clientPub)
      d.router.shardURLs) with
  | none => exact accounted_error hu _ (by decide : "shard not found".utf8ByteSize ≤ 128)
  | some ref =>
    refine conducts_call rfl hu trivial fun (draw : Option (ByteArr 32)) _ hdrawn => ?_
    cases draw with
    | none => exact accounted_error hdrawn _ (by decide : "rand failed".utf8ByteSize ≤ 128)
    | some secret =>
      have hhome : d.HomeOf (d.mailboxOf q.clientPub) ref.store := ⟨ref, hfind, rfl⟩
      refine ⟨⟨⟨rfl, q, now, secret, hq secret, rfl, rfl, hhome⟩, hdrawn⟩, fun (b : Bool) _ => ?_⟩
      exact conducts_respond (x := (.router, r)) (fun _ => rfl) (.registered (hq secret) hhome)
        fun _ => failed_concat (c := .createMailbox _ _) (a := b) nofun

theorem conducts_register (hroute : r.route = some .register) :
    d.Conducts (.router, r) [] (d.handleRegister r) := by
  unfold handleRegister
  refine holds_onPost (accounted_error unfinished_nil) fun hpost => ?_
  refine conducts_call rfl unfinished_nil trivial fun (now : ℤ) _ hclock => ?_
  refine conducts_call rfl hclock ⟨rfl, rfl⟩ fun (ok : Bool) _ hu => ?_
  cases ok with
  | false => exact accounted_error hu _ (by decide : "rate limited".utf8ByteSize ≤ 128)
  | true =>
    refine holds_orRefuse (accounted_error hu)
      (decodeRequest_meets (by decide) unmarshalRegister_brief fun q hq => ?_)
    have hasks : r.Asks d.np (.register q) := ⟨hpost, hroute, hq⟩
    refine holds_orRefuse (accounted_error hu)
      (wireCheck_meets (verifySigned_brief ..) fun hverify => ?_)
    have hvalid : validateRegister q = .ok () := by
      obtain ⟨raw, -, hraw⟩ := wire_bind_eq_ok.mp hq
      exact wireCheck_eq_ok.mp (registerCodec_lawful.check_of_unmarshal hraw)
    have hauth : authRegister d.verify q now = .ok () := by
      unfold authRegister
      rw [hvalid]
      exact hverify
    refine conducts_call rfl hu ⟨rfl, q, hasks, rfl, rfl, hauth, rfl⟩
      fun (seen : Bool) _ hseen => ?_
    cases seen with
    | true => exact accounted_error hseen _ (by decide : "replay detected".utf8ByteSize ≤ 128)
    | false => exact conducts_createFor hseen fun secret => ⟨hasks, hauth, rfl⟩

theorem conducts_located {h : History} {q : Resolve} {url : Bytes} (hu : Unfinished h)
    (hasks : r.Asks d.np (.resolve q)) (hwalk : d.Walked h (d.mailboxOf q.clientPub) url) :
    d.Conducts (.router, r) h (d.respondLocated (d.mailboxOf q.clientPub) url) :=
  conducts_respond (x := (.router, r)) (fun _ => rfl) (.resolved hasks hwalk)
    fun _ => failed_of_unfinished hu

/-- The walk, once the URLs that are not left have been asked. -/
theorem conducts_probe {q : Resolve} (hasks : r.Asks d.np (.resolve q)) :
    ∀ {left : List Bytes} {h : History}, Unfinished h →
      (∀ u ∈ d.router.shardURLs, u ∉ left → ∀ ref, d.router.findShard u = some ref →
        answeredBy ref.store (.mailboxExists (d.mailboxOf q.clientPub)) false ∈ h) →
      d.Conducts (.router, r) h (d.probe (d.mailboxOf q.clientPub)
        (owner d.H (d.mailboxOf q.clientPub) d.router.shardURLs) left)
  | [], h, hu, hasked => by
    refine conducts_located hu hasks (.inr ⟨rfl, fun u hu ref href => ?_⟩)
    exact hasked u hu List.not_mem_nil ref href
  | u :: left, h, hu, hasked => by
    unfold probe
    cases hfind : d.router.findShard u with
    | none =>
      refine conducts_probe hasks hu fun v hv hleft ref href => ?_
      by_cases hvu : v = u
      · subst hvu
        rw [hfind] at href
        cases href
      · exact hasked v hv (by simp [hvu, hleft]) ref href
    | some ref =>
      refine conducts_call rfl hu ⟨rfl, q, hasks, rfl⟩ fun (found : Bool) _ hprobed => ?_
      cases found with
      | true =>
        exact conducts_located hprobed hasks (.inl ⟨ref, hfind, by simp [answeredBy]⟩)
      | false =>
        refine conducts_probe hasks hprobed fun v hv hleft ref' href' => ?_
        by_cases hvu : v = u
        · subst hvu
          obtain rfl := Option.some.inj (hfind.symm.trans href')
          simp [answeredBy]
        · exact List.mem_append_left _ (hasked v hv (by simp [hvu, hleft]) ref' href')

theorem conducts_resolve (hroute : r.route = some .resolve) :
    d.Conducts (.router, r) [] (d.handleResolve r) := by
  unfold handleResolve
  refine holds_onPost (accounted_error unfinished_nil) fun hpost => ?_
  refine conducts_call rfl unfinished_nil trivial fun (now : ℤ) _ hclock => ?_
  refine conducts_call rfl hclock ⟨rfl, rfl⟩ fun (ok : Bool) _ hu => ?_
  cases ok with
  | false => exact accounted_error hu _ (by decide : "rate limited".utf8ByteSize ≤ 128)
  | true =>
    refine holds_orRefuse (accounted_error hu)
      (decodeRequest_meets (by decide) unmarshalResolve_brief fun q hq => ?_)
    have hasks : r.Asks d.np (.resolve q) := ⟨hpost, hroute, hq⟩
    dsimp only
    split_ifs with hconf
    · exact accounted_error hu _ (by decide : "router not configured".utf8ByteSize ≤ 128)
    · refine conducts_probe hasks hu fun u hu hleft => absurd ?_ hleft
      simp only [List.mem_cons, List.mem_filter, decide_eq_true_eq]
      by_cases h : u = owner d.H (mailboxIDFromPub d.mac d.router.secret q.clientPub)
          d.router.shardURLs
      · exact .inl h
      · exact .inr ⟨hu, h⟩

theorem conducts_table (hroute : r.route = some .table) :
    d.Conducts (.router, r) [] (d.handleTable r) := by
  unfold handleTable
  split_ifs
  · exact accounted_error unfinished_nil _ (by decide : "method not allowed".utf8ByteSize ≤ 128)
  · refine conducts_call rfl unfinished_nil trivial fun (now : ℤ) _ hclock => ?_
    refine holds_orRefuse (accounted_error hclock)
      (encode_meets (handleTable_brief ..) fun body hbody => ?_)
    obtain ⟨-, -, hbody⟩ := wire_bind_eq_ok.mp hbody
    exact .told (.table _) body (.table now hroute) hbody rfl

/-- Every handler keeps to `Entitled` and `Accounted`, and stops after its last call. -/
theorem conduct (x : Host × HTTPRequest) : d.Conducts x [] (d.serveHTTP x) := by
  obtain ⟨host, r⟩ := x
  cases host with
  | router =>
    change d.Conducts _ [] (d.routerServe r)
    unfold routerServe
    rcases hroute : r.route with _ | route
    · exact accounted_error unfinished_nil _ (by decide : "unknown route".utf8ByteSize ≤ 128)
    · cases route with
      | register => exact conducts_register hroute
      | resolve => exact conducts_resolve hroute
      | table => exact conducts_table hroute
      | hello => exact conducts_hello hroute
      | _ => exact accounted_error unfinished_nil _ (by decide : "unknown route".utf8ByteSize ≤ 128)
  | shard i =>
    change d.Conducts _ [] (d.shardServe i r)
    rcases d.shardServe_cases i r with ⟨route, hmem, hspells, hserve⟩ | ⟨resp, hpage, hserve⟩
    · rw [hserve]
      have hroute := route_of_spells hspells
      cases route with
      | hello => exact conducts_hello hroute
      | send => exact conducts_send hroute
      | receive => exact conducts_receive hroute
      | ack => exact conducts_ack hroute
      | create => exact conducts_create hroute
      | put => exact conducts_put hroute
      | get => exact conducts_get hroute
      | resume => exact conducts_resume hroute
      | complete => exact conducts_complete hroute
      | cancel => exact conducts_cancel hroute
      | register | resolve | table => exact absurd hmem (by decide)
    · rw [hserve]
      exact .turned nofun rfl hpage

end Deployment

end FileRelay
