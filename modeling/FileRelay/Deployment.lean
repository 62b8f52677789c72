import FileRelay.Programs
import FileRelay.Responses
import FileRelay.ResumeView
import FileRelay.ServeMux

/-!
# A router and its shards

`server/router/handler.go` and `server/shard/handler.go` as one server. Each handler is a program
from an HTTP request to a response. It is cut into calls where it reads the clock or the random
source, takes a slot of a limiter, tests a nonce, or calls a store, and `relay` runs the handlers of
all requests at once over the limiters, the replay cache and the stores. A call is one step, as
under the lock it takes, and between two calls of a handler any others can come.

Shard `i` is the handler over store `i`, behind the mux of its handlers. `filerelayd` of
`cmd/filerelayd/main.go` is the router and shard `0` behind one mux, over one store.
-/

namespace FileRelay

open NanoPack (Field Codec layout)

/-! ## Requests -/

inductive Method
  | get
  | post
  | connect
  | other
deriving DecidableEq, Repr

/-- An HTTP request. `path` is the path as it is escaped in the URL, and `ip` is what `clientIP`
makes of the request. The body fails after the bytes of `body` if it is `broken`. -/
structure HTTPRequest where
  method : Method
  path : Bytes
  ip : Bytes
  contentLength : ℤ
  body : Bytes
  broken : Bool
deriving DecidableEq, Repr

/-- `readBody` : the length the request declares, then at most a byte more than the limit. -/
def readRequest (r : HTTPRequest) (limit : ℕ) : Except ProtocolError Bytes :=
  if (limit : ℤ) < r.contentLength then .error ⟨.payloadTooLarge, "body exceeds limit", 0⟩
  else if r.broken ∧ r.body.length ≤ limit then .error ⟨.invalidRequest, "unreadable body", 0⟩
  else readBody (r.body.take (limit + 1)) limit

/-- The body of a request, decoded. -/
def decodeRequest {α : Type} (r : HTTPRequest) (limit : ℕ) (unmarshal : Bytes → Wire α) :
    Wire α := do
  let raw ← (readRequest r limit).mapError .protocol
  unmarshal raw

/-- The routes with a handler. -/
inductive Route
  | hello
  | register
  | resolve
  | table
  | send
  | receive
  | ack
  | create
  | put
  | get
  | resume
  | complete
  | cancel
deriving DecidableEq, Repr

def Route.all : List Route :=
  [.hello, .register, .resolve, .table, .send, .receive, .ack, .create, .put, .get, .resume,
    .complete, .cancel]

def Route.path : Route → Bytes
  | .hello => ascii "/fr/v1/hello"
  | .register => routeRegister
  | .resolve => routeResolve
  | .table => ascii "/fr/v1/table"
  | .send => routeSend
  | .receive => routeReceive
  | .ack => ascii "/fr/v1/ack"
  | .create => routeTransferCreate
  | .put => routeChunkPut
  | .get => routeChunkGet
  | .resume => routeResume
  | .complete => routeComplete
  | .cancel => routeCancel

/-- `r.URL.Path`. -/
def HTTPRequest.urlPath (r : HTTPRequest) : Bytes :=
  ServeMux.unescape r.path

def HTTPRequest.route (r : HTTPRequest) : Option Route :=
  Route.all.find? fun route => route.path = r.urlPath

/-! ## Calls -/

/-- A call of the `Store` interface, as the handlers make it. -/
inductive StoreCall
  | createMailbox (mailboxID : ID) (readSecretHash : Digest)
  | mailboxExists (mailboxID : ID)
  | checkAndMarkReplay (key : Digest)
  | sendMessage (msg : SendMessage)
  | receiveMessages (mailboxID : ID) (readSecret : Bytes) (limit : ℤ) (peek : Bool)
  | ackMessages (mailboxID : ID) (readSecret : Bytes) (msgIDs : List Bytes) (disposition : UInt8)
  | createTransfer (t : TransferCreate)
  | putChunk (c : ChunkUpload)
  | progress (transferID : ID)
  | getChunk (transferID mailboxID : ID) (readSecret : Bytes) (index : UInt32)
  | getChunkByTicket (transferID : ID) (ticket : Bytes) (index : UInt32)
  | resume (transferID mailboxID : ID) (readSecret : Bytes)
  | resumeByTicket (transferID : ID) (ticket : Bytes)
  | getTransfer (transferID : ID)
  | completeTransfer (r : TransferComplete)
  | cancelTransfer (transferID mailboxID : ID) (readSecret : Bytes)

def StoreCall.Answer : StoreCall → Type
  | createMailbox _ _ => Bool
  | mailboxExists _ => Bool
  | checkAndMarkReplay _ => Bool
  | sendMessage _ => Result (ID × ℕ)
  | receiveMessages _ _ _ _ => Result (List StoredMessage × Bool)
  | ackMessages _ _ _ _ => Result (ℕ × ℕ)
  | createTransfer _ => Result (ID × Bytes × ℤ)
  | putChunk _ => Result ℕ
  | progress _ => Result (ResumeView × TransferView)
  | getChunk _ _ _ _ => Result (Bytes × Bytes)
  | getChunkByTicket _ _ _ => Result (Bytes × Bytes)
  | resume _ _ _ => Result (ResumeView × TransferView)
  | resumeByTicket _ _ => Result (ResumeView × TransferView)
  | getTransfer _ => Result TransferView
  | completeTransfer _ => Result (Bool × ℕ × ℕ)
  | cancelTransfer _ _ _ => Result Unit

/-- What a call finds outside : the clock, what `NewID` draws, and what `rand.Read` fills in, if it
does not fail. -/
structure Env where
  now : ℤ
  id : ID
  draw : Option (ByteArr 32)

/-- The call of the store, with what it draws. -/
def StoreCall.op (env : Env) : StoreCall → Op
  | createMailbox mid hash => .createMailbox mid hash
  | mailboxExists mid => .mailboxExists mid
  | checkAndMarkReplay key => .checkAndMarkReplay key
  | sendMessage msg => .sendMessage msg env.id
  | receiveMessages mid secret limit peek => .receiveMessages mid secret limit peek
  | ackMessages mid secret ids disposition => .ackMessages mid secret ids disposition
  | createTransfer t => .createTransfer t env.id env.draw
  | putChunk c => .putChunk c
  | progress tid => .progress tid
  | getChunk tid mid secret index => .getChunk tid mid secret index
  | getChunkByTicket tid ticket index => .getChunkByTicket tid ticket index
  | resume tid mid secret => .resume tid mid secret
  | resumeByTicket tid ticket => .resumeByTicket tid ticket
  | getTransfer tid => .getTransfer tid
  | completeTransfer r => .completeTransfer r
  | cancelTransfer tid mid secret => .cancelTransfer tid mid secret

/-- The answer among the outputs of the store. -/
def StoreCall.output : (c : StoreCall) → c.Answer → Output
  | createMailbox _ _, b => .answer b
  | mailboxExists _, b => .answer b
  | checkAndMarkReplay _, b => .answer b
  | sendMessage _, r => .sent r
  | receiveMessages _ _ _ _, r => .received r
  | ackMessages _ _ _ _, r => .acked r
  | createTransfer _, r => .created r
  | putChunk _, r => .put r
  | progress _, r => .resumed r
  | getChunk _ _ _ _, r => .chunk r
  | getChunkByTicket _ _ _, r => .chunk r
  | resume _ _ _, r => .resumed r
  | resumeByTicket _ _, r => .resumed r
  | getTransfer _, r => .transfer r
  | completeTransfer _, r => .completed r
  | cancelTransfer _ _ _, r => .cancelled r

/-- What a handler does outside its own variables. -/
inductive RelayCall
  /-- `h.now()`. -/
  | clock
  /-- `h.limiter.allow` of a shard. -/
  | allow (shard : ℕ) (key : Bytes) (now max : ℤ)
  /-- `h.allowRL` over `h.regRL`. -/
  | allowRegister (key : Bytes) (now max : ℤ)
  /-- `h.allowRL` over `h.resRL`. -/
  | allowResolve (key : Bytes) (now max : ℤ)
  /-- `h.checkReplay` of the router. -/
  | checkReplay (pub nonce : Bytes) (now : ℤ)
  /-- `rand.Read(secret)`. -/
  | draw
  | store (i : ℕ) (c : StoreCall)

def RelayCall.Answer : RelayCall → Type
  | clock => ℤ
  | allow _ _ _ _ => Bool
  | allowRegister _ _ _ => Bool
  | allowResolve _ _ _ => Bool
  | checkReplay _ _ _ => Bool
  | draw => Option (ByteArr 32)
  | store _ c => c.Answer

/-- What the handlers share. -/
structure Relay where
  stores : ℕ → MemStore
  limiters : ℕ → Buckets
  regRL : Buckets
  resRL : Buckets
  replay : GoMap Digest ℤ

/-- `NewHandler` of the router and of the shards, over new stores. -/
def newRelay : Relay :=
  ⟨fun _ => newMemStore, fun _ => ∅, ∅, ∅, ∅⟩

section

variable (H : Bytes → Digest)

/-- A call of a store. -/
def StoreCall.run (s : MemStore) (env : Env) : (c : StoreCall) → MemStore × c.Answer
  | createMailbox mid hash => FileRelay.createMailbox s env.now mid hash
  | mailboxExists mid => (s, FileRelay.mailboxExists s env.now mid)
  | checkAndMarkReplay key => FileRelay.checkAndMarkReplay s env.now key
  | sendMessage msg => FileRelay.sendMessage s env.now msg env.id
  | receiveMessages mid secret limit peek =>
    FileRelay.receiveMessages H s env.now mid secret limit peek
  | ackMessages mid secret ids disposition =>
    FileRelay.ackMessages H s env.now mid secret ids disposition
  | createTransfer t => FileRelay.createTransfer H s env.now t env.id env.draw
  | putChunk c => FileRelay.putChunk H s env.now c
  | progress tid => FileRelay.progress s env.now tid
  | getChunk tid mid secret index => FileRelay.getChunk H s env.now tid mid secret index
  | getChunkByTicket tid ticket index => FileRelay.getChunkByTicket H s env.now tid ticket index
  | resume tid mid secret => FileRelay.resume H s env.now tid mid secret
  | resumeByTicket tid ticket => FileRelay.resumeByTicket H s env.now tid ticket
  | getTransfer tid => FileRelay.getTransfer s env.now tid
  | completeTransfer r => FileRelay.completeTransfer s env.now r
  | cancelTransfer tid mid secret => FileRelay.cancelTransfer H s env.now tid mid secret

/-- It is the step of the store with the same call. -/
theorem StoreCall.callStore_op (s : MemStore) (env : Env) (c : StoreCall) :
    callStore H s env.now (c.op env) = ((c.run H s env).1, c.output (c.run H s env).2) := by
  cases c <;> rfl

/-- One call of a handler. -/
def serveCall (s : Relay) (env : Env) : (c : RelayCall) → Relay × c.Answer
  | .clock => (s, env.now)
  | .allow i key now max =>
    let r := FileRelay.allow (s.limiters i) key now max
    ({ s with limiters := Function.update s.limiters i r.1 }, r.2)
  | .allowRegister key now max =>
    let r := takeSlot s.regRL key now max
    ({ s with regRL := r.1 }, r.2)
  | .allowResolve key now max =>
    let r := takeSlot s.resRL key now max
    ({ s with resRL := r.1 }, r.2)
  | .checkReplay pub nonce now =>
    let r := FileRelay.checkReplay H s.replay pub nonce now
    ({ s with replay := r.1 }, r.2)
  | .draw => (s, env.draw)
  | .store i c =>
    let r := c.run H (s.stores i) env
    ({ s with stores := Function.update s.stores i r.1 }, r.2)

end

/-! ## Handlers -/

inductive Host
  | router
  | shard (i : ℕ)
deriving DecidableEq, Repr

abbrev Handler := Prog RelayCall RelayCall.Answer Response

/-- `RateLimits`, all entries. -/
structure ShardLimits extends RateLimits where
  putsPerXfer : ℤ
  putsPerIP : ℤ

/-- `DefaultRateLimits`. -/
def defaultRateLimits : ShardLimits where
  sendsPerSender := 600
  sendsPerTarget := 600
  sendsPerIP := 1200
  receivesPerIP := 1200
  putsPerXfer := 2000
  putsPerIP := 4000

/-- The status of a redirect of `http.ServeMux` : 301, or 307 in later releases of Go. -/
abbrev RedirectStatus := { n : ℕ // n = 301 ∨ n = 307 }

/-- The parameters of a router and its shards. `sign` is `ed25519.Sign` under the key of the
router. The redirects to a clean path and to a subtree have the statuses `moved` and `slashed`, and
for a `GET` the page `page`. -/
structure Deployment where
  np : Codec
  H : Bytes → Digest
  verify : Verifier
  mac : Bytes → Bytes → Digest
  sign : Bytes → Bytes
  pub : ByteArr 32
  router : Router.Config
  limits : ShardLimits
  moved : RedirectStatus
  slashed : RedirectStatus
  page : Bytes → Bytes

section Blocks

variable (np : Codec) (host : Host)

/-- `writeError` of a host. -/
def Host.writeError (e : ProtocolError) : Response :=
  match host with
  | .router => Router.writeError np e
  | .shard _ => Shard.writeError np e

/-- `writeError(w, pe); return`. -/
def Host.refuse (e : ProtocolError) : Handler :=
  .ret (host.writeError np e)

/-- `if err != nil { writeError(w, protocol.AsProtocolError(err)); return }`. -/
def Host.orRefuse {α : Type} (x : Wire α) (rest : α → Handler) : Handler :=
  match x with
  | .error e => host.refuse np (asProtocolError e)
  | .ok a => rest a

/-- `writeProto` of a body, if it can be encoded. -/
def Host.respond (schema : UInt8) (x : Wire Bytes) : Handler :=
  host.orRefuse np x fun body => .ret (writeProto schema body)

/-- The method test of the handlers of a `POST`. -/
def Host.onPost (r : HTTPRequest) (rest : Handler) : Handler :=
  if r.method ≠ .post then host.refuse np ⟨.invalidRequest, "method not allowed", 0⟩ else rest

/-- `allow` of several keys of a shard, up to the first that is refused. -/
def Host.allowed (i : ℕ) (now : ℤ) : List (Bytes × ℤ) → Handler → Handler
  | [], rest => rest
  | (key, max) :: slots, rest =>
    .call (.allow i key now max) fun (ok : Bool) =>
      if ok then allowed i now slots rest
      else host.refuse np ⟨.rateLimited, "rate limited", 60⟩

/-- The answer to a `Hello`. -/
def helloNow (now : ℤ) : Hello :=
  ⟨1, 1, UInt64.ofInt now⟩

/-- `handleHello`, which is the same at the router and at the shards. -/
def handleHello (r : HTTPRequest) : Handler :=
  let answer : Handler := .call .clock fun (now : ℤ) =>
    .ret (writeProto 50 (packed np (helloNow now).fields))
  match r.method with
  | .connect | .other => host.refuse np ⟨.invalidRequest, "method not allowed", 0⟩
  | .get => answer
  | .post => host.orRefuse np (decodeRequest r 64 (unmarshalHello np)) fun _ => answer

end Blocks

/-- `limit := int(req.Limit); if limit <= 0 { limit = protocol.MaxBatchMessages }`. -/
def ReceiveMessages.batchLimit (q : ReceiveMessages) : ℤ :=
  if (q.limit.toNat : ℤ) ≤ 0 then maxBatchMessages else q.limit.toNat

namespace Deployment

variable (d : Deployment)

/-! ### The shard -/

section Shard

variable (i : ℕ) (r : HTTPRequest)

/-- `handleSend`. -/
def handleSend : Handler :=
  let host := Host.shard i
  host.onPost d.np r <|
  .call .clock fun (now : ℤ) =>
  host.orRefuse d.np (decodeRequest r maxRequestBytes (unmarshalSendMessage d.np)) fun msg =>
  host.orRefuse d.np (wireCheck (authSend d.H d.verify msg now)) fun _ =>
  .call (.store i (.checkAndMarkReplay (replayKey d.H replayDomainMsg msg.senderPub msg.nonce)))
    fun (seen : Bool) =>
  if seen then host.refuse d.np ⟨.replayDetected, "replay detected", 0⟩ else
  host.allowed d.np i now (sendSlots d.limits.toRateLimits msg r.ip) <|
  .call (.store i (.sendMessage msg)) fun (res : Result (ID × ℕ)) =>
  host.orRefuse d.np (res.mapError .protocol) fun sent =>
  host.respond d.np 58 (marshalSendMessageResponse d.np 1 (UInt32.ofNat sent.2) sent.1.toList)

/-- `handleReceive`. -/
def handleReceive : Handler :=
  let host := Host.shard i
  host.onPost d.np r <|
  .call .clock fun (now : ℤ) =>
  host.orRefuse d.np (decodeRequest r 256 (unmarshalReceiveMessages d.np)) fun req =>
  host.allowed d.np i now [(ascii "recv-ip:" ++ r.ip, d.limits.receivesPerIP)] <|
  .call (.store i (.receiveMessages (copyArr 16 req.mailboxID) req.readSecret req.batchLimit
    (req.peek == 1))) fun (res : Result (List StoredMessage × Bool)) =>
  host.orRefuse d.np (res.mapError .protocol) fun out =>
  host.respond d.np 60
    (marshalReceiveMessagesResponse d.np (out.1.map StoredMessage.received) out.2)

/-- `handleAck`. -/
def handleAck : Handler :=
  let host := Host.shard i
  host.onPost d.np r <|
  host.orRefuse d.np (decodeRequest r (maxBatchMessages * 16 + 256) (unmarshalMessageAck d.np))
    fun req =>
  .call (.store i (.ackMessages (copyArr 16 req.mailboxID) req.readSecret req.msgIDs
    req.disposition)) fun (res : Result (ℕ × ℕ)) =>
  host.orRefuse d.np (res.mapError .protocol) fun out =>
  host.respond d.np 62
    (marshalMessageAckResponse d.np (UInt32.ofNat out.1) (UInt32.ofNat out.2))

/-- The keys `handleCreate` is limited under. -/
def createSlots (t : TransferCreate) (ip : Bytes) : List (Bytes × ℤ) :=
  [(ascii "create-sender:" ++ hexEncode t.senderPub, d.limits.sendsPerSender),
    (ascii "create-ip:" ++ ip, d.limits.sendsPerIP)]

/-- `handleCreate`. -/
def handleCreate : Handler :=
  let host := Host.shard i
  host.onPost d.np r <|
  .call .clock fun (now : ℤ) =>
  host.orRefuse d.np (decodeRequest r (maxManifestBytes + 512) (unmarshalTransferCreate d.np))
    fun req =>
  host.orRefuse d.np (wireCheck (authCreate d.H d.verify req now)) fun _ =>
  .call (.store i (.checkAndMarkReplay
    (replayKey d.H replayDomainCreate req.senderPub req.nonce))) fun (seen : Bool) =>
  if seen then host.refuse d.np ⟨.replayDetected, "replay detected", 0⟩ else
  host.allowed d.np i now (d.createSlots req r.ip) <|
  .call (.store i (.createTransfer req)) fun (res : Result (ID × Bytes × ℤ)) =>
  host.orRefuse d.np (res.mapError .protocol) fun out =>
  host.respond d.np 64 (marshalTransferCreateResponse d.np
    ⟨out.1.toList, UInt64.ofInt out.2.2, req.chunkSize, out.2.1⟩)

/-- The keys `handlePut` is limited under. -/
def putSlots (c : ChunkUpload) (ip : Bytes) : List (Bytes × ℤ) :=
  [(ascii "put-xfer:" ++ hexEncode c.transferID, d.limits.putsPerXfer),
    (ascii "put-ip:" ++ ip, d.limits.putsPerIP)]

/-- `handlePut`. -/
def handlePut : Handler :=
  let host := Host.shard i
  host.onPost d.np r <|
  .call .clock fun (now : ℤ) =>
  host.orRefuse d.np (decodeRequest r (maxChunkBytes + 2048) (unmarshalChunkUpload d.np))
    fun req =>
  host.allowed d.np i now (d.putSlots req r.ip) <|
  .call (.store i (.putChunk req)) fun (res : Result ℕ) =>
  host.orRefuse d.np (res.mapError .protocol) fun _ =>
  .call (.store i (.progress (copyArr 16 req.transferID)))
    fun (res : Result (ResumeView × TransferView)) =>
  host.orRefuse d.np (res.mapError .protocol) fun views =>
  host.respond d.np 66 (marshalChunkAck d.np (chunkAckOf (copyArr 16 req.transferID) views.1))

/-- The call of `handleGet` : a request in ticket mode names no mailbox. -/
def getCall (req : ChunkDownload) (rest : Result (Bytes × Bytes) → Handler) : Handler :=
  let tid := copyArr 16 req.transferID
  if req.ticketMode then .call (.store i (.getChunkByTicket tid req.ticket req.index)) rest
  else .call (.store i (.getChunk tid (copyArr 16 req.mailboxID) req.readSecret req.index)) rest

/-- `handleGet`. -/
def handleGet : Handler :=
  let host := Host.shard i
  host.onPost d.np r <|
  host.orRefuse d.np (decodeRequest r 256 (unmarshalChunkDownload d.np)) fun req =>
  if req.count ≠ 1 then host.refuse d.np ⟨.invalidRequest, "count must be 1 in v1", 0⟩ else
  getCall i req fun res =>
  host.orRefuse d.np (res.mapError .protocol) fun out =>
  host.respond d.np 68 (marshalChunkDownloadResponse d.np
    ⟨(copyArr 16 req.transferID).toList, req.index, out.1, out.2⟩)

/-- The call of `handleResume`. -/
def resumeCall (req : ResumeRequest) (rest : Result (ResumeView × TransferView) → Handler) :
    Handler :=
  let tid := copyArr 16 req.transferID
  if req.ticketMode then .call (.store i (.resumeByTicket tid req.ticket)) rest
  else .call (.store i (.resume tid (copyArr 16 req.mailboxID) req.readSecret)) rest

/-- `handleResume`. -/
def handleResume : Handler :=
  let host := Host.shard i
  host.onPost d.np r <|
  host.orRefuse d.np (decodeRequest r 256 (unmarshalResumeRequest d.np)) fun req =>
  resumeCall i req fun res =>
  host.orRefuse d.np (res.mapError .protocol) fun views =>
  host.respond d.np 70
    (marshalResumeResponse d.np (resumeResponseOf (copyArr 16 req.transferID) views.1))

/-- `handleComplete`. -/
def handleComplete : Handler :=
  let host := Host.shard i
  host.onPost d.np r <|
  .call .clock fun (now : ℤ) =>
  host.orRefuse d.np (decodeRequest r 512 (unmarshalTransferComplete d.np)) fun req =>
  host.orRefuse d.np (wireCheck (authComplete d.verify req now)) fun _ =>
  .call (.store i (.checkAndMarkReplay
    (replayKey d.H replayDomainComplete req.senderPub req.nonce))) fun (seen : Bool) =>
  if seen then host.refuse d.np ⟨.replayDetected, "replay detected", 0⟩ else
  .call (.store i (.getTransfer (copyArr 16 req.transferID))) fun (res : Result TransferView) =>
  host.orRefuse d.np (res.mapError .protocol) fun tv =>
  if tv.senderPub ≠ req.senderPub then host.refuse d.np ⟨.authFailed, "sender mismatch", 0⟩ else
  .call (.store i (.completeTransfer req)) fun (res : Result (Bool × ℕ × ℕ)) =>
  host.orRefuse d.np (res.mapError .protocol) fun out =>
  host.respond d.np 72 (marshalTransferCompleteResponse d.np
    ⟨if out.1 then 1 else 0, UInt32.ofNat out.2.2, UInt32.ofNat out.2.1⟩)

/-- `handleCancel`. -/
def handleCancel : Handler :=
  let host := Host.shard i
  host.onPost d.np r <|
  host.orRefuse d.np (decodeRequest r 256 (unmarshalTransferCancel d.np)) fun req =>
  .call (.store i (.cancelTransfer (copyArr 16 req.transferID) (copyArr 16 req.mailboxID)
    req.readSecret)) fun (res : Result Unit) =>
  host.orRefuse d.np (res.mapError .protocol) fun _ =>
  host.respond d.np 62 (marshalMessageAckResponse d.np 1 0)

end Shard

/-! ### The muxes -/

section Mux

variable (i : ℕ) (r : HTTPRequest)

/-- What a mux answers to `*`. -/
def badRequest : Response :=
  ⟨400, none, "", none, []⟩

/-- `http.NotFound`, what a mux answers to a path it does not know. -/
def notFound : Response :=
  ⟨404, none, "", none, ascii "404 page not found\n"⟩

/-- `http.RedirectHandler`. -/
def redirect (status : RedirectStatus) (target : Bytes) : Response :=
  ⟨status, none, "", some target, if r.method = .get then d.page target else []⟩

/-- What a mux makes of the path of a request. -/
def findIn {α : Type} (mux : List (ServeMux.Pattern × α)) : ServeMux.Found α :=
  ServeMux.find mux (r.method = .connect) r.path

/-- `ServeHTTP` of a mux. -/
def muxServe {α : Type} (mux : List (ServeMux.Pattern × α)) (serve : α → Handler) : Handler :=
  if r.path = ascii "*" then .ret badRequest else
  match findIn r mux with
  | .serve a => serve a
  | .slash target => .ret (d.redirect r d.slashed target)
  | .clean target => .ret (d.redirect r d.moved target)
  | .unknown => .ret notFound

/-- The routes `NewHandler` of the shard registers a handler for. -/
def shardRoutes : List Route :=
  [.hello, .send, .receive, .ack, .create, .put, .get, .resume, .complete, .cancel]

def shardMux : List (ServeMux.Pattern × Route) :=
  shardRoutes.map fun route => (ServeMux.parse route.path, route)

/-- The handler of a route. -/
def shardHandler : Route → Handler
  | .hello => handleHello d.np (.shard i) r
  | .send => d.handleSend i r
  | .receive => d.handleReceive i r
  | .ack => d.handleAck i r
  | .create => d.handleCreate i r
  | .put => d.handlePut i r
  | .get => d.handleGet i r
  | .resume => d.handleResume i r
  | .complete => d.handleComplete i r
  | .cancel => d.handleCancel i r
  -- These are not registered.
  | .register | .resolve | .table => .ret notFound

/-- `ServeHTTP` of the shard. -/
def shardServe : Handler :=
  d.muxServe r shardMux (d.shardHandler i r)

end Mux

/-! ### The router -/

section Router

variable (r : HTTPRequest)

/-- The response to a registration. -/
def registered (mid : ID) (secret : ByteArr 32) (primary : Bytes) (now : ℤ) : RegisterResponse where
  mailboxID := mid.toList
  readSecret := secret.toList
  shardURL := primary
  tableVersion := d.router.version
  expiresAt := UInt64.ofInt (now + capabilityTTLSeconds * 1000)

/-- `handleRegister` from the mailbox id on. -/
def createFor (req : Register) (now : ℤ) : Handler :=
  let refuse (code : ErrCode) (detail : String) := Host.router.refuse d.np ⟨code, detail, 0⟩
  if d.router.secret.length = 0 then refuse .serverUnavailable "router not configured" else
  let mid := mailboxIDFromPub d.mac d.router.secret req.clientPub
  if d.router.shardURLs.length = 0 then refuse .serverUnavailable "no shards" else
  let primary := owner d.H mid d.router.shardURLs
  match d.router.findShard primary with
  | none => refuse .serverUnavailable "shard not found"
  | some ref =>
    .call .draw fun (draw : Option (ByteArr 32)) =>
    match draw with
    | none => refuse .storageUnavailable "rand failed"
    | some secret =>
      .call (.store ref.store (.createMailbox mid (d.H secret.toList))) fun _ =>
      Host.router.respond d.np 53
        (marshalRegisterResponse d.np (d.registered mid secret primary now))

/-- `handleRegister`. -/
def handleRegister : Handler :=
  Host.router.onPost d.np r <|
  .call .clock fun (now : ℤ) =>
  .call (.allowRegister (ascii "reg-ip:" ++ r.ip) now d.router.maxReg) fun (ok : Bool) =>
  if !ok then Host.router.refuse d.np ⟨.rateLimited, "rate limited", 60⟩ else
  Host.router.orRefuse d.np (decodeRequest r 256 (unmarshalRegister d.np)) fun req =>
  Host.router.orRefuse d.np (wireCheck (verifyRegister d.verify req.clientPub req.timestamp
    (copyArr 16 req.nonce) req.signature now)) fun _ =>
  .call (.checkReplay req.clientPub req.nonce now) fun (seen : Bool) =>
  if seen then Host.router.refuse d.np ⟨.replayDetected, "replay detected", 0⟩ else
  d.createFor req now

/-- The response that names a shard. -/
def located (mid : ID) (url : Bytes) : ResolveResponse where
  mailboxID := mid.toList
  shardURL := url
  era := 0
  tableVersion := d.router.version

def respondLocated (mid : ID) (url : Bytes) : Handler :=
  Host.router.respond d.np 55 (marshalResolveResponse d.np (d.located mid url))

/-- The walk of `handleResolve` over the URLs that are left. -/
def probe (mid : ID) (primary : Bytes) : List Bytes → Handler
  | [] => d.respondLocated mid primary
  | u :: left =>
    match d.router.findShard u with
    | none => probe mid primary left
    | some ref =>
      .call (.store ref.store (.mailboxExists mid)) fun (found : Bool) =>
        if found then d.respondLocated mid u else probe mid primary left

/-- `handleResolve`. -/
def handleResolve : Handler :=
  Host.router.onPost d.np r <|
  .call .clock fun (now : ℤ) =>
  .call (.allowResolve (ascii "res-ip:" ++ r.ip) now d.router.maxRes) fun (ok : Bool) =>
  if !ok then Host.router.refuse d.np ⟨.rateLimited, "rate limited", 60⟩ else
  Host.router.orRefuse d.np (decodeRequest r 128 (unmarshalResolve d.np)) fun req =>
  if d.router.secret.length = 0 ∨ d.router.shards.length = 0 then
    Host.router.refuse d.np ⟨.serverUnavailable, "router not configured", 0⟩ else
  let mid := mailboxIDFromPub d.mac d.router.secret req.clientPub
  let primary := owner d.H mid d.router.shardURLs
  d.probe mid primary (primary :: d.router.shardURLs.filter fun u => u ≠ primary)

/-- `handleTable`. -/
def handleTable : Handler :=
  if r.method ≠ .get ∧ r.method ≠ .post then
    Host.router.refuse d.np ⟨.invalidRequest, "method not allowed", 0⟩ else
  .call .clock fun (now : ℤ) =>
  Host.router.orRefuse d.np (FileRelay.handleTable d.H d.np d.sign d.router.version d.pub
    d.router.shardURLs now) fun body => .ret ⟨200, some 56, "public, max-age=60", none, body⟩

/-- `ServeHTTP` of the router. -/
def routerServe : Handler :=
  match r.route with
  | some .register => d.handleRegister r
  | some .resolve => d.handleResolve r
  | some .table => d.handleTable r
  | some .hello => handleHello d.np .router r
  | _ => Host.router.refuse d.np ⟨.invalidRequest, "unknown route", 0⟩

end Router

/-! ## The servers -/

/-- What a host does with a request. -/
def serveHTTP (x : Host × HTTPRequest) : Handler :=
  match x.1 with
  | .router => d.routerServe x.2
  | .shard i => d.shardServe i x.2

/-- The router and its shards. A request comes with the host it is for. -/
def relay : Server Relay Env (Host × HTTPRequest) RelayCall RelayCall.Answer Response where
  handler := d.serveHTTP
  serve := serveCall d.H

/-- The mux of `filerelayd`. The router answers `hello`. -/
def daemonMux : List (ServeMux.Pattern × Host) :=
  [(ServeMux.parse (ascii "/fr/v1/register"), .router),
    (ServeMux.parse (ascii "/fr/v1/resolve"), .router),
    (ServeMux.parse (ascii "/fr/v1/table"), .router),
    (ServeMux.parse (ascii "/fr/v1/hello"), .router),
    (ServeMux.parse (ascii "/fr/v1/send"), .shard 0),
    (ServeMux.parse (ascii "/fr/v1/receive"), .shard 0),
    (ServeMux.parse (ascii "/fr/v1/ack"), .shard 0),
    (ServeMux.parse (ascii "/fr/v1/xfer/"), .shard 0)]

/-- `filerelayd`, the router and one shard behind one mux. -/
def filerelayd : Server Relay Env HTTPRequest RelayCall RelayCall.Answer Response where
  handler r := d.muxServe r daemonMux fun host => d.serveHTTP (host, r)
  serve := serveCall d.H

end Deployment

end FileRelay
