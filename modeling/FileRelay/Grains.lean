import FileRelay.Handlers
import FileRelay.Routes

/-!
# The handlers at other grains

Some results are about a part of the relay, and the handlers are modelled there at the grain the
result is about : `handleReceive` and `handleSend` of `ShardHandlers` are one function each,
`handlers` runs `handlePut` and `handleComplete` from store call to store call, `shardAnswer` is the
authentication of a signed request and its replay test, and `Router.advance` cuts the handlers of
the router where they take a lock. Here each of them is shown to be what the programs of `relay` do.

A handler that is not interrupted is one of the functions (`receive_alone`, `send_alone`). A step of
a machine is what the program does with its next calls, in whatever state the relay is
(`exec_guarded` for `shard`, `exec_startPut`, `exec_checkComplete` and `exec_next` for `handlers`,
`exec_advance` for the router and, with `registerCheck_eq`, for its replay test), so whatever comes
in between two steps comes in between the same two calls.
-/

namespace FileRelay

open NanoPack (Codec)

/-! ## Shards of a relay -/

section Parts

variable (s : Relay) (i : ℕ)

/-- The store and the limiter of a shard. -/
def Relay.shard : ShardHandler :=
  ⟨s.stores i, s.limiters i⟩

/-- The relay with another store and limiter at a shard. -/
def Relay.withShard (h : ShardHandler) : Relay :=
  { s with
    stores := Function.update s.stores i h.store
    limiters := Function.update s.limiters i h.limiter }

theorem Relay.withShard_shard : s.withShard i (s.shard i) = s := by
  simp [Relay.withShard, Relay.shard]

theorem Relay.stores_withShard (h : ShardHandler) : (s.withShard i h).stores i = h.store :=
  Function.update_self ..

theorem Relay.limiters_withShard (h : ShardHandler) : (s.withShard i h).limiters i = h.limiter :=
  Function.update_self ..

/-- What the machine of the router has of a relay. -/
def Relay.routerView (tasks : List Router.Task) : Router.State :=
  ⟨s.stores, s.regRL, s.resRL, s.replay, tasks⟩

def Relay.withRouter (t : Router.State) : Relay :=
  ⟨t.stores, s.limiters, t.regRL, t.resRL, t.replay⟩

end Parts

section Requests

variable {r : HTTPRequest} {limit : ℕ}

/-- A `POST` whose body arrives, and which does not declare a longer one than the limit. -/
structure HTTPRequest.Whole (r : HTTPRequest) (limit : ℕ) : Prop where
  method : r.method = .post
  declared : r.contentLength ≤ limit
  whole : r.broken = false

theorem readBody_take (raw : Bytes) :
    readBody (raw.take (limit + 1)) limit = readBody raw limit := by
  unfold readBody
  by_cases hlong : limit < raw.length
  · rw [if_pos hlong, if_pos (by rw [List.length_take]; omega)]
  · rw [List.take_of_length_le (by omega)]

theorem HTTPRequest.Whole.readRequest_eq (h : r.Whole limit) :
    readRequest r limit = readBody r.body limit := by
  unfold readRequest
  rw [if_neg (not_lt.mpr h.declared), if_neg (by simp [h.whole]), readBody_take]

/-- A body, decoded. -/
def decodeBody {α : Type} (raw : Bytes) (limit : ℕ) (unmarshal : Bytes → Wire α) : Wire α :=
  match readBody raw limit with
  | .error e => .error (.protocol e)
  | .ok raw => unmarshal raw

theorem HTTPRequest.Whole.decodeRequest_eq {α : Type} (h : r.Whole limit)
    (unmarshal : Bytes → Wire α) :
    decodeRequest r limit unmarshal = decodeBody r.body limit unmarshal := by
  unfold decodeRequest decodeBody
  rw [h.readRequest_eq]
  cases readBody r.body limit <;> rfl

theorem HTTPRequest.Whole.onPost_eq (h : r.Whole limit) (np : Codec) (host : Host)
    (rest : Handler) : host.onPost np r rest = rest :=
  if_neg (not_not.mpr h.method)

end Requests

/-! ## Blocks -/

section Blocks

variable (np : Codec) (host : Host) (H : Bytes → Digest)

/-- The response with a body, or with the error that it could not be encoded. -/
def Host.reply (schema : UInt8) : Wire Bytes → Response
  | .error e => host.writeError np (asProtocolError e)
  | .ok body => writeProto schema body

theorem exec_respond (schema : UInt8) (x : Wire Bytes) (envs : List Env) (s : Relay) :
    (host.respond np schema x).exec (serveCall H) envs s =
      (s, .ret (host.reply np schema x)) := by
  cases x <;> rfl

theorem exec_orRefuse {α : Type} (x : Wire α) (rest : α → Handler) (envs : List Env)
    (s : Relay) : (host.orRefuse np x rest).exec (serveCall H) envs s =
      match x with
      | .error e => (s, .ret (host.writeError np (asProtocolError e)))
      | .ok a => (rest a).exec (serveCall H) envs s := by
  cases x <;> rfl

theorem exec_clock (next : ℤ → Handler) (env : Env) (envs : List Env) (s : Relay) :
    (Prog.call .clock next : Handler).exec (serveCall H) (env :: envs) s =
      (next env.now).exec (serveCall H) envs s := rfl

variable (s : Relay) (i : ℕ) (h : ShardHandler)

theorem exec_allow (key : Bytes) (now max : ℤ) (next : Bool → Handler) (env : Env)
    (envs : List Env) :
    (Prog.call (.allow i key now max) next : Handler).exec (serveCall H) (env :: envs)
        (s.withShard i h) =
      (next (allow h.limiter key now max).2).exec (serveCall H) envs
        (s.withShard i ⟨h.store, (allow h.limiter key now max).1⟩) := by
  have hserve : serveCall H (s.withShard i h) env (.allow i key now max) =
      (s.withShard i ⟨h.store, (allow h.limiter key now max).1⟩,
        (allow h.limiter key now max).2) :=
    Prod.ext (by simp [serveCall, Relay.withShard])
      (congrArg (fun b => (allow b key now max).2) (s.limiters_withShard i h))
  refine (Prog.exec_call ..).trans ?_
  rw [hserve]

theorem exec_store (c : StoreCall) (next : c.Answer → Handler) (env : Env) (envs : List Env) :
    (Prog.call (.store i c) next : Handler).exec (serveCall H) (env :: envs) (s.withShard i h) =
      (next (c.run H h.store env).2).exec (serveCall H) envs
        (s.withShard i ⟨(c.run H h.store env).1, h.limiter⟩) := by
  have hserve : serveCall H (s.withShard i h) env (.store i c) =
      (s.withShard i ⟨(c.run H h.store env).1, h.limiter⟩, (c.run H h.store env).2) :=
    Prod.ext (by simp [serveCall, Relay.withShard])
      (congrArg (fun store => (c.run H store env).2) (s.stores_withShard i h))
  refine (Prog.exec_call ..).trans ?_
  rw [hserve]

/-- One call of a store, by its answer. -/
theorem exec_answered {c : StoreCall} {env : Env} {store : MemStore} {a : c.Answer}
    (hrun : c.run H h.store env = (store, a)) (next : c.Answer → Handler) :
    (Prog.call (.store i c) next : Handler).exec (serveCall H) [env] (s.withShard i h) =
      (s.withShard i ⟨store, h.limiter⟩, next a) := by
  rw [exec_store, hrun, Prog.exec_nil]

theorem exec_checkAndMarkReplay (key : Digest) (next : Bool → Handler) (env : Env)
    (envs : List Env) :
    (Prog.call (.store i (.checkAndMarkReplay key)) next : Handler).exec (serveCall H)
        (env :: envs) (s.withShard i h) =
      (next (checkAndMarkReplay h.store env.now key).2).exec (serveCall H) envs
        (s.withShard i ⟨(checkAndMarkReplay h.store env.now key).1, h.limiter⟩) :=
  exec_store ..

/-- The slots are taken as `allowAll` takes them. -/
theorem exec_allowed (now : ℤ) (rest : Handler) : ∀ (slots : List (Bytes × ℤ)) (envs : List Env)
    (h : ShardHandler), slots.length ≤ envs.length →
    (host.allowed np i now slots rest).exec (serveCall H) envs (s.withShard i h) =
      match allowAll now h.limiter slots with
      | (buckets, true) => rest.exec (serveCall H) (envs.drop slots.length)
          (s.withShard i ⟨h.store, buckets⟩)
      | (buckets, false) => (s.withShard i ⟨h.store, buckets⟩,
          .ret (host.writeError np ⟨.rateLimited, "rate limited", 60⟩))
  | [], _, _, _ => rfl
  | (key, max) :: slots, env :: envs, h, hlen => by
    unfold Host.allowed allowAll
    rw [exec_allow]
    rcases allow h.limiter key now max with ⟨buckets, _ | _⟩
    · rfl
    · exact exec_allowed now rest slots envs ⟨h.store, buckets⟩ (Nat.le_of_succ_le_succ hlen)

end Blocks

namespace Deployment

variable (d : Deployment) (i : ℕ)

/-! ## The replay test -/

/-- The authentication of a request and the replay test, as the handlers of a shard make them. -/
def guarded (q : Request) (entry : ℤ) (rest : Handler) : Handler :=
  (Host.shard i).orRefuse d.np (wireCheck (q.auth d.H d.verify entry)) fun _ =>
  .call (.store i (.checkAndMarkReplay (q.replayKey d.H))) fun (seen : Bool) =>
  if seen then (Host.shard i).refuse d.np ⟨.replayDetected, "replay detected", 0⟩ else rest

/-- A handler of signed requests up to the replay test, and what it goes on with. -/
def enters {α : Type} (r : HTTPRequest) (limit : ℕ) (unmarshal : Bytes → Wire α) (q : α → Request)
    (rest : α → ℤ → Handler) : Handler :=
  (Host.shard i).onPost d.np r <|
  .call .clock fun (now : ℤ) =>
  (Host.shard i).orRefuse d.np (decodeRequest r limit unmarshal) fun m =>
  d.guarded i (q m) now (rest m now)

/-- The handlers that `shardAnswer` is a step of. -/
theorem enters_of_signed (r : HTTPRequest) :
    (∃ rest, d.handleSend i r =
      d.enters i r maxRequestBytes (unmarshalSendMessage d.np) .send rest) ∧
    (∃ rest, d.handleCreate i r =
      d.enters i r (maxManifestBytes + 512) (unmarshalTransferCreate d.np) .create rest) ∧
    ∃ rest, d.handleComplete i r =
      d.enters i r 512 (unmarshalTransferComplete d.np) .complete rest :=
  ⟨⟨_, rfl⟩, ⟨_, rfl⟩, ⟨_, rfl⟩⟩

/-- The replay test is a step of `shard`. -/
theorem exec_guarded (q : Request) (entry : ℤ) (rest : Handler) (env : Env) (envs : List Env)
    (s : Relay) (h : ShardHandler) (inflight : List (Option ℤ)) :
    (d.guarded i q entry rest).exec (serveCall d.H) (env :: envs) (s.withShard i h) =
      let out := shardAnswer d.H d.verify ⟨h.store, env.now, inflight⟩ entry q
      let t := s.withShard i ⟨out.1.store, h.limiter⟩
      match out.2 with
      | .refused e => (t, .ret (Shard.writeError d.np e))
      | .replayed _ => (t, .ret (Shard.writeError d.np ⟨.replayDetected, "replay detected", 0⟩))
      | _ => rest.exec (serveCall d.H) envs t := by
  unfold guarded shardAnswer
  rw [exec_orRefuse]
  rcases q.auth d.H d.verify entry with e | -
  · rfl
  refine (exec_checkAndMarkReplay ..).trans ?_
  rcases checkAndMarkReplay h.store env.now (q.replayKey d.H) with ⟨store, _ | _⟩ <;> rfl

/-! ## A handler on its own -/

section Alone

/-- A request whose handler is not interrupted. -/
theorem run_alone (s : Pool Relay RelayCall RelayCall.Answer Response) (x : Host × HTTPRequest)
    (envs : List Env) {t : Relay} {resp : Response}
    (h : (d.serveHTTP x).exec (serveCall d.H) envs s.object = (t, .ret resp)) :
    d.relay.pool.run s (.start x :: envs.map (.advance s.tasks.length)) =
      ⟨t, s.tasks ++ [.ret resp]⟩ := by
  have hk : (s.tasks ++ [d.serveHTTP x])[s.tasks.length]? = some (d.serveHTTP x) := by simp
  have hrun := d.relay.run_advances envs (s := ⟨s.object, s.tasks ++ [d.serveHTTP x]⟩) hk
  rw [Machine.run_cons, Server.step_start]
  refine hrun.trans ?_
  change Pool.mk ((d.serveHTTP x).exec (serveCall d.H) envs s.object).1
    ((s.tasks ++ [d.serveHTTP x]).set s.tasks.length
      ((d.serveHTTP x).exec (serveCall d.H) envs s.object).2) = _
  rw [h]
  simp

variable {r : HTTPRequest} (s : Relay) (h : ShardHandler)

theorem exec_handleReceive (hr : r.Whole 256) (entry limiter store : Env) :
    (d.handleReceive i r).exec (serveCall d.H) [entry, limiter, store] (s.withShard i h) =
      let out := FileRelay.handleReceive d.np d.H d.limits.toRateLimits h entry.now store.now r.ip
        r.body
      (s.withShard i out.1, .ret ((Host.shard i).reply d.np 60 out.2)) := by
  unfold handleReceive FileRelay.handleReceive
  rw [hr.onPost_eq, exec_clock, exec_orRefuse, hr.decodeRequest_eq]
  unfold decodeBody
  rcases readBody r.body 256 with e | raw
  · rfl
  dsimp only
  rcases unmarshalReceiveMessages d.np raw with e | req
  · rfl
  dsimp only
  rw [exec_allowed _ _ _ _ _ _ _ _ _ _ (by simp)]
  dsimp only [allowAll]
  rcases allow h.limiter (ascii "recv-ip:" ++ r.ip) entry.now d.limits.receivesPerIP with
    ⟨buckets, _ | _⟩
  · rfl
  refine (exec_store ..).trans ?_
  rw [exec_orRefuse]
  dsimp only [StoreCall.run, ReceiveMessages.batchLimit]
  rcases receiveMessages d.H h.store store.now (copyArr 16 req.mailboxID) req.readSecret _ _
    with ⟨store', e | out⟩
  · rfl
  · exact exec_respond ..

theorem exec_handleSend (hr : r.Whole maxRequestBytes) (entry replay l₁ l₂ l₃ store : Env) :
    (d.handleSend i r).exec (serveCall d.H) [entry, replay, l₁, l₂, l₃, store] (s.withShard i h) =
      let out := FileRelay.handleSend d.np d.H d.verify d.limits.toRateLimits h entry.now
        replay.now store.now r.ip r.body store.id
      (s.withShard i out.1, .ret ((Host.shard i).reply d.np 58 out.2)) := by
  unfold handleSend FileRelay.handleSend
  rw [hr.onPost_eq, exec_clock, exec_orRefuse, hr.decodeRequest_eq]
  unfold decodeBody
  rcases readBody r.body maxRequestBytes with e | raw
  · rfl
  dsimp only
  rcases unmarshalSendMessage d.np raw with e | msg
  · rfl
  dsimp only
  refine (d.exec_guarded i (.send msg) entry.now _ replay _ s h []).trans ?_
  unfold shardAnswer
  dsimp only [Request.auth, Request.replayKey]
  rcases authSend d.H d.verify msg entry.now with e | -
  · rfl
  dsimp only
  rcases checkAndMarkReplay h.store replay.now
    (replayKey d.H replayDomainMsg msg.senderPub msg.nonce) with ⟨marked, _ | _⟩
  swap
  · rfl
  refine (exec_allowed _ _ _ _ _ _ _ _ _ _ (by simp [sendSlots])).trans ?_
  dsimp only
  rcases allowAll entry.now h.limiter (sendSlots d.limits.toRateLimits msg r.ip) with
    ⟨buckets, _ | _⟩
  · rfl
  refine (exec_store ..).trans ?_
  rw [exec_orRefuse]
  dsimp only [StoreCall.run]
  rcases sendMessage marked store.now msg store.id with ⟨sent, e | out⟩
  · rfl
  · exact exec_respond ..

/-- A receive that is not interrupted is `handleReceive` of `ShardHandlers`. -/
theorem receive_alone (p : Pool Relay RelayCall RelayCall.Answer Response) (hr : r.Whole 256)
    (hroute : r.Spells .receive) (entry limiter store : Env) :
    let out := FileRelay.handleReceive d.np d.H d.limits.toRateLimits (p.object.shard i) entry.now
      store.now r.ip r.body
    d.relay.pool.run p
        (.start (.shard i, r) :: [entry, limiter, store].map (.advance p.tasks.length)) =
      ⟨p.object.withShard i out.1, p.tasks ++ [.ret ((Host.shard i).reply d.np 60 out.2)]⟩ := by
  have hserve : d.serveHTTP (.shard i, r) = d.handleReceive i r :=
    d.shardServe_of_spells i (by decide) hroute
  have hexec := d.exec_handleReceive i p.object (p.object.shard i) hr entry limiter store
  rw [Relay.withShard_shard, ← hserve] at hexec
  exact d.run_alone p _ _ hexec

/-- A send that is not interrupted is `handleSend` of `ShardHandlers`. -/
theorem send_alone (p : Pool Relay RelayCall RelayCall.Answer Response)
    (hr : r.Whole maxRequestBytes) (hroute : r.Spells .send)
    (entry replay l₁ l₂ l₃ store : Env) :
    let out := FileRelay.handleSend d.np d.H d.verify d.limits.toRateLimits (p.object.shard i)
      entry.now replay.now store.now r.ip r.body store.id
    d.relay.pool.run p (.start (.shard i, r) ::
        [entry, replay, l₁, l₂, l₃, store].map (.advance p.tasks.length)) =
      ⟨p.object.withShard i out.1, p.tasks ++ [.ret ((Host.shard i).reply d.np 58 out.2)]⟩ := by
  have hserve : d.serveHTTP (.shard i, r) = d.handleSend i r :=
    d.shardServe_of_spells i (by decide) hroute
  have hexec := d.exec_handleSend i p.object (p.object.shard i) hr entry replay l₁ l₂ l₃ store
  rw [Relay.withShard_shard, ← hserve] at hexec
  exact d.run_alone p _ _ hexec

end Alone

/-! ## Puts and completions -/

section Steps

/-- `handlePut` from `Progress` on. -/
def ackPut (c : ChunkUpload) : Handler :=
  .call (.store i (.progress (copyArr 16 c.transferID)))
    fun (res : Result (ResumeView × TransferView)) =>
  (Host.shard i).orRefuse d.np (res.mapError .protocol) fun views =>
  (Host.shard i).respond d.np 66
    (marshalChunkAck d.np (chunkAckOf (copyArr 16 c.transferID) views.1))

/-- `handlePut` from `PutChunk` on. -/
def startPut (c : ChunkUpload) : Handler :=
  .call (.store i (.putChunk c)) fun (res : Result ℕ) =>
  (Host.shard i).orRefuse d.np (res.mapError .protocol) fun _ => d.ackPut i c

/-- `handleComplete` from `CompleteTransfer` on. -/
def sealTransfer (q : TransferComplete) : Handler :=
  .call (.store i (.completeTransfer q)) fun (res : Result (Bool × ℕ × ℕ)) =>
  (Host.shard i).orRefuse d.np (res.mapError .protocol) fun out =>
  (Host.shard i).respond d.np 72 (marshalTransferCompleteResponse d.np
    ⟨if out.1 then 1 else 0, UInt32.ofNat out.2.2, UInt32.ofNat out.2.1⟩)

/-- `handleComplete` from `GetTransfer` on. -/
def findSender (q : TransferComplete) : Handler :=
  .call (.store i (.getTransfer (copyArr 16 q.transferID))) fun (res : Result TransferView) =>
  (Host.shard i).orRefuse d.np (res.mapError .protocol) fun tv =>
  if tv.senderPub ≠ q.senderPub then
    (Host.shard i).refuse d.np ⟨.authFailed, "sender mismatch", 0⟩
  else d.sealTransfer i q

variable (r : HTTPRequest)

/-- The program of a task. -/
def rest : Task → Handler
  | .ackPut c => d.ackPut i c
  | .checkComplete entry =>
    (Host.shard i).orRefuse d.np (decodeRequest r 512 (unmarshalTransferComplete d.np)) fun q =>
    d.guarded i (.complete q) entry (d.findSender i q)
  | .findSender q _ => d.findSender i q
  | .sealTransfer q _ => d.sealTransfer i q

theorem handlePut_eq : d.handlePut i r = (Host.shard i).onPost d.np r
    (.call .clock fun (now : ℤ) =>
      (Host.shard i).orRefuse d.np
        (decodeRequest r (maxChunkBytes + 2048) (unmarshalChunkUpload d.np)) fun req =>
      (Host.shard i).allowed d.np i now (d.putSlots req r.ip) (d.startPut i req)) :=
  rfl

theorem handleComplete_eq : d.handleComplete i r = (Host.shard i).onPost d.np r
    (.call .clock fun (now : ℤ) => d.rest i r (.checkComplete now)) :=
  rfl

/-- What the program of handler `k` is after a step of `handlers` with the state `t`. -/
def Follows (t : HandlerState) (k : ℕ) (p : Handler) : HandlerOutput → Prop
  | .quiet => ∃ task, t.tasks[k]? = some (some task) ∧ p = d.rest i r task
  | .refused e => t.tasks[k]?.join = none ∧ p = (Host.shard i).refuse d.np e
  | .acked _ a => t.tasks[k]?.join = none ∧
      p = (Host.shard i).respond d.np 66 (marshalChunkAck d.np a)
  | .completed _ => t.tasks[k]?.join = none ∧
      ∃ res, p = (Host.shard i).respond d.np 72 (marshalTransferCompleteResponse d.np res)
  | .called _ => False

variable (s : Relay) (h : HandlerState) (limiter : Buckets) (env : Env)

variable {r h env} in
/-- A call that the program and the step of `handlers` make leaves the same. -/
theorem follows_call {c : StoreCall} {store : MemStore} {a : c.Answer}
    (hrun : c.run d.H h.store env = (store, a)) {next : c.Answer → Handler} {t : HandlerState}
    {k : ℕ} {o : HandlerOutput} (hstore : t.store = store)
    (hnext : d.Follows i r t k (next a) o) :
    let run := (Prog.call (.store i c) next : Handler).exec (serveCall d.H) [env]
      (s.withShard i ⟨h.store, limiter⟩)
    run.1 = s.withShard i ⟨t.store, limiter⟩ ∧ d.Follows i r t k run.2 o := by
  rw [exec_answered d.H s i ⟨h.store, limiter⟩ hrun, hstore]
  exact ⟨rfl, hnext⟩

/-- `PutChunk` is the step of `handlers` that starts the task of a put. -/
theorem exec_startPut (c : ChunkUpload) :
    let out := FileRelay.handlePut d.H h env.now c
    let run := (d.startPut i c).exec (serveCall d.H) [env] (s.withShard i ⟨h.store, limiter⟩)
    run.1 = s.withShard i ⟨out.1.store, limiter⟩ ∧
      d.Follows i r out.1 h.tasks.length run.2 out.2 := by
  unfold FileRelay.handlePut startPut
  rcases hput : putChunk d.H h.store env.now c with ⟨store, e | n⟩
  · exact d.follows_call i s limiter (c := .putChunk c) hput rfl ⟨by simp, rfl⟩
  · exact d.follows_call i s limiter (c := .putChunk c) hput rfl ⟨.ackPut c, by simp, rfl⟩

variable {h} {k : ℕ}

theorem join_proceed (store : MemStore) : (h.proceed k store none).tasks[k]?.join = none := by
  unfold HandlerState.proceed
  rw [List.getElem?_set, if_pos rfl]
  split_ifs <;> rfl

theorem getElem?_proceed {task : Option Task} (hk : h.tasks[k]? = some task) (store : MemStore)
    (task' : Option Task) : (h.proceed k store task').tasks[k]? = some task' :=
  List.getElem?_set_self (List.getElem?_eq_some_iff.mp hk).1

variable {r} in
/-- The replay test of a completion is the step of `handlers` that checks its request. -/
theorem exec_checkComplete {entry : ℤ} {q : TransferComplete}
    (hk : h.tasks[k]? = some (some (.checkComplete entry)))
    (hq : decodeRequest r 512 (unmarshalTransferComplete d.np) = .ok q) :
    let out := handlerStep d.H d.verify h (.check k env.now q)
    let run := (d.rest i r (.checkComplete entry)).exec (serveCall d.H) [env]
      (s.withShard i ⟨h.store, limiter⟩)
    run.1 = s.withShard i ⟨out.1.store, limiter⟩ ∧ d.Follows i r out.1 k run.2 out.2 := by
  have hexec : (d.rest i r (.checkComplete entry)).exec (serveCall d.H) [env]
        (s.withShard i ⟨h.store, limiter⟩) =
      (d.guarded i (.complete q) entry (d.findSender i q)).exec (serveCall d.H) [env]
        (s.withShard i ⟨h.store, limiter⟩) := by
    unfold rest
    rw [hq]
    rfl
  dsimp only [handlerStep]
  rw [hk, hexec, d.exec_guarded i _ _ _ _ _ _ _ []]
  dsimp only [verifyComplete, shardAnswer, Request.auth, Request.replayKey]
  rcases authComplete d.verify q entry with e | -
  · exact ⟨rfl, join_proceed _, rfl⟩
  dsimp only
  rcases checkAndMarkReplay h.store env.now
    (replayKey d.H replayDomainComplete q.senderPub q.nonce) with ⟨store, _ | _⟩
  · exact ⟨rfl, .findSender q entry, getElem?_proceed hk _ _, rfl⟩
  · exact ⟨rfl, join_proceed _, rfl⟩

/-- Every other call of a task is its next step in `handlers`. -/
theorem exec_next {task : Task} (hk : h.tasks[k]? = some (some task))
    (hentered : ∀ entry, task ≠ .checkComplete entry) :
    let out := handlerStep d.H d.verify h (.next k env.now)
    let run := (d.rest i r task).exec (serveCall d.H) [env] (s.withShard i ⟨h.store, limiter⟩)
    run.1 = s.withShard i ⟨out.1.store, limiter⟩ ∧ d.Follows i r out.1 k run.2 out.2 := by
  dsimp only [handlerStep]
  rw [hk]
  -- The answer to the call of the task decides what is left of it in both.
  cases task with
  | ackPut c =>
    dsimp only [rest, ackPut, finishPut]
    rcases hcall : progress h.store env.now (copyArr 16 c.transferID) with ⟨store, e | views⟩
    · exact d.follows_call i s limiter (c := .progress _) hcall rfl ⟨join_proceed _, rfl⟩
    · exact d.follows_call i s limiter (c := .progress _) hcall rfl ⟨join_proceed _, rfl⟩
  | checkComplete entry => exact absurd rfl (hentered entry)
  | findSender q entry =>
    dsimp only [rest, findSender, checkSender]
    rcases hcall : getTransfer h.store env.now (copyArr 16 q.transferID) with ⟨store, e | tv⟩
    · exact d.follows_call i s limiter (c := .getTransfer _) hcall rfl ⟨join_proceed _, rfl⟩
    dsimp only
    split_ifs with hsender
    · exact d.follows_call i s limiter (c := .getTransfer _) hcall rfl
        ⟨join_proceed _, if_pos hsender⟩
    · exact d.follows_call i s limiter (c := .getTransfer _) hcall rfl
        ⟨.sealTransfer q entry, getElem?_proceed hk _ _, if_neg hsender⟩
  | sealTransfer q entry =>
    dsimp only [rest, sealTransfer, finishComplete]
    rcases hcall : completeTransfer h.store env.now q with ⟨store, e | out⟩
    · exact d.follows_call i s limiter (c := .completeTransfer q) hcall rfl ⟨join_proceed _, rfl⟩
    · exact d.follows_call i s limiter (c := .completeTransfer q) hcall rfl
        ⟨join_proceed _, _, rfl⟩

end Steps

/-! ## The router -/

section Router

/-- `handleRegister` from the body on. -/
def checkRegister (raw : Bytes) (now : ℤ) : Handler :=
  Host.router.orRefuse d.np (decodeBody raw 256 (unmarshalRegister d.np)) fun req =>
  Host.router.orRefuse d.np (wireCheck (verifyRegister d.verify req.clientPub req.timestamp
    (copyArr 16 req.nonce) req.signature now)) fun _ =>
  .call (.checkReplay req.clientPub req.nonce now) fun (seen : Bool) =>
  if seen then Host.router.refuse d.np ⟨.replayDetected, "replay detected", 0⟩ else
  d.createFor req now

/-- `handleResolve` from the body on. -/
def walk (raw : Bytes) : Handler :=
  Host.router.orRefuse d.np (decodeBody raw 128 (unmarshalResolve d.np)) fun req =>
  if d.router.secret.length = 0 ∨ d.router.shards.length = 0 then
    Host.router.refuse d.np ⟨.serverUnavailable, "router not configured", 0⟩ else
  let mid := mailboxIDFromPub d.mac d.router.secret req.clientPub
  let primary := owner d.H mid d.router.shardURLs
  d.probe mid primary (primary :: d.router.shardURLs.filter fun u => u ≠ primary)

/-- The program of a task of the router, unless it is done. -/
def routerRest : Router.Task → Option Handler
  | .registering ip raw now => some <|
    .call (.allowRegister (ascii "reg-ip:" ++ ip) now d.router.maxReg) fun (ok : Bool) =>
    if !ok then Host.router.refuse d.np ⟨.rateLimited, "rate limited", 60⟩ else
    d.checkRegister raw now
  | .admitted raw now => some (d.checkRegister raw now)
  | .checked req now => some (d.createFor req now)
  | .created _ mid secret primary now => some <|
    Host.router.respond d.np 53
      (marshalRegisterResponse d.np (d.registered mid secret primary now))
  | .resolving ip raw now => some <|
    .call (.allowResolve (ascii "res-ip:" ++ ip) now d.router.maxRes) fun (ok : Bool) =>
    if !ok then Host.router.refuse d.np ⟨.rateLimited, "rate limited", 60⟩ else d.walk raw
  | .probing _ mid primary left => some (d.probe mid primary left)
  | .located _ mid url => some (d.respondLocated mid url)
  | .done => none

/-- How many calls a step of a task makes. Without a shard under its URL a turn of the walk makes
none, and `registerCreate` draws before it calls the store. -/
def stepCalls : Router.Task → ℕ
  | .registering _ _ _ | .admitted _ _ | .resolving _ _ _ => 1
  | .checked _ _ => 2
  | .probing _ _ _ (u :: _) => if (d.router.findShard u).isSome then 1 else 0
  | .probing _ _ _ [] | .created _ _ _ _ _ | .located _ _ _ | .done => 0

/-- What the program of a task is after a step. -/
def RouterFollows (task : Router.Task) (p : Handler) : Router.Reply → Prop
  | .quiet | .created _ _ _ => d.routerRest task = some p
  | .refused e => task = .done ∧ p = Host.router.refuse d.np (asProtocolError e)
  | .registered _ _ body => task = .done ∧ p = .ret (writeProto 53 body)
  | .resolved _ _ body => task = .done ∧ p = .ret (writeProto 55 body)
  | .called _ => False

/-- A register past its clock reading. -/
theorem exec_handleRegister {r : HTTPRequest} (hr : r.Whole 256) (s : Relay) (env : Env) :
    ((d.handleRegister r).exec (serveCall d.H) [env] s).1 = s ∧
      d.routerRest (.registering r.ip r.body env.now) =
        some ((d.handleRegister r).exec (serveCall d.H) [env] s).2 := by
  unfold handleRegister
  rw [hr.onPost_eq, exec_clock, hr.decodeRequest_eq]
  exact ⟨rfl, rfl⟩

/-- A resolve past its clock reading. -/
theorem exec_handleResolve {r : HTTPRequest} (hr : r.Whole 128) (s : Relay) (env : Env) :
    ((d.handleResolve r).exec (serveCall d.H) [env] s).1 = s ∧
      d.routerRest (.resolving r.ip r.body env.now) =
        some ((d.handleResolve r).exec (serveCall d.H) [env] s).2 := by
  unfold handleResolve
  rw [hr.onPost_eq, exec_clock, hr.decodeRequest_eq]
  exact ⟨rfl, rfl⟩

/-- A program does with its next calls what a step of the machine does. -/
def Performs (s : Relay) (envs : List Env) (p : Handler)
    (out : Router.State × Router.Task × Router.Reply) : Prop :=
  (p.exec (serveCall d.H) envs s).1 = s.withRouter out.1 ∧
    d.RouterFollows out.2.1 (p.exec (serveCall d.H) envs s).2 out.2.2

variable (s : Relay) (tasks : List Router.Task) (env : Env)

theorem performs_refuse (envs : List Env) (e : WireError) :
    d.Performs s envs (Host.router.refuse d.np (asProtocolError e))
      (Router.refuse (s.routerView tasks) e) :=
  ⟨rfl, rfl, rfl⟩

theorem performs_respond {schema : UInt8} {x : Wire Bytes} {reply : Bytes → Router.Reply}
    (hreply : ∀ body, d.RouterFollows .done (.ret (writeProto schema body)) (reply body)) :
    d.Performs s [] (Host.router.respond d.np schema x)
      (match x with
        | .error e => Router.refuse (s.routerView tasks) e
        | .ok body => (s.routerView tasks, .done, reply body)) := by
  rcases x with e | body
  · exact d.performs_refuse s tasks [] e
  · exact ⟨rfl, hreply body⟩

theorem performs_registerLimit (ip raw : Bytes) (now : ℤ) (next : Bool → Handler)
    (hno : next false = Host.router.refuse d.np ⟨.rateLimited, "rate limited", 60⟩)
    (hok : next true = d.checkRegister raw now) :
    d.Performs s [env] (.call (.allowRegister (ascii "reg-ip:" ++ ip) now d.router.maxReg) next)
      (Router.registerLimit d.router (s.routerView tasks) ip raw now) := by
  have hexec : (Prog.call (.allowRegister (ascii "reg-ip:" ++ ip) now d.router.maxReg) next :
        Handler).exec (serveCall d.H) [env] s =
      ({ s with regRL := (takeSlot s.regRL (ascii "reg-ip:" ++ ip) now d.router.maxReg).1 },
        next (takeSlot s.regRL (ascii "reg-ip:" ++ ip) now d.router.maxReg).2) :=
    Prog.exec_nil ..
  unfold Performs Router.registerLimit
  rw [hexec]
  dsimp only [Relay.routerView]
  rcases takeSlot s.regRL (ascii "reg-ip:" ++ ip) now d.router.maxReg with ⟨regRL, _ | _⟩
  · exact ⟨rfl, rfl, hno⟩
  · exact ⟨rfl, congrArg some hok.symm⟩

theorem performs_registerCheck (raw : Bytes) (now : ℤ) :
    d.Performs s [env] (d.checkRegister raw now)
      (Router.registerCheck d.np d.H d.verify (s.routerView tasks) raw now) := by
  unfold checkRegister Router.registerCheck decodeBody
  rcases readBody raw 256 with e | raw
  · exact d.performs_refuse s tasks [env] (.protocol e)
  dsimp only
  rcases unmarshalRegister d.np raw with e | req
  · exact d.performs_refuse s tasks [env] e
  dsimp only [Host.orRefuse]
  rcases verifyRegister d.verify req.clientPub req.timestamp (copyArr 16 req.nonce) req.signature
    now with e | -
  · exact d.performs_refuse s tasks [env] (.protocol e)
  have hexec : ∀ next : Bool → Handler,
      (Prog.call (.checkReplay req.clientPub req.nonce now) next : Handler).exec (serveCall d.H)
          [env] s =
        ({ s with replay := (checkReplay d.H s.replay req.clientPub req.nonce now).1 },
          next (checkReplay d.H s.replay req.clientPub req.nonce now).2) :=
    fun next => Prog.exec_nil ..
  change d.Performs s [env] (.call (.checkReplay req.clientPub req.nonce now) _) _
  unfold Performs
  rw [hexec]
  dsimp only [Relay.routerView]
  rcases checkReplay d.H s.replay req.clientPub req.nonce now with ⟨replay, _ | _⟩
  · exact ⟨rfl, rfl⟩
  · exact ⟨rfl, rfl, rfl⟩

theorem performs_registerCreate (req : Register) (now : ℤ) :
    d.Performs s [env, env] (d.createFor req now)
      (Router.registerCreate d.H d.mac d.router (s.routerView tasks) req now env.now env.draw) := by
  unfold createFor Router.registerCreate
  dsimp only
  split_ifs
  · exact d.performs_refuse s tasks _ (.protocol _)
  · exact d.performs_refuse s tasks _ (.protocol _)
  rcases d.router.findShard _ with _ | ref
  · exact d.performs_refuse s tasks _ (.protocol _)
  dsimp only
  have hdraw : ∀ next : Option (ByteArr 32) → Handler,
      (Prog.call .draw next : Handler).exec (serveCall d.H) [env, env] s =
        (next env.draw).exec (serveCall d.H) [env] s := fun next => rfl
  unfold Performs
  rw [hdraw]
  rcases env.draw with _ | secret
  · exact ⟨rfl, rfl, rfl⟩
  have hexec : ∀ (c : StoreCall) (p : Handler),
      (Prog.call (.store ref.store c) fun _ => p : Handler).exec (serveCall d.H) [env] s =
        ((serveCall d.H s env (.store ref.store c)).1, p) := fun c p => Prog.exec_nil ..
  dsimp only
  rw [hexec]
  exact ⟨rfl, rfl⟩

theorem performs_resolveStart (ip raw : Bytes) (now : ℤ) (next : Bool → Handler)
    (hno : next false = Host.router.refuse d.np ⟨.rateLimited, "rate limited", 60⟩)
    (hok : next true = d.walk raw) :
    d.Performs s [env] (.call (.allowResolve (ascii "res-ip:" ++ ip) now d.router.maxRes) next)
      (Router.resolveStart d.np d.H d.mac d.router (s.routerView tasks) ip raw now) := by
  have hexec : (Prog.call (.allowResolve (ascii "res-ip:" ++ ip) now d.router.maxRes) next :
        Handler).exec (serveCall d.H) [env] s =
      ({ s with resRL := (takeSlot s.resRL (ascii "res-ip:" ++ ip) now d.router.maxRes).1 },
        next (takeSlot s.resRL (ascii "res-ip:" ++ ip) now d.router.maxRes).2) :=
    Prog.exec_nil ..
  unfold Performs Router.resolveStart
  rw [hexec]
  dsimp only [Relay.routerView]
  rcases takeSlot s.resRL (ascii "res-ip:" ++ ip) now d.router.maxRes with ⟨resRL, _ | _⟩
  · exact ⟨rfl, rfl, hno⟩
  dsimp only
  rw [hok]
  unfold walk decodeBody
  rcases readBody raw 128 with e | raw
  · exact ⟨rfl, rfl, rfl⟩
  dsimp only
  rcases unmarshalResolve d.np raw with e | req
  · exact ⟨rfl, rfl, rfl⟩
  dsimp only [Host.orRefuse]
  split_ifs
  · exact ⟨rfl, rfl, rfl⟩
  · exact ⟨rfl, rfl⟩

theorem performs_resolveProbe (pub : Bytes) (mid : ID) (primary : Bytes) (left : List Bytes) :
    d.Performs s (List.replicate (d.stepCalls (.probing pub mid primary left)) env)
      (d.probe mid primary left)
      (Router.resolveProbe d.router (s.routerView tasks) env.now pub mid primary left) := by
  cases left with
  | nil =>
    change d.Performs s [] (d.respondLocated mid primary) _
    unfold Performs
    rw [Prog.exec_nil]
    exact ⟨rfl, rfl⟩
  | cons u left =>
    dsimp only [probe, Router.resolveProbe, stepCalls]
    rcases d.router.findShard u with _ | ref
    · change d.Performs s [] (d.probe mid primary left) _
      unfold Performs
      rw [Prog.exec_nil]
      exact ⟨rfl, rfl⟩
    have hexec : ∀ next : Bool → Handler,
        (Prog.call (.store ref.store (.mailboxExists mid)) next : Handler).exec (serveCall d.H)
            [env] s =
          (s, next (mailboxExists (s.stores ref.store) env.now mid)) := fun next => by
      refine (Prog.exec_nil ..).trans ?_
      simp [serveCall, StoreCall.run]
    change d.Performs s [env] _
      (if mailboxExists (s.stores ref.store) env.now mid then _ else _)
    unfold Performs
    rw [hexec]
    dsimp only
    split_ifs
    · exact ⟨rfl, rfl⟩
    · exact ⟨rfl, rfl⟩

/-- A step of the machine of the router is what the program of the task does with its next
calls. -/
theorem exec_advance {task : Router.Task} {p : Handler} (hp : d.routerRest task = some p) :
    d.Performs s (List.replicate (d.stepCalls task) env) p
      (Router.advance d.np d.H d.verify d.mac d.router (s.routerView tasks) env.now env.draw
        task) := by
  cases task with
  | registering ip raw now =>
    obtain rfl := Option.some.inj hp
    exact d.performs_registerLimit s tasks env ip raw now _ rfl rfl
  | admitted raw now =>
    obtain rfl := Option.some.inj hp
    exact d.performs_registerCheck s tasks env raw now
  | checked req now =>
    obtain rfl := Option.some.inj hp
    exact d.performs_registerCreate s tasks env req now
  | created pub mid secret primary now =>
    obtain rfl := Option.some.inj hp
    exact d.performs_respond s tasks fun body => ⟨rfl, rfl⟩
  | resolving ip raw now =>
    obtain rfl := Option.some.inj hp
    exact d.performs_resolveStart s tasks env ip raw now _ rfl rfl
  | probing pub mid primary left =>
    obtain rfl := Option.some.inj hp
    exact d.performs_resolveProbe s tasks env pub mid primary left
  | located pub mid url =>
    obtain rfl := Option.some.inj hp
    exact d.performs_respond s tasks fun body => ⟨rfl, rfl⟩
  | done => cases hp

end Router

end Deployment

end FileRelay
