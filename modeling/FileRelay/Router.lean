import FileRelay.Replay
import FileRelay.ShardHandlers
import Mathlib.Logic.Function.Basic

/-!
# The register and resolve handlers of the router

`handleRegister` and `handleResolve` of `server/router/handler.go`. A handler under way is a
`Task`. It is cut where it takes a lock or calls a store : between two of these steps any other
handler may go on, and anything may call the stores. So a register goes through the limiter, the
replay test, `CreateMailbox` and its answer, and a resolve through the limiter, one
`MailboxExists` after the other and its answer.

A `ShardRef` holds a store by reference. Two references may name one URL, and two URLs may lead
to one store.
-/

namespace FileRelay

open NanoPack (Codec)

def capabilityTTLSeconds : ℤ := 365 * 24 * 3600

/-- `RegisterResponse`, schema 53. -/
structure RegisterResponse where
  mailboxID : Bytes
  readSecret : Bytes
  shardURL : Bytes
  tableVersion : UInt32
  expiresAt : UInt64
deriving DecidableEq, Repr

/-- `MarshalRegisterResponse`. -/
def marshalRegisterResponse (np : Codec) (r : RegisterResponse) : Wire Bytes := do
  rejectIf (r.mailboxID.length ≠ 16 ∨ r.readSecret.length ≠ 32 ∨ r.shardURL = [])
    .invalidRequest "bad register response"
  encodeFields np [⟨1, r.mailboxID⟩, ⟨2, r.readSecret⟩, ⟨3, r.shardURL⟩,
    ⟨4, putU32 r.tableVersion⟩, ⟨5, putU64 r.expiresAt⟩]

/-- `ResolveResponse`, schema 55. -/
structure ResolveResponse where
  mailboxID : Bytes
  shardURL : Bytes
  era : UInt32
  tableVersion : UInt32
deriving DecidableEq, Repr

/-- `MarshalResolveResponse`. -/
def marshalResolveResponse (np : Codec) (r : ResolveResponse) : Wire Bytes := do
  rejectIf (r.mailboxID.length ≠ 16 ∨ r.shardURL = []) .invalidRequest "bad resolve response"
  encodeFields np [⟨1, r.mailboxID⟩, ⟨2, r.shardURL⟩, ⟨3, putU32 r.era⟩,
    ⟨4, putU32 r.tableVersion⟩]

/-- `MailboxIDFromPub`, where `mac` is HMAC-SHA256 of a key and a message. -/
def mailboxIDFromPub (mac : Bytes → Bytes → Digest) (serverSecret pub : Bytes) : ID :=
  copyArr 16 ((mac serverSecret (hexEncode pub)).toList.take 16)

/-- `Owner`. -/
def owner (H : Bytes → Digest) (mailboxID : ID) (shardURLs : List Bytes) : Bytes :=
  if shardURLs.length = 0 then []
  else
    let h := (H mailboxID.toList).toList.map UInt8.toNat
    let v := h.getD 0 0 <<< 24 ||| h.getD 1 0 <<< 16 ||| h.getD 2 0 <<< 8 ||| h.getD 3 0
    shardURLs.getD (v % shardURLs.length) []

namespace Router

/-- `ShardRef`. `store` tells which store it is. -/
structure ShardRef where
  url : Bytes
  store : ℕ

/-- `Config`, the entries the two handlers use. -/
structure Config where
  secret : Bytes
  shards : List ShardRef
  version : UInt32
  maxRegistersPerIP : ℤ
  maxResolvesPerIP : ℤ

namespace Config

variable (cfg : Config)

/-- `maxReg` of `NewHandler`. -/
def maxReg : ℤ :=
  if cfg.maxRegistersPerIP ≤ 0 then 600 else cfg.maxRegistersPerIP

/-- `maxRes` of `NewHandler`. -/
def maxRes : ℤ :=
  if cfg.maxResolvesPerIP ≤ 0 then 1200 else cfg.maxResolvesPerIP

/-- `shardURLs`. -/
def shardURLs : List Bytes :=
  cfg.shards.map ShardRef.url

/-- `findShard`. -/
def findShard (url : Bytes) : Option ShardRef :=
  cfg.shards.find? fun ref => ref.url = url

variable {cfg} in
theorem findShard_eq_some {url : Bytes} {ref : ShardRef} (h : cfg.findShard url = some ref) :
    ref ∈ cfg.shards ∧ ref.url = url := by
  refine ⟨List.mem_of_find?_eq_some h, ?_⟩
  have hurl := List.find?_some h
  exact of_decide_eq_true hurl

end Config

/-- A handler between two of its steps. `now` is the reading it entered with. -/
inductive Task
  /-- A register before the limiter. -/
  | registering (ip raw : Bytes) (now : ℤ)
  /-- Past the limiter. -/
  | admitted (raw : Bytes) (now : ℤ)
  /-- Past the replay test. -/
  | checked (req : Register) (now : ℤ)
  /-- After `CreateMailbox`. -/
  | created (pub : Bytes) (mailboxID : ID) (secret : ByteArr 32) (primary : Bytes) (now : ℤ)
  /-- A resolve before the limiter. -/
  | resolving (ip raw : Bytes) (now : ℤ)
  /-- On its walk, with the URLs that are `left`. -/
  | probing (pub : Bytes) (mailboxID : ID) (primary : Bytes) (left : List Bytes)
  /-- At the end of its walk. -/
  | located (pub : Bytes) (mailboxID : ID) (url : Bytes)
  | done

/-- The stores, the tables of the handler under `mu`, and the tasks by number. -/
structure State where
  stores : ℕ → MemStore
  regRL : Buckets
  resRL : Buckets
  replay : GoMap Digest ℤ
  tasks : List Task

/-- What a step shows : a response with the key of its request, or the `CreateMailbox` of a
register with the secret it drew. -/
inductive Reply
  | quiet
  | refused (e : WireError)
  | created (pub : Bytes) (mailboxID : ID) (secret : ByteArr 32)
  | registered (pub : Bytes) (r : RegisterResponse) (body : Bytes)
  | resolved (pub : Bytes) (r : ResolveResponse) (body : Bytes)
  | called (out : Output)

/-- A request arrives, a task takes its next step with what `rand.Read` returns, or a store is
called. -/
inductive Act
  | register (ip raw : Bytes)
  | resolve (ip raw : Bytes)
  | advance (task : ℕ) (draw : Option (ByteArr 32))
  | call (store : ℕ) (op : Op)

/-- An act at a clock reading. -/
structure Event where
  now : ℤ
  act : Act

/-- A handler that writes an error is done. -/
def refuse (s : State) (e : WireError) : State × Task × Reply :=
  (s, .done, .refused e)

/-- `writeError(w, &protocol.ProtocolError{Code: code, Detail: detail})`. -/
def refuseWith (s : State) (code : ErrCode) (detail : String) : State × Task × Reply :=
  refuse s (.protocol ⟨code, detail, 0⟩)

variable (np : Codec) (H : Bytes → Digest) (verify : Verifier) (mac : Bytes → Bytes → Digest)
  (cfg : Config)

/-! ## Register -/

/-- `handleRegister`, the limiter. -/
def registerLimit (s : State) (ip raw : Bytes) (now : ℤ) : State × Task × Reply :=
  match takeSlot s.regRL (ascii "reg-ip:" ++ ip) now cfg.maxReg with
  | (regRL, false) => refuse { s with regRL := regRL } rateLimitedError
  | (regRL, true) => ({ s with regRL := regRL }, .admitted raw now, .quiet)

/-- `handleRegister` from the body to the replay test. -/
def registerCheck (s : State) (raw : Bytes) (now : ℤ) : State × Task × Reply :=
  match readBody raw 256 with
  | .error e => refuse s (.protocol e)
  | .ok raw =>
    match unmarshalRegister np raw with
    | .error e => refuse s e
    | .ok req =>
      match verifyRegister verify req.clientPub req.timestamp (copyArr 16 req.nonce)
          req.signature now with
      | .error e => refuse s (.protocol e)
      | .ok () =>
        match checkReplay H s.replay req.clientPub req.nonce now with
        | (replay, true) => refuseWith { s with replay := replay } .replayDetected
            "replay detected"
        | (replay, false) => ({ s with replay := replay }, .checked req now, .quiet)

/-- On a body that decodes, this is the step `routerAnswer` of the replay gate. -/
theorem registerCheck_eq (s : State) {raw : Bytes} {req : Register} (now : ℤ)
    (hraw : readBody raw 256 = .ok raw) (hreq : unmarshalRegister np raw = .ok req) :
    registerCheck np H verify s raw now =
      match routerAnswer H verify ⟨s.replay, now, []⟩ now req with
      | (t, .passed r entry) => ({ s with replay := t.replay }, .checked r entry, .quiet)
      | (t, .replayed _) => refuseWith { s with replay := t.replay } .replayDetected
          "replay detected"
      | (_, .refused e) => refuse s (.protocol e)
      | (_, .quiet) => (s, .done, .quiet) := by
  have hvalid : validateRegister req = .ok () :=
    wireCheck_eq_ok.mp (registerCodec_lawful.check_of_unmarshal hreq)
  have hauth : authRegister verify req now = verifyRegister verify req.clientPub req.timestamp
      (copyArr 16 req.nonce) req.signature now := by
    unfold authRegister
    rw [hvalid]
    rfl
  unfold registerCheck routerAnswer
  rw [hraw]
  simp only [hreq, hauth]
  cases verifyRegister verify req.clientPub req.timestamp (copyArr 16 req.nonce) req.signature
    now with
  | error e => rfl
  | ok u =>
    dsimp only
    rcases checkReplay H s.replay req.clientPub req.nonce now with ⟨replay, seen⟩
    cases seen <;> rfl

/-- `handleRegister` from the mailbox id to `CreateMailbox`, which the store runs at
`storeNow`. -/
def registerCreate (s : State) (req : Register) (now storeNow : ℤ) (draw : Option (ByteArr 32)) :
    State × Task × Reply :=
  if cfg.secret.length = 0 then refuseWith s .serverUnavailable "router not configured"
  else
    let mailboxID := mailboxIDFromPub mac cfg.secret req.clientPub
    let urls := cfg.shardURLs
    if urls.length = 0 then refuseWith s .serverUnavailable "no shards"
    else
      let primary := owner H mailboxID urls
      match cfg.findShard primary with
      | none => refuseWith s .serverUnavailable "shard not found"
      | some ref =>
        match draw with
        | none => refuseWith s .storageUnavailable "rand failed"
        | some secret =>
          let store := (callStore H (s.stores ref.store) storeNow
            (.createMailbox mailboxID (H secret.toList))).1
          ({ s with stores := Function.update s.stores ref.store store },
            .created req.clientPub mailboxID secret primary now,
            .created req.clientPub mailboxID secret)

/-- `handleRegister`, the response. -/
def registerAnswer (s : State) (pub : Bytes) (mailboxID : ID) (secret : ByteArr 32)
    (primary : Bytes) (now : ℤ) : State × Task × Reply :=
  let r : RegisterResponse :=
    { mailboxID := mailboxID.toList
      readSecret := secret.toList
      shardURL := primary
      tableVersion := cfg.version
      expiresAt := UInt64.ofInt (now + capabilityTTLSeconds * 1000) }
  match marshalRegisterResponse np r with
  | .error e => refuse s e
  | .ok body => (s, .done, .registered pub r body)

/-! ## Resolve -/

/-- `handleResolve` up to the walk : the primary first, then the other URLs. -/
def resolveStart (s : State) (ip raw : Bytes) (now : ℤ) : State × Task × Reply :=
  match takeSlot s.resRL (ascii "res-ip:" ++ ip) now cfg.maxRes with
  | (resRL, false) => refuse { s with resRL := resRL } rateLimitedError
  | (resRL, true) =>
    let s := { s with resRL := resRL }
    match readBody raw 128 with
    | .error e => refuse s (.protocol e)
    | .ok raw =>
      match unmarshalResolve np raw with
      | .error e => refuse s e
      | .ok req =>
        if cfg.secret.length = 0 ∨ cfg.shards.length = 0 then
          refuseWith s .serverUnavailable "router not configured"
        else
          let mailboxID := mailboxIDFromPub mac cfg.secret req.clientPub
          let urls := cfg.shardURLs
          let primary := owner H mailboxID urls
          (s, .probing req.clientPub mailboxID primary
            (primary :: urls.filter fun u => u ≠ primary), .quiet)

/-- `handleResolve`, one turn of the walk. Without a hit the primary is the guess. -/
def resolveProbe (s : State) (storeNow : ℤ) (pub : Bytes) (mailboxID : ID) (primary : Bytes) :
    List Bytes → State × Task × Reply
  | [] => (s, .located pub mailboxID primary, .quiet)
  | u :: left =>
    match cfg.findShard u with
    | none => (s, .probing pub mailboxID primary left, .quiet)
    | some ref =>
      if mailboxExists (s.stores ref.store) storeNow mailboxID then
        (s, .located pub mailboxID u, .quiet)
      else (s, .probing pub mailboxID primary left, .quiet)

/-- `handleResolve`, the response. -/
def resolveAnswer (s : State) (pub : Bytes) (mailboxID : ID) (url : Bytes) :
    State × Task × Reply :=
  let r : ResolveResponse :=
    { mailboxID := mailboxID.toList
      shardURL := url
      era := 0
      tableVersion := cfg.version }
  match marshalResolveResponse np r with
  | .error e => refuse s e
  | .ok body => (s, .done, .resolved pub r body)

/-! ## The machine -/

/-- The next step of a task. -/
def advance (s : State) (now : ℤ) (draw : Option (ByteArr 32)) : Task → State × Task × Reply
  | .registering ip raw entry => registerLimit cfg s ip raw entry
  | .admitted raw entry => registerCheck np H verify s raw entry
  | .checked req entry => registerCreate H mac cfg s req entry now draw
  | .created pub mailboxID secret primary entry =>
    registerAnswer np cfg s pub mailboxID secret primary entry
  | .resolving ip raw entry => resolveStart np H mac cfg s ip raw entry
  | .probing pub mailboxID primary left => resolveProbe cfg s now pub mailboxID primary left
  | .located pub mailboxID url => resolveAnswer np cfg s pub mailboxID url
  | .done => (s, .done, .quiet)

def routerStep (s : State) (e : Event) : State × Reply :=
  match e.act with
  | .register ip raw => ({ s with tasks := s.tasks ++ [.registering ip raw e.now] }, .quiet)
  | .resolve ip raw => ({ s with tasks := s.tasks ++ [.resolving ip raw e.now] }, .quiet)
  | .advance k draw =>
    match s.tasks[k]? with
    | none => (s, .quiet)
    | some task =>
      let t := advance np H verify mac cfg s e.now draw task
      ({ t.1 with tasks := t.1.tasks.set k t.2.1 }, t.2.2)
  | .call i op =>
    let t := callStore H (s.stores i) e.now op
    ({ s with stores := Function.update s.stores i t.1 }, .called t.2)

/-- The router with its shards. -/
def service : Machine State Event Reply where
  step := routerStep np H verify mac cfg

/-- `NewHandler` over new stores. -/
def start : State :=
  ⟨fun _ => newMemStore, ∅, ∅, ∅, []⟩

end Router

end FileRelay
