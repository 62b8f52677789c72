import FileRelay.BridgeOps
import FileRelay.Poll
import FileRelay.Router
import FileRelay.Urls

/-!
# The courier bridge

`dispatch` and `serveLoop` of `bridge/main.go` with all seventeen operations. A handler works on
the state of the bridge and on a `CourierWorld`, which holds what one request gets from outside :
the orders in which Go ranges over the maps, what the HTTP client, the random source, the clock
and the key files answer. A handler returns an `Outcome`, and `serveOne` is one turn of the loop,
from the bytes on the pipe to the bytes written.
-/

namespace FileRelay

open NanoPack (Field Codec layout)
open Gather (gather)

/-! ## Responses -/

def RegisterResponse.set (out : RegisterResponse) (f : Field) : Wire RegisterResponse :=
  if f.id = 1 then .ok { out with mailboxID := f.data }
  else if f.id = 2 then .ok { out with readSecret := f.data }
  else if f.id = 3 then .ok { out with shardURL := f.data }
  else if f.id = 4 then (fieldU32 f.data).map fun v => { out with tableVersion := v }
  else if f.id = 5 then (fieldU64 f.data).map fun v => { out with expiresAt := v }
  else .ok out

/-- `UnmarshalRegisterResponse`. -/
def unmarshalRegisterResponse (np : Codec) (body : Bytes) : Wire RegisterResponse :=
  unmarshal np 1024 RegisterResponse.set ⟨[], [], [], 0, 0⟩ (fun out =>
    rejectIf (out.mailboxID.length ≠ 16 ∨ out.readSecret.length ≠ 32 ∨ out.shardURL = [])
      .invalidRequest "bad register response") body

def ResolveResponse.set (out : ResolveResponse) (f : Field) : Wire ResolveResponse :=
  if f.id = 1 then .ok { out with mailboxID := f.data }
  else if f.id = 2 then .ok { out with shardURL := f.data }
  else if f.id = 3 then (fieldU32 f.data).map fun v => { out with era := v }
  else if f.id = 4 then (fieldU32 f.data).map fun v => { out with tableVersion := v }
  else .ok out

/-- `UnmarshalResolveResponse`. -/
def unmarshalResolveResponse (np : Codec) (body : Bytes) : Wire ResolveResponse :=
  unmarshal np 1024 ResolveResponse.set ⟨[], [], 0, 0⟩ (fun out =>
    rejectIf (out.mailboxID.length ≠ 16 ∨ out.shardURL = []) .invalidRequest
      "bad resolve response") body

/-- The fields of `TransferCreateResponse` before their lengths are checked. -/
structure CreateFields where
  transferID : Bytes
  expiresAt : UInt64
  chunkSize : UInt32
  downloadSecret : Bytes

def CreateFields.set (out : CreateFields) (f : Field) : Wire CreateFields :=
  if f.id = 1 then .ok { out with transferID := f.data }
  else if f.id = 2 then (fieldU64 f.data).map fun v => { out with expiresAt := v }
  else if f.id = 3 then (fieldU32 f.data).map fun v => { out with chunkSize := v }
  else if f.id = 4 then .ok { out with downloadSecret := f.data }
  else .ok out

/-- The checks of `UnmarshalTransferCreateResponse`. -/
def CreateFields.check (out : CreateFields) : Wire Unit := do
  rejectIf (out.transferID.length ≠ 16) .invalidRequest "transfer_id must be 16 bytes"
  rejectIf (out.downloadSecret.length ≠ 32) .invalidRequest
    "download_secret must be 32 bytes (server too old for tickets?)"

/-- `UnmarshalTransferCreateResponse`. -/
def unmarshalTransferCreateResponse (np : Codec) (body : Bytes) : Wire TransferCreateResponse := do
  let out ← unmarshal np 128 CreateFields.set ⟨[], 0, 0, []⟩ CreateFields.check body
  return ⟨copyArr 16 out.transferID, out.expiresAt, out.chunkSize, copyArr 32 out.downloadSecret⟩

/-- `ChunkDownloadResponse`. -/
structure ChunkDownloadResponse where
  transferID : Bytes
  index : UInt32
  payload : Bytes
  chunkHash : Bytes
deriving DecidableEq, Repr

def ChunkDownloadResponse.set (out : ChunkDownloadResponse) (f : Field) :
    Wire ChunkDownloadResponse :=
  if f.id = 1 then .ok { out with transferID := f.data }
  else if f.id = 2 then (fieldU32 f.data).map fun v => { out with index := v }
  else if f.id = 3 then .ok { out with payload := f.data }
  else if f.id = 4 then .ok { out with chunkHash := f.data }
  else .ok out

/-- `UnmarshalChunkDownloadResponse`. -/
def unmarshalChunkDownloadResponse (np : Codec) (body : Bytes) : Wire ChunkDownloadResponse :=
  unmarshal np (maxChunkBytes + 256) ChunkDownloadResponse.set ⟨[], 0, [], []⟩ (fun out =>
    rejectIf (out.transferID.length ≠ 16 ∨ out.payload.length = 0 ∨
      maxChunkBytes < out.payload.length ∨ out.chunkHash.length ≠ 32) .invalidRequest
      "bad chunk response") body

/-- `TransferCompleteResponse`. -/
structure TransferCompleteResponse where
  isSealed : UInt8
  chunkCount : UInt32
  present : UInt32
deriving DecidableEq, Repr

def TransferCompleteResponse.set (out : TransferCompleteResponse) (f : Field) :
    Wire TransferCompleteResponse :=
  if f.id = 1 then (fieldU8 f.data).map fun v => { out with isSealed := v }
  else if f.id = 2 then (fieldU32 f.data).map fun v => { out with chunkCount := v }
  else if f.id = 3 then (fieldU32 f.data).map fun v => { out with present := v }
  else .ok out

/-- `UnmarshalTransferCompleteResponse`. -/
def unmarshalTransferCompleteResponse (np : Codec) (body : Bytes) :
    Wire TransferCompleteResponse :=
  unmarshal np 64 TransferCompleteResponse.set ⟨0, 0, 0⟩ (fun _ => .ok ()) body

/-! ## The state and the world -/

/-- `bridge` : what a poll uses, the `routerURL` of each attached mailbox, the default router
and the transfer bindings. -/
structure Courier (js : BindingsJSON) where
  bridge : Bridge
  routers : GoMap Bytes Bytes
  routerURL : Bytes
  xfer : XferState js

/-- What one request gets from outside. The requests to a server are numbered : `0` asks the
router, `1` the server the operation is for, and a poll counts its mailboxes. -/
structure CourierWorld {js : BindingsJSON} (s : Courier js) where
  order : s.bridge.mailboxes.RangeOrder
  routerOrder : s.routers.RangeOrder
  /-- `json.Unmarshal` of the configuration. -/
  config : Bytes → Option Bytes
  /-- The status and the body of the response, or the text of the error. -/
  post : ℕ → Bytes → Bytes → Except String (UInt64 × Bytes)
  nonce : Except String (ByteArr 16)
  timestamp : UInt64
  courierPub : ByteArr 32
  sign : Bytes → ByteArr 64
  /-- The key pair of a user tag, from memory or from its file. -/
  scopedKey : Bytes → Except String (ByteArr 32 × (Bytes → ByteArr 64))

def routeRegister : Bytes := ascii "/fr/v1/register"
def routeResolve : Bytes := ascii "/fr/v1/resolve"
def routeSend : Bytes := ascii "/fr/v1/send"
def routeReceive : Bytes := ascii "/fr/v1/receive"
def routeTransferCreate : Bytes := ascii "/fr/v1/xfer/create"
def routeChunkPut : Bytes := ascii "/fr/v1/xfer/put"
def routeChunkGet : Bytes := ascii "/fr/v1/xfer/get"
def routeResume : Bytes := ascii "/fr/v1/xfer/resume"
def routeComplete : Bytes := ascii "/fr/v1/xfer/complete"
def routeCancel : Bytes := ascii "/fr/v1/xfer/cancel"

section Handlers

variable (H : Bytes → Digest) (np : Codec) {js : BindingsJSON} {s : Courier js}

/-- `postBinary` : at most 2 MiB of the body are read. -/
def CourierWorld.postBinary (w : CourierWorld s) (i : ℕ) (base route body : Bytes) :
    Except String (ℕ × Bytes) :=
  (w.post i (Bridge.joinURL base route) body).map fun r => (r.1.toNat, r.2.take (2 <<< 20))

/-- `effectiveRouter`. -/
def CourierWorld.effectiveRouter (w : CourierWorld s) : Bytes :=
  if s.routerURL ≠ [] then s.routerURL
  else ((w.routerOrder.1.find? fun e => e.2 ≠ []).map fun e => e.2).getD []

/-- The router of a request that may name one. -/
def CourierWorld.routerFor (w : CourierWorld s) (routerURL : Bytes) : Bytes :=
  if routerURL = [] then w.effectiveRouter else routerURL

/-- `resolve`. -/
def CourierWorld.resolve (w : CourierWorld s) (recipientPub routerURL : Bytes) :
    Except BridgeError (ID × Bytes) := do
  let body ← ofWire (marshalResolve np ⟨recipientPub⟩)
  let r ← (w.postBinary 0 routerURL routeResolve body).mapError .system
  if r.1 ≠ 200 then .error (.http "resolve" r.1)
  else
    let res ← ofWire (unmarshalResolveResponse np r.2)
    return (copyArr 16 res.mailboxID, res.shardURL)

/-- The body of a response of status 200, and `xferHTTPError` for the others. -/
def xferAnswer (what : String) : Except String (ℕ × Bytes) → Except BridgeError Bytes
  | .error e => .error (.system (what ++ ": " ++ e))
  | .ok (st, raw) =>
    if st ≠ 200 then
      match unmarshalError np raw with
      | .ok pe => .error (.remote what pe.detail)
      | .error _ => .error (.http (what ++ ":") st)
    else .ok raw

/-- `postMessage`. -/
def CourierWorld.postMessage (w : CourierWorld s) (shardURL : Bytes) (mailboxID : ID)
    (frame : Bytes) : Except BridgeError Unit := do
  let nonce ← w.nonce.mapError .system
  let sig := w.sign (canonicalMsgSend H w.courierPub mailboxID w.timestamp nonce frame)
  let body ← ofWire (marshalSendMessage np
    { mailboxID := mailboxID.toList, envelope := frame, senderPub := w.courierPub.toList
      timestamp := w.timestamp, nonce := nonce.toList, signature := sig.toList
      ttlHintSec := UInt32.ofNat msgTTLSeconds.toNat, burn := 1 })
  let r ← (w.postBinary 1 shardURL routeSend body).mapError .system
  if r.1 ≠ 200 then
    match unmarshalError np r.2 with
    | .ok pe => .error (.remote "send" pe.detail)
    | .error _ => .error (.http "send" r.1)
  else .ok ()

/-- An error of a handler. -/
def answered : Except BridgeError Outcome → Outcome
  | .ok o => o
  | .error e => .failed errTransport e

def notStarted : Outcome := .failed errNotReady (.text "not started")

/-- `onInitialize`. -/
def onInitialize (w : CourierWorld s) (payload : Bytes) : Courier js × Outcome :=
  match unmarshalInitialize np payload with
  | .error e => (s, .initialized (some e))
  | .ok init =>
    if init.transportID ≠ bridgeID then
      (s, .initialized (some (.text "transport id mismatch")))
    else if init.apiVersion ≠ transportAPIVer then
      (s, .initialized (some (.text "api version mismatch")))
    else if 0 < init.config.length then
      match w.config init.config with
      | none => (s, .initialized none)
      | some routerURL => ({ s with routerURL := routerURL }, .initialized none)
    else (s, .initialized none)

/-- `onStartStop`. -/
def onStartStop (s : Courier js) (payload : Bytes) : Courier js × Outcome :=
  match unmarshalStartStop np payload with
  | .error e => (s, .failed errTransport e)
  | .ok action =>
    ({ s with bridge := { s.bridge with running := action = 1 } }, .acked 2)

/-- The address of a message : the one the request names, or the one the router has. -/
def CourierWorld.sendTarget (w : CourierWorld s) (req : SendReq) :
    Except BridgeError (ID × Bytes) := do
  if req.mailboxID.length = 16 ∧ req.shardURL ≠ [] then
    return (copyArr 16 req.mailboxID, req.shardURL)
  else
    refuseIf (req.recipientPub.length ≠ 32) "recipient_pub must be 32 bytes"
    refuseIf (w.effectiveRouter = [])
      "no router_url: pass via initialize config or attach first"
    w.resolve np req.recipientPub w.effectiveRouter

/-- `onSend`. -/
def onSend (w : CourierWorld s) (payload : Bytes) : Outcome :=
  if s.bridge.running then answered do
    let req ← unmarshalSend np payload
    let target ← w.sendTarget np req
    w.postMessage H np target.2 target.1 req.frame
    return .acked 3
  else notStarted

/-- `onAttach`. -/
def onAttach (s : Courier js) (payload : Bytes) : Courier js × Outcome :=
  if s.bridge.running then
    match unmarshalAttach np payload with
    | .error e => (s, .failed errTransport e)
    | .ok req =>
      ({ s with
          bridge := { s.bridge with
            mailboxes := s.bridge.mailboxes.insert req.mailboxID ⟨req.readSecret, req.shardURL⟩ }
          routers := s.routers.insert req.mailboxID req.routerURL
          routerURL := if s.routerURL = [] ∧ req.routerURL ≠ [] then req.routerURL
            else s.routerURL }, .acked 4)
  else (s, notStarted)

/-- `onDetach`. -/
def onDetach (s : Courier js) (payload : Bytes) : Courier js × Outcome :=
  match unmarshalDetach np payload with
  | .error e => (s, .failed errTransport e)
  | .ok id =>
    ({ s with
        bridge := { s.bridge with mailboxes := s.bridge.mailboxes.erase id }
        routers := s.routers.erase id }, .acked 5)

/-- What the shards answer to a poll. -/
def CourierWorld.shardPost (w : CourierWorld s) : ShardPost := fun i shardURL body =>
  (w.postBinary i shardURL routeReceive body).mapError .system

/-- `onPoll`, with the frames of the reply not yet encoded. -/
def pollOutcome (w : CourierWorld s) (payload : Bytes) : Outcome :=
  if s.bridge.running then answered do
    let req ← ofWire (unmarshalPoll np payload)
    let frames ← gather (pollAsk np w.shardPost req.limit.toNat) req.limit.toNat
      (pollTargets s.bridge w.order req) 0 []
    return .polled frames
  else notStarted

/-- The reply of `onPoll` of `Poll` is this one, encoded. -/
theorem onPoll_eq (npText : NanoPack.Error → String) (w : CourierWorld s) (payload : Bytes) :
    onPoll np s.bridge w.order w.shardPost payload =
      match pollOutcome np w payload with
      | .failed code e => .error code e
      | o => .poll (o.payload np npText) := by
  unfold onPoll pollOutcome
  split_ifs
  · rcases unmarshalPoll np payload with e | req
    · rfl
    dsimp only [ofWire, Except.mapError, bind, Except.bind]
    rcases gather (pollAsk np w.shardPost req.limit.toNat) req.limit.toNat
      (pollTargets s.bridge w.order req) 0 [] with e | frames <;> rfl
  · rfl

/-- The router's answer to a registration, with the URL of the router. -/
def CourierWorld.askRegister (w : CourierWorld s) (what : String) (routerURL : Bytes)
    (r : Register) : Except BridgeError (RegisterResponse × Bytes) := do
  let body ← ofWire (marshalRegister np r)
  let raw ← xferAnswer np what (w.postBinary 1 routerURL routeRegister body)
  let res ← ofWire (unmarshalRegisterResponse np raw)
  return (res, routerURL)

/-- `onIdentityRegister` up to the router's answer. -/
def CourierWorld.identityRegister (w : CourierWorld s) (payload : Bytes) :
    Except BridgeError (RegisterResponse × Bytes) := do
  let req ← unmarshalIdentityRegisterReq np payload
  refuseIf (w.routerFor req.routerURL = []) "no router_url"
  w.askRegister np "identity register" (w.routerFor req.routerURL)
    ⟨req.pubkey, req.timestamp, req.nonce, req.signature⟩

/-- `tagRe`. -/
def validTag (tag : Bytes) : Prop :=
  let alnum : UInt8 → Prop := fun c => (97 ≤ c ∧ c ≤ 122) ∨ (48 ≤ c ∧ c ≤ 57)
  1 ≤ tag.length ∧ tag.length ≤ 64 ∧ alnum (tag.headD 0) ∧ ∀ c ∈ tag, alnum c ∨ c = 45

instance (tag : Bytes) : Decidable (validTag tag) :=
  inferInstanceAs (Decidable (_ ∧ _))

/-- `onRegister` up to the router's answer. -/
def CourierWorld.register (w : CourierWorld s) (payload : Bytes) :
    Except BridgeError (RegisterResponse × Bytes) := do
  let req ← unmarshalRegisterReq np payload
  refuseIf (w.routerFor req.routerURL = []) "no router_url"
  refuseIf (¬validTag req.userTag) "bad user tag"
  let key ← (w.scopedKey req.userTag).mapError .system
  let nonce ← w.nonce.mapError .system
  w.askRegister np "register" (w.routerFor req.routerURL)
    ⟨key.1.toList, w.timestamp, nonce.toList,
      (key.2 (canonicalRegister key.1 w.timestamp nonce)).toList⟩

/-- The reply to a registration. -/
def registeredOutcome (op : UInt8) (r : RegisterResponse × Bytes) : Outcome :=
  .registered op r.1.mailboxID r.1.readSecret r.1.shardURL r.2

/-- `onIdentityRegister`. -/
def onIdentityRegister (w : CourierWorld s) (payload : Bytes) : Outcome :=
  answered ((w.identityRegister np payload).map (registeredOutcome 17))

/-- `onRegister`. -/
def onRegister (w : CourierWorld s) (payload : Bytes) : Outcome :=
  answered ((w.register np payload).map (registeredOutcome 9))

/-- `onResolve`. -/
def onResolve (w : CourierWorld s) (payload : Bytes) : Outcome :=
  answered do
    let req ← unmarshalResolveReq np payload
    refuseIf (w.routerFor req.routerURL = []) "no router_url"
    let r ← w.resolve np req.recipientPub (w.routerFor req.routerURL)
    return .resolved r.1.toList r.2

/-- What `onXferCreate` gets from outside. -/
def CourierWorld.createWorld (w : CourierWorld s) (payload : Bytes) : CreateWorld where
  routerURL := w.effectiveRouter
  resolve := do
    let req ← unmarshalXferCreate np payload
    w.resolve np req.recipientPub w.effectiveRouter
  nonce := w.nonce.mapError .system
  timestamp := w.timestamp
  courierPub := w.courierPub
  sign := w.sign
  answer shardURL t := do
    let body ← ofWire (marshalTransferCreate np t)
    let raw ← xferAnswer np "xfer-create" (w.postBinary 1 shardURL routeTransferCreate body)
    ofWire (unmarshalTransferCreateResponse np raw)

/-- `onXferCreate`. -/
def onCreate (w : CourierWorld s) (payload : Bytes) : Courier js × Outcome :=
  let r := onXferCreate H np (w.createWorld np payload) s.xfer payload
  ({ s with xfer := r.1 }, answered (r.2.map .created))

/-- The binding of a transfer, or the error of a handler that needs one. -/
def boundTo (unknown : String) : Option TransferBind → Except BridgeError TransferBind
  | some bind => .ok bind
  | none => .error (.text unknown)

/-- A handler for a bound transfer : decode the request, look the binding up, go on. -/
def withBinding {α : Type} (s : Courier js) (req : Except BridgeError α) (transferID : α → Bytes)
    (body : α → Option TransferBind → Except BridgeError Outcome) : Courier js × Outcome :=
  match req with
  | .error e => (s, .failed errTransport e)
  | .ok req =>
    let r := bindFor s.xfer (transferID req)
    ({ s with xfer := r.1 }, answered (body req r.2))

/-- `onXferPut`. -/
def onXferPut (w : CourierWorld s) (payload : Bytes) : Courier js × Outcome :=
  withBinding s (unmarshalXferPut np payload) XferPut.transferID fun req bind => do
    let bind ← boundTo "unknown transfer (create first via this bridge)" bind
    let body ← ofWire (marshalChunkUpload np
      { transferID := req.transferID, index := req.index, payload := req.payload
        chunkHash := req.hash, offset := req.offset })
    let raw ← xferAnswer np "xfer-put" (w.postBinary 1 bind.shardURL routeChunkPut body)
    let ack ← ofWire (unmarshalChunkAck np raw)
    return .progress 12 ack.highestContiguous bind.chunkCount ack.missingRanges ack.bitmap
      ack.encoding

/-- The binding a mailbox bearer goes through. -/
def boundMailbox (mailboxID : Bytes) (bind : Option TransferBind) :
    Except BridgeError TransferBind := do
  let bind ← boundTo "unknown transfer" bind
  refuseIf (mailboxID ≠ bind.mailboxID) "mailbox mismatch"
  return bind

/-- The last part of `onXferResume`. -/
def CourierWorld.resumeVia (w : CourierWorld s) (shardURL : Bytes) (r : ResumeRequest) :
    Except BridgeError Outcome := do
  let body ← ofWire (marshalResumeRequest np r)
  let raw ← xferAnswer np "xfer-resume" (w.postBinary 1 shardURL routeResume body)
  let res ← ofWire (unmarshalResumeResponse np raw)
  return .progress 13 res.highestContiguous res.chunkCount res.missingRanges res.bitmap
    res.encoding

/-- `onXferResume`. In ticket mode no binding is looked up. -/
def onXferResume (w : CourierWorld s) (payload : Bytes) : Courier js × Outcome :=
  match unmarshalXferResume np payload with
  | .error e => (s, .failed errTransport e)
  | .ok req =>
    if req.ticket.length = 32 then
      (s, answered do
        refuseIf (req.shardURL = []) "ticket mode: shard_url required"
        w.resumeVia np req.shardURL ⟨req.transferID, [], [], req.ticket⟩)
    else
      withBinding s (.ok req) XferResume.transferID fun req bind => do
        let bind ← boundMailbox req.mailboxID bind
        w.resumeVia np bind.shardURL ⟨req.transferID, req.mailboxID, req.readSecret, []⟩

/-- The last part of `onXferGet`. -/
def CourierWorld.getVia (w : CourierWorld s) (shardURL : Bytes) (r : ChunkDownload) :
    Except BridgeError Outcome := do
  let body ← ofWire (marshalChunkDownload np r)
  let raw ← xferAnswer np "xfer-get" (w.postBinary 1 shardURL routeChunkGet body)
  let res ← ofWire (unmarshalChunkDownloadResponse np raw)
  refuseIf (hexEncode (H res.payload).toList ≠ hexEncode res.chunkHash)
    "chunk hash mismatch (relay data corrupt)"
  return .chunk res.payload res.chunkHash

/-- `onXferGet`. -/
def onXferGet (w : CourierWorld s) (payload : Bytes) : Courier js × Outcome :=
  match unmarshalXferGet np payload with
  | .error e => (s, .failed errTransport e)
  | .ok req =>
    if req.ticket.length = 32 then
      (s, answered do
        refuseIf (req.shardURL = []) "ticket mode: shard_url required"
        w.getVia H np req.shardURL ⟨req.transferID, req.index, 1, [], [], req.ticket⟩)
    else
      withBinding s (.ok req) XferGet.transferID fun req bind => do
        let bind ← boundMailbox req.mailboxID bind
        w.getVia H np bind.shardURL
          ⟨req.transferID, req.index, 1, req.mailboxID, req.readSecret, []⟩

/-- `onXferComplete`. -/
def onXferComplete (w : CourierWorld s) (payload : Bytes) : Courier js × Outcome :=
  withBinding s (unmarshalXferComplete np payload) XferComplete.transferID fun req bind => do
    let bind ← boundTo "unknown transfer" bind
    let nonce ← w.nonce.mapError .system
    let sig := w.sign (canonicalXferComplete w.courierPub (copyArr 16 req.transferID)
      (copyArr 32 req.manifestHash) w.timestamp nonce)
    let body ← ofWire (marshalTransferComplete np
      { transferID := req.transferID, manifestHash := req.manifestHash, mailboxID := []
        senderPub := w.courierPub.toList, timestamp := w.timestamp, nonce := nonce.toList
        signature := sig.toList })
    let raw ← xferAnswer np "xfer-complete" (w.postBinary 1 bind.shardURL routeComplete body)
    let _ ← ofWire (unmarshalTransferCompleteResponse np raw)
    return .acked 15

/-- `onXferCancel`. -/
def onXferCancel (w : CourierWorld s) (payload : Bytes) : Courier js × Outcome :=
  withBinding s (unmarshalXferCancel np payload) XferCancel.transferID fun req bind => do
    let bind ← boundMailbox req.mailboxID bind
    let body ← ofWire (marshalTransferCancel np ⟨req.transferID, req.mailboxID, 0, req.readSecret⟩)
    let _ ← xferAnswer np "xfer-cancel" (w.postBinary 1 bind.shardURL routeCancel body)
    return .acked 16

/-! ## The loop -/

/-- `dispatch`. -/
def dispatch (w : CourierWorld s) (op : UInt8) (payload : Bytes) : Courier js × Outcome :=
  if op = 1 then onInitialize np w payload
  else if op = 8 then (s, .capabilities)
  else if op = 2 then onStartStop np s payload
  else if op = 3 then (s, onSend H np w payload)
  else if op = 4 then onAttach np s payload
  else if op = 5 then onDetach np s payload
  else if op = 6 then (s, pollOutcome np w payload)
  else if op = 7 then (s, .status s.bridge.running)
  else if op = 9 then (s, onRegister np w payload)
  else if op = 17 then (s, onIdentityRegister np w payload)
  else if op = 10 then (s, onResolve np w payload)
  else if op = 11 then onCreate H np w payload
  else if op = 12 then onXferPut np w payload
  else if op = 13 then onXferResume np w payload
  else if op = 14 then onXferGet H np w payload
  else if op = 15 then onXferComplete np w payload
  else if op = 16 then onXferCancel np w payload
  else (s, .failed 2 (.text "unknown op"))

end Handlers

end FileRelay
