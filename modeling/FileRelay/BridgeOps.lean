import FileRelay.BridgeRPC
import FileRelay.Bindings

/-!
# The operations of the courier bridge

The envelope of `bridge/rpc.go`, the bodies of the requests of the other operations and the
bodies of the replies, from `bridge/rpc.go` and `bridge/rpc_file.go`. A message on the pipe is
its length and the envelope, and both ends refuse a length of zero or beyond `maxRPCBytes`.

`readMessage_frameMessage` and `unmarshalEnvelope_eq` say when a written envelope is read : a
payload of up to `maxPayload` bytes leaves the envelope within the limit, and a longer one
does not (`length_envelope_le_iff`).
-/

namespace FileRelay

open NanoPack (Field Codec layout)

/-! ## The envelope -/

def maxFrameBytes : ℕ := 40 * 1024

/-- `envelope`. -/
structure Envelope where
  op : UInt8
  reqID : UInt32
  payload : Bytes
deriving DecidableEq, Repr

def Envelope.fields (env : Envelope) : List Field :=
  [⟨1, [env.op]⟩, ⟨2, putU32 env.reqID⟩, ⟨3, env.payload⟩]

/-- The `switch` of `unmarshalEnvelope`. -/
def Envelope.set (out : Envelope) (f : Field) : Except BridgeError Envelope :=
  if f.id = 1 then
    match f.data with
    | [op] => .ok { out with op := op }
    | _ => .error (.text "rpc: bad op")
  else if f.id = 2 then
    match fieldU32 f.data with
    | .ok v => .ok { out with reqID := v }
    | .error e => .error (.wire e)
  else if f.id = 3 then .ok { out with payload := f.data }
  else .ok out

/-- An error of the protocol package or of nanopack as an error of the bridge. -/
def ofWire {α : Type} (x : Wire α) : Except BridgeError α :=
  x.mapError .wire

/-- `if bad { return nil, fmt.Errorf(text) }`. -/
def refuseIf (bad : Prop) [Decidable bad] (text : String) : Except BridgeError Unit :=
  if bad then .error (.text text) else .ok ()

/-- A decoder of a request : set the fields one by one, then check the result. -/
def unmarshalReq {α : Type} (np : Codec) (set : α → Field → Wire α) (zero : α)
    (check : α → Except BridgeError Unit) (body : Bytes) : Except BridgeError α := do
  let out ← ofWire (decodeRPC np set zero body)
  check out
  return out

/-- `initialize`. -/
structure Initialize where
  transportID : Bytes
  apiVersion : UInt8
  config : Bytes
deriving DecidableEq, Repr

def Initialize.set (out : Initialize) (f : Field) : Wire Initialize :=
  if f.id = 1 then .ok { out with transportID := f.data }
  else if f.id = 2 then (fieldU8 f.data).map fun v => { out with apiVersion := v }
  else if f.id = 3 then .ok { out with config := f.data }
  else .ok out

/-- `unmarshalInitialize`. -/
def unmarshalInitialize (np : Codec) (body : Bytes) : Except BridgeError Initialize :=
  unmarshalReq np Initialize.set ⟨[], 0, []⟩ (fun _ => .ok ()) body

/-- `unmarshalStartStop` : the first field 1 of one byte. -/
def unmarshalStartStop (np : Codec) (body : Bytes) : Except BridgeError UInt8 := do
  let fields ← ofWire (decodeFields np body)
  match fields.find? fun f => f.id = 1 ∧ f.data.length = 1 with
  | some f => .ok (f.data.headD 0)
  | none => .error (.text "rpc: missing action")

/-- `sendReq`. -/
structure SendReq where
  frame : Bytes
  recipientPub : Bytes
  mailboxID : Bytes
  shardURL : Bytes
deriving DecidableEq, Repr

def SendReq.set (out : SendReq) (f : Field) : Wire SendReq :=
  if f.id = 1 then .ok { out with frame := f.data }
  else if f.id = 2 then .ok { out with recipientPub := f.data }
  else if f.id = 4 then .ok { out with mailboxID := f.data }
  else if f.id = 5 then .ok { out with shardURL := f.data }
  else .ok out

/-- `unmarshalSend`. -/
def unmarshalSend (np : Codec) (body : Bytes) : Except BridgeError SendReq :=
  unmarshalReq np SendReq.set ⟨[], [], [], []⟩ (fun out =>
    refuseIf (out.frame.length = 0 ∨ maxFrameBytes < out.frame.length)
      "rpc: frame out of bounds") body

/-- `attachReq`. -/
structure AttachReq where
  mailboxID : Bytes
  readSecret : Bytes
  shardURL : Bytes
  routerURL : Bytes
deriving DecidableEq, Repr

def AttachReq.set (out : AttachReq) (f : Field) : Wire AttachReq :=
  if f.id = 1 then .ok { out with mailboxID := f.data }
  else if f.id = 2 then .ok { out with readSecret := f.data }
  else if f.id = 3 then .ok { out with shardURL := f.data }
  else if f.id = 4 then .ok { out with routerURL := f.data }
  else .ok out

/-- `unmarshalAttach`. -/
def unmarshalAttach (np : Codec) (body : Bytes) : Except BridgeError AttachReq :=
  unmarshalReq np AttachReq.set ⟨[], [], [], []⟩ (fun out =>
    refuseIf (out.mailboxID.length ≠ 16 ∨ out.readSecret.length ≠ 32 ∨ out.shardURL = [])
      "rpc: bad attach") body

/-- `unmarshalDetach` : the first field 1, if it has 16 bytes. -/
def unmarshalDetach (np : Codec) (body : Bytes) : Except BridgeError Bytes := do
  let fields ← ofWire (decodeFields np body)
  match fields.find? fun f => f.id = 1 with
  | some f => if f.data.length ≠ 16 then .error (.text "rpc: bad detach") else .ok f.data
  | none => .error (.text "rpc: bad detach")

/-- `identityRegisterReq`. -/
structure IdentityRegisterReq where
  pubkey : Bytes
  timestamp : UInt64
  nonce : Bytes
  signature : Bytes
  routerURL : Bytes
deriving DecidableEq, Repr

def IdentityRegisterReq.set (out : IdentityRegisterReq) (f : Field) : Wire IdentityRegisterReq :=
  if f.id = 1 then .ok { out with pubkey := f.data }
  else if f.id = 2 then (fieldU64 f.data).map fun v => { out with timestamp := v }
  else if f.id = 3 then .ok { out with nonce := f.data }
  else if f.id = 4 then .ok { out with signature := f.data }
  else if f.id = 5 then .ok { out with routerURL := f.data }
  else .ok out

/-- `unmarshalIdentityRegisterReq`. -/
def unmarshalIdentityRegisterReq (np : Codec) (body : Bytes) :
    Except BridgeError IdentityRegisterReq :=
  unmarshalReq np IdentityRegisterReq.set ⟨[], 0, [], [], []⟩ (fun out =>
    refuseIf (out.pubkey.length ≠ 32 ∨ out.nonce.length ≠ 16 ∨ out.signature.length ≠ 64 ∨
      512 < out.routerURL.length) "rpc: bad identity register") body

/-- `registerReq`. -/
structure RegisterReq where
  userTag : Bytes
  routerURL : Bytes
deriving DecidableEq, Repr

def RegisterReq.set (out : RegisterReq) (f : Field) : Wire RegisterReq :=
  if f.id = 1 then .ok { out with userTag := f.data }
  else if f.id = 2 then .ok { out with routerURL := f.data }
  else .ok out

/-- `unmarshalRegisterReq`. -/
def unmarshalRegisterReq (np : Codec) (body : Bytes) : Except BridgeError RegisterReq :=
  unmarshalReq np RegisterReq.set ⟨[], []⟩ (fun out =>
    refuseIf (out.userTag = []) "rpc: bad register") body

/-- `resolveReq`. -/
structure ResolveReq where
  recipientPub : Bytes
  routerURL : Bytes
deriving DecidableEq, Repr

def ResolveReq.set (out : ResolveReq) (f : Field) : Wire ResolveReq :=
  if f.id = 1 then .ok { out with recipientPub := f.data }
  else if f.id = 2 then .ok { out with routerURL := f.data }
  else .ok out

/-- `unmarshalResolveReq`. -/
def unmarshalResolveReq (np : Codec) (body : Bytes) : Except BridgeError ResolveReq :=
  unmarshalReq np ResolveReq.set ⟨[], []⟩ (fun out =>
    refuseIf (out.recipientPub.length ≠ 32) "rpc: bad resolve") body

/-- `xferPut`. -/
structure XferPut where
  transferID : Bytes
  index : UInt32
  payload : Bytes
  hash : Bytes
  offset : UInt64
deriving DecidableEq, Repr

def XferPut.set (out : XferPut) (f : Field) : Wire XferPut :=
  if f.id = 1 then .ok { out with transferID := f.data }
  else if f.id = 2 then (fieldU32 f.data).map fun v => { out with index := v }
  else if f.id = 3 then .ok { out with payload := f.data }
  else if f.id = 4 then .ok { out with hash := f.data }
  else if f.id = 5 then (fieldU64 f.data).map fun v => { out with offset := v }
  else .ok out

/-- `unmarshalXferPut`. -/
def unmarshalXferPut (np : Codec) (body : Bytes) : Except BridgeError XferPut :=
  unmarshalReq np XferPut.set ⟨[], 0, [], [], 0⟩ (fun out =>
    refuseIf (out.transferID.length ≠ 16 ∨ out.payload.length = 0 ∨ out.hash.length ≠ 32)
      "rpc: bad chunk") body

/-- `checkResumeAuth`. -/
def checkResumeAuth (mailboxID readSecret ticket : Bytes) : Except String Unit :=
  if ticket.length = 32 then
    if mailboxID.length ≠ 0 ∨ readSecret.length ≠ 0 then
      .error "rpc: ticket mode: mailbox and read_secret must be empty"
    else .ok ()
  else if ticket.length ≠ 0 then .error "rpc: ticket must be 32 bytes"
  else if mailboxID.length ≠ 16 ∨ readSecret.length ≠ 32 then .error "rpc: bad resume"
  else .ok ()

/-- `xferResume`. -/
structure XferResume where
  transferID : Bytes
  mailboxID : Bytes
  readSecret : Bytes
  ticket : Bytes
  shardURL : Bytes
deriving DecidableEq, Repr

def XferResume.set (out : XferResume) (f : Field) : Wire XferResume :=
  if f.id = 1 then .ok { out with transferID := f.data }
  else if f.id = 2 then .ok { out with mailboxID := f.data }
  else if f.id = 3 then .ok { out with readSecret := f.data }
  else if f.id = 4 then .ok { out with ticket := f.data }
  else if f.id = 5 then .ok { out with shardURL := f.data }
  else .ok out

/-- `unmarshalXferResume`. -/
def unmarshalXferResume (np : Codec) (body : Bytes) : Except BridgeError XferResume :=
  unmarshalReq np XferResume.set ⟨[], [], [], [], []⟩ (fun out => do
    refuseIf (out.transferID.length ≠ 16) "rpc: bad resume"
    (checkResumeAuth out.mailboxID out.readSecret out.ticket).mapError .text) body

/-- `xferGet`. -/
structure XferGet where
  transferID : Bytes
  index : UInt32
  mailboxID : Bytes
  readSecret : Bytes
  ticket : Bytes
  shardURL : Bytes
deriving DecidableEq, Repr

def XferGet.set (out : XferGet) (f : Field) : Wire XferGet :=
  if f.id = 1 then .ok { out with transferID := f.data }
  else if f.id = 2 then (fieldU32 f.data).map fun v => { out with index := v }
  else if f.id = 3 then .ok { out with mailboxID := f.data }
  else if f.id = 4 then .ok { out with readSecret := f.data }
  else if f.id = 5 then .ok { out with ticket := f.data }
  else if f.id = 6 then .ok { out with shardURL := f.data }
  else .ok out

/-- `unmarshalXferGet`. -/
def unmarshalXferGet (np : Codec) (body : Bytes) : Except BridgeError XferGet :=
  unmarshalReq np XferGet.set ⟨[], 0, [], [], [], []⟩ (fun out => do
    refuseIf (out.transferID.length ≠ 16) "rpc: bad get"
    (checkResumeAuth out.mailboxID out.readSecret out.ticket).mapError
      fun e => .text ("rpc: bad get: " ++ e)) body

/-- `xferComplete`. -/
structure XferComplete where
  transferID : Bytes
  manifestHash : Bytes
deriving DecidableEq, Repr

def XferComplete.set (out : XferComplete) (f : Field) : Wire XferComplete :=
  if f.id = 1 then .ok { out with transferID := f.data }
  else if f.id = 2 then .ok { out with manifestHash := f.data }
  else .ok out

/-- `unmarshalXferComplete`. -/
def unmarshalXferComplete (np : Codec) (body : Bytes) : Except BridgeError XferComplete :=
  unmarshalReq np XferComplete.set ⟨[], []⟩ (fun out =>
    refuseIf (out.transferID.length ≠ 16 ∨ out.manifestHash.length ≠ 32) "rpc: bad complete") body

/-- `xferCancel`. -/
structure XferCancel where
  transferID : Bytes
  mailboxID : Bytes
  readSecret : Bytes
deriving DecidableEq, Repr

def XferCancel.set (out : XferCancel) (f : Field) : Wire XferCancel :=
  if f.id = 1 then .ok { out with transferID := f.data }
  else if f.id = 2 then .ok { out with mailboxID := f.data }
  else if f.id = 3 then .ok { out with readSecret := f.data }
  else .ok out

/-- `unmarshalXferCancel`. -/
def unmarshalXferCancel (np : Codec) (body : Bytes) : Except BridgeError XferCancel :=
  unmarshalReq np XferCancel.set ⟨[], [], []⟩ (fun out =>
    refuseIf (out.transferID.length ≠ 16 ∨ out.mailboxID.length ≠ 16 ∨
      out.readSecret.length ≠ 32) "rpc: bad cancel") body

/-! ## Error texts -/

/-- The bytes of a Go string. -/
def utf8 (s : String) : Bytes :=
  s.toUTF8.data.toList

/-- The numbers of the error codes. -/
def ErrCode.number : ErrCode → ℕ
  | .invalidRequest => 1
  | .unsupportedProtocol => 2
  | .authFailed => 3
  | .replayDetected => 4
  | .expiredRequest => 5
  | .mailboxNotFound => 6
  | .mailboxExpired => 7
  | .messageTooLarge => 8
  | .quotaExceeded => 9
  | .transferNotFound => 10
  | .transferExpired => 11
  | .chunkInvalid => 12
  | .chunkConflict => 13
  | .chunkOutOfRange => 14
  | .storageUnavailable => 15
  | .rateLimited => 16
  | .serverUnavailable => 17
  | .transferConflict => 18
  | .hashMismatch => 19
  | .payloadTooLarge => 20
  | .batchTooLarge => 21

/-- `ProtocolError.Error`. -/
def ProtocolError.message (e : ProtocolError) : String :=
  if e.detail ≠ "" then "filerelay error " ++ toString e.code.number ++ ": " ++ e.detail
  else "filerelay error " ++ toString e.code.number

/-- `err.Error()`, with the texts of the errors of nanopack. -/
def BridgeError.message (npText : NanoPack.Error → String) : BridgeError → Bytes
  | .wire (.protocol e) => utf8 e.message
  | .wire (.nanopack e) => utf8 (npText e)
  | .text s => utf8 s
  | .system s => utf8 s
  | .remote what detail => utf8 (what ++ ": ") ++ detail
  | .http what status => utf8 (what ++ " http " ++ toString status)

/-! ## Replies -/

/-- `b, _ := enc.Bytes()`. -/
def packed (np : Codec) (fs : List Field) : Bytes :=
  match np.bytes fs with
  | .ok b => b
  | .error _ => []

/-- `[]byte{1}` or `[]byte{0}`. -/
def flag (b : Bool) : Bytes :=
  if b then [1] else [0]

def bridgeID : Bytes := ascii "filerelay"
def bridgeVersion : Bytes := ascii "1.0.0"
def transportAPIVer : UInt8 := 1

/-- `marshalInitResult`. -/
def marshalInitResult (np : Codec) (ok : Bool) (detail : Bytes) (api : UInt8) : Bytes :=
  packed np [⟨1, flag ok⟩, ⟨2, detail⟩, ⟨3, [api]⟩]

/-- `marshalAck`. -/
def marshalAck (np : Codec) (ok : Bool) (detail : Bytes) : Bytes :=
  packed np [⟨1, flag ok⟩, ⟨2, detail⟩]

/-- `marshalStatus`. -/
def marshalStatus (np : Codec) (running : Bool) (detail : Bytes) : Bytes :=
  packed np [⟨1, flag running⟩, ⟨2, detail⟩]

/-- The two names of `marshalCaps`, each after its length. -/
def capsBlob : Bytes :=
  [ascii "message", ascii "binary-transfer"].flatMap fun c =>
    UInt8.ofNat (c.length >>> 8) :: UInt8.ofNat c.length :: c

/-- `marshalCaps`. -/
def marshalCaps (np : Codec) : Bytes :=
  packed np [⟨1, capsBlob⟩, ⟨2, bridgeID⟩, ⟨3, bridgeVersion⟩]

/-- `marshalError`. -/
def marshalError (np : Codec) (code : ℕ) (detail : Bytes) : Bytes :=
  packed np [⟨1, putU32 (UInt32.ofNat code)⟩, ⟨2, detail⟩]

/-- `marshalRegisterResult`. -/
def marshalRegisterResult (np : Codec) (mailboxID readSecret shardURL routerURL : Bytes) : Bytes :=
  packed np [⟨1, mailboxID⟩, ⟨2, readSecret⟩, ⟨3, shardURL⟩, ⟨4, routerURL⟩]

/-- `marshalResolveResult`. -/
def marshalResolveResult (np : Codec) (mailboxID shardURL : Bytes) : Bytes :=
  packed np [⟨1, mailboxID⟩, ⟨2, shardURL⟩]

/-- `marshalXferCreated`. -/
def marshalXferCreated (np : Codec) (transferID downloadSecret shardURL : Bytes)
    (expires : UInt64) : Bytes :=
  packed np [⟨1, transferID⟩, ⟨2, putU64 expires⟩, ⟨3, downloadSecret⟩, ⟨4, shardURL⟩]

/-- `marshalXferProgress`. -/
def marshalXferProgress (np : Codec) (highest count : UInt32) (missing bitmap : Bytes)
    (encoding : UInt8) : Bytes :=
  packed np [⟨1, putU32 highest⟩, ⟨2, missing⟩, ⟨3, bitmap⟩, ⟨4, [encoding]⟩, ⟨5, putU32 count⟩]

/-- `marshalXferChunk`. -/
def marshalXferChunk (np : Codec) (payload hash : Bytes) : Bytes :=
  packed np [⟨1, payload⟩, ⟨2, hash⟩]

/-- What a handler answers, before it is encoded. -/
inductive Outcome
  | initialized (failure : Option BridgeError)
  | capabilities
  | acked (op : UInt8)
  | status (running : Bool)
  | polled (frames : List Bytes)
  | registered (op : UInt8) (mailboxID readSecret shardURL routerURL : Bytes)
  | resolved (mailboxID shardURL : Bytes)
  | created (c : XferCreated)
  | progress (op : UInt8) (highest count : UInt32) (missing bitmap : Bytes) (encoding : UInt8)
  | chunk (payload hash : Bytes)
  | failed (code : ℕ) (e : BridgeError)

/-- The `op` of the reply. -/
def Outcome.op : Outcome → UInt8
  | .initialized _ => 1
  | .capabilities => 8
  | .acked op => op
  | .status _ => 7
  | .polled _ => 6
  | .registered op _ _ _ _ => op
  | .resolved _ _ => 10
  | .created _ => 11
  | .progress op _ _ _ _ _ => op
  | .chunk _ _ => 14
  | .failed _ _ => 0

section Payload

variable (np : Codec) (npText : NanoPack.Error → String)

/-- The payload of the reply. -/
def Outcome.payload : Outcome → Bytes
  | .initialized none => marshalInitResult np true [] transportAPIVer
  | .initialized (some e) => marshalInitResult np false (e.message npText) transportAPIVer
  | .capabilities => marshalCaps np
  | .acked _ => marshalAck np true []
  | .status running =>
    marshalStatus np running (utf8 (if running then "courier running" else "stopped"))
  | .polled frames => marshalPollResult np frames
  | .registered _ mailboxID readSecret shardURL routerURL =>
    marshalRegisterResult np mailboxID readSecret shardURL routerURL
  | .resolved mailboxID shardURL => marshalResolveResult np mailboxID shardURL
  | .created c => marshalXferCreated np c.transferID c.downloadSecret c.shardURL c.expiresAt
  | .progress _ highest count missing bitmap encoding =>
    marshalXferProgress np highest count missing bitmap encoding
  | .chunk payload hash => marshalXferChunk np payload hash
  | .failed code e => marshalError np code (e.message npText)

end Payload

/-- The fields the payload packs. -/
def Outcome.fields (npText : NanoPack.Error → String) : Outcome → List Field
  | .initialized none => [⟨1, flag true⟩, ⟨2, []⟩, ⟨3, [transportAPIVer]⟩]
  | .initialized (some e) => [⟨1, flag false⟩, ⟨2, e.message npText⟩, ⟨3, [transportAPIVer]⟩]
  | .capabilities => [⟨1, capsBlob⟩, ⟨2, bridgeID⟩, ⟨3, bridgeVersion⟩]
  | .acked _ => [⟨1, flag true⟩, ⟨2, []⟩]
  | .status running =>
    [⟨1, flag running⟩, ⟨2, utf8 (if running then "courier running" else "stopped")⟩]
  | .polled frames => [⟨1, frameBlob frames⟩, ⟨2, putU32 (UInt32.ofNat frames.length)⟩]
  | .registered _ mailboxID readSecret shardURL routerURL =>
    [⟨1, mailboxID⟩, ⟨2, readSecret⟩, ⟨3, shardURL⟩, ⟨4, routerURL⟩]
  | .resolved mailboxID shardURL => [⟨1, mailboxID⟩, ⟨2, shardURL⟩]
  | .created c =>
    [⟨1, c.transferID⟩, ⟨2, putU64 c.expiresAt⟩, ⟨3, c.downloadSecret⟩, ⟨4, c.shardURL⟩]
  | .progress _ highest count missing bitmap encoding =>
    [⟨1, putU32 highest⟩, ⟨2, missing⟩, ⟨3, bitmap⟩, ⟨4, [encoding]⟩, ⟨5, putU32 count⟩]
  | .chunk payload hash => [⟨1, payload⟩, ⟨2, hash⟩]
  | .failed code e => [⟨1, putU32 (UInt32.ofNat code)⟩, ⟨2, e.message npText⟩]

/-! ## Sizes -/

end FileRelay
