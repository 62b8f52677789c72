import FileRelay.Bindings
import FileRelay.Requests

/-!
# The message handlers of the shard

`handleReceive` and `handleSend` of `server/shard/handler.go` from the raw body to the body of
the response, with the fixed-window limiter between the checks and the store. `handleReceive`
calls the store once. `handleSend` calls it twice, for the replay test and for the message,
and each of the two calls reads the clock of the store anew.
-/

namespace FileRelay

open NanoPack (Field Codec layout)

/-! ## The limiter -/

/-- `window`. -/
structure Window where
  count : ℕ
  resetAt : ℤ
deriving DecidableEq, Repr

/-- `limiter.buckets`. -/
abbrev Buckets := GoMap Bytes Window

/-- The body of `allow` under its lock, which `allowRL` of the router has as well : the first
request opens a window of a minute, and the others are counted in it. The end of the window
is an `int64`. -/
def takeSlot (buckets : Buckets) (key : Bytes) (now max : ℤ) : Buckets × Bool :=
  let fresh := (buckets.insert key ⟨1, toInt64 (now + 60000)⟩, true)
  match buckets.lookup key with
  | none => fresh
  | some w =>
    if w.resetAt ≤ now then fresh
    else if max ≤ w.count then (buckets, false)
    else (buckets.insert key { w with count := w.count + 1 }, true)

/-- `allow`. -/
def allow (buckets : Buckets) (key : Bytes) (now max : ℤ) : Buckets × Bool :=
  if max ≤ 0 then (buckets, true) else takeSlot buckets key now max

/-- `allow` of several keys, up to the first that is refused. -/
def allowAll (now : ℤ) : Buckets → List (Bytes × ℤ) → Buckets × Bool
  | buckets, [] => (buckets, true)
  | buckets, (key, max) :: rest =>
    match allow buckets key now max with
    | (buckets, false) => (buckets, false)
    | (buckets, true) => allowAll now buckets rest

/-- `RateLimits`, the entries the message handlers use. -/
structure RateLimits where
  sendsPerSender : ℤ
  sendsPerTarget : ℤ
  sendsPerIP : ℤ
  receivesPerIP : ℤ

/-- The store and the limiter of a shard. -/
structure ShardHandler where
  store : MemStore
  limiter : Buckets

/-- `&ProtocolError{ErrRateLimited, "rate limited", 60}`. -/
def rateLimitedError : WireError :=
  .protocol ⟨.rateLimited, "rate limited", 60⟩

/-! ## Receive -/

/-- The loop of `MarshalReceiveMessagesResponse` : the ids and the payloads. -/
def batchLoop : List ReceivedMessage → Wire (Bytes × Bytes)
  | [] => .ok ([], [])
  | m :: ms => do
    rejectIf (m.msgID.length ≠ 16) .invalidRequest "msg_id must be 16 bytes"
    rejectIf (m.envelope.length = 0 ∨ maxMessageBytes < m.envelope.length) .messageTooLarge
      "envelope out of bounds"
    let r ← batchLoop ms
    return (m.msgID ++ r.1, putU32 (UInt32.ofNat m.envelope.length) ++ m.envelope ++ r.2)

/-- `MarshalReceiveMessagesResponse`. -/
def marshalReceiveMessagesResponse (np : Codec) (msgs : List ReceivedMessage) (consumed : Bool) :
    Wire Bytes := do
  rejectIf (maxBatchMessages < msgs.length) .batchTooLarge "batch too large"
  let r ← batchLoop msgs
  encodeFields np [⟨1, putU32 (UInt32.ofNat msgs.length)⟩, ⟨2, r.1⟩, ⟨3, r.2⟩,
    ⟨4, [if consumed then 1 else 0]⟩]

/-- `ReceivedMessage{MsgID: m.ID[:], Envelope: m.Envelope}`. -/
def StoredMessage.received (m : StoredMessage) : ReceivedMessage :=
  ⟨m.id.toList, m.envelope⟩

variable (np : Codec) (H : Bytes → Digest) (verify : Verifier) (limits : RateLimits)

/-- `handleReceive` of a `POST`. It enters at `now`, and the store reads its clock as
`storeNow`. -/
def handleReceive (s : ShardHandler) (now storeNow : ℤ) (ip raw : Bytes) :
    ShardHandler × Wire Bytes :=
  match readBody raw 256 with
  | .error e => (s, .error (.protocol e))
  | .ok raw =>
    match unmarshalReceiveMessages np raw with
    | .error e => (s, .error e)
    | .ok req =>
      match allow s.limiter (ascii "recv-ip:" ++ ip) now limits.receivesPerIP with
      | (buckets, false) => (⟨s.store, buckets⟩, .error rateLimitedError)
      | (buckets, true) =>
        let limit : ℤ := if (req.limit.toNat : ℤ) ≤ 0 then maxBatchMessages else req.limit.toNat
        match receiveMessages H s.store storeNow (copyArr 16 req.mailboxID) req.readSecret limit
            (req.peek == 1) with
        | (store, .error e) => (⟨store, buckets⟩, .error (.protocol e))
        | (store, .ok (msgs, consumed)) =>
          (⟨store, buckets⟩,
            marshalReceiveMessagesResponse np (msgs.map StoredMessage.received) consumed)

/-! ## Send -/

/-- `MarshalSendMessageResponse`. -/
def marshalSendMessageResponse (accepted : UInt8) (queued : UInt32) (msgID : Bytes) :
    Wire Bytes := do
  rejectIf (msgID.length ≠ 16) .invalidRequest "msg_id must be 16 bytes"
  encodeFields np [⟨1, [accepted]⟩, ⟨2, putU32 queued⟩, ⟨3, msgID⟩]

/-- The keys `handleSend` is limited under. -/
def sendSlots (m : SendMessage) (ip : Bytes) : List (Bytes × ℤ) :=
  [(ascii "send-sender:" ++ hexEncode m.senderPub, limits.sendsPerSender),
    (ascii "send-target:" ++ hexEncode m.mailboxID, limits.sendsPerTarget),
    (ascii "send-ip:" ++ ip, limits.sendsPerIP)]

/-- `handleSend` of a `POST`. It enters at `now`, and the two calls of the store read its clock
as `replayNow` and `storeNow`. `id` is what `NewID` draws. -/
def handleSend (s : ShardHandler) (now replayNow storeNow : ℤ) (ip raw : Bytes) (id : ID) :
    ShardHandler × Wire Bytes :=
  match readBody raw maxRequestBytes with
  | .error e => (s, .error (.protocol e))
  | .ok raw =>
    match unmarshalSendMessage np raw with
    | .error e => (s, .error e)
    | .ok m =>
      match authSend H verify m now with
      | .error e => (s, .error (.protocol e))
      | .ok () =>
        match checkAndMarkReplay s.store replayNow
            (replayKey H replayDomainMsg m.senderPub m.nonce) with
        | (store, true) =>
          (⟨store, s.limiter⟩, .error (.protocol ⟨.replayDetected, "replay detected", 0⟩))
        | (store, false) =>
          match allowAll now s.limiter (sendSlots limits m ip) with
          | (buckets, false) => (⟨store, buckets⟩, .error rateLimitedError)
          | (buckets, true) =>
            match sendMessage store storeNow m id with
            | (store, .error e) => (⟨store, buckets⟩, .error (.protocol e))
            | (store, .ok (msgID, queued)) =>
              (⟨store, buckets⟩,
                marshalSendMessageResponse np 1 (UInt32.ofNat queued) msgID.toList)

end FileRelay
