import FileRelay.Schemas

/-!
# Signed requests

`protocol/auth.go` : the canonical bytes a signature covers, the four verification
functions and the clock skew test, and the checks the handlers of `server/shard` and
`server/router` make on a decoded request before its replay test. `ed25519.Verify` and
SHA-256 are parameters.

The skew test is in 64-bit arithmetic. Over the readings a clock gives it keeps the entry
times of one request within twice the skew of each other (`checkSkew_spread`).
-/

namespace FileRelay

/-- The bytes of an ASCII text. -/
def ascii (s : String) : Bytes :=
  s.toList.map fun c => UInt8.ofNat c.toNat

def domainMsgSend : Bytes := ascii "FR1/MSG-SEND" ++ [0]
def domainRegister : Bytes := ascii "FR1/REGISTER" ++ [0]
def domainXferCreate : Bytes := ascii "FR1/XFER-CREATE" ++ [0]
def domainXferComplete : Bytes := ascii "FR1/XFER-COMPLETE" ++ [0]

/-! ## The skew test -/

/-- `CheckSkew`. Negating the least `int64` gives it back. -/
def checkSkew (timestampMS : UInt64) (nowMillis : ℤ) : Check :=
  let dt := toInt64 (nowMillis - toInt64 timestampMS.toNat)
  let dt := if dt < 0 then toInt64 (-dt) else dt
  failIf (maxClockSkewMillis < dt) .expiredRequest "timestamp outside skew window" <|
  .ok ()

/-- Readings a clock gives : after 1970 and in the lower half of the positive `int64`. -/
def ClockReading (t : ℤ) : Prop :=
  0 ≤ t ∧ t < 2 ^ 62

/-- A reading within the skew of a timestamp, or half the range of `int64` away from it. -/
theorem checkSkew_eq_ok {ts : UInt64} {t : ℤ} (ht : ClockReading t)
    (h : checkSkew ts t = .ok ()) :
    (t - toInt64 ts.toNat ≤ maxClockSkewMillis ∧ toInt64 ts.toNat - t ≤ maxClockSkewMillis) ∨
      t - toInt64 ts.toNat = 2 ^ 63 := by
  have hlo : -2 ^ 63 ≤ toInt64 ts.toNat := neg_two_pow_le_toInt64 _
  have hhi : toInt64 ts.toNat < 2 ^ 63 := toInt64_lt _
  obtain ⟨h0, h1⟩ := ht
  unfold checkSkew at h
  generalize toInt64 ts.toNat = u at *
  simp only [failIf_eq_ok, not_lt, and_true] at h
  unfold maxClockSkewMillis toInt64 Int.bmod at *
  simp only [Nat.reducePow, Nat.cast_ofNat, Int.reducePow, Int.reduceNeg] at *
  split_ifs at h <;> omega

/-- Two readings that pass the skew test of one timestamp. -/
theorem checkSkew_spread {ts : UInt64} {t t' : ℤ} (ht : ClockReading t) (ht' : ClockReading t')
    (h : checkSkew ts t = .ok ()) (h' : checkSkew ts t' = .ok ()) :
    t' ≤ t + 2 * maxClockSkewMillis := by
  have hs := checkSkew_eq_ok ht h
  have hs' := checkSkew_eq_ok ht' h'
  obtain ⟨h0, h1⟩ := ht
  obtain ⟨h0', h1'⟩ := ht'
  unfold maxClockSkewMillis at *
  omega

/-! ## Canonical bytes -/

variable (H : Bytes → Digest)

/-- `CanonicalMsgSend`. -/
def canonicalMsgSend (senderPub : ByteArr 32) (mailboxID : ID) (timestampMS : UInt64)
    (nonce : ByteArr 16) (envelope : Bytes) : Bytes :=
  domainMsgSend ++ senderPub.toList ++ mailboxID.toList ++ putU64 timestampMS ++ nonce.toList ++
    (H envelope).toList

/-- `CanonicalRegister`. -/
def canonicalRegister (clientPub : ByteArr 32) (timestampMS : UInt64) (nonce : ByteArr 16) :
    Bytes :=
  domainRegister ++ clientPub.toList ++ putU64 timestampMS ++ nonce.toList

/-- `CanonicalXferCreate`. -/
def canonicalXferCreate (senderPub : ByteArr 32) (mailboxID : ID) (total : UInt64)
    (chunkSize chunkCount : UInt32) (timestampMS : UInt64) (nonce : ByteArr 16)
    (manifest : Bytes) : Bytes :=
  domainXferCreate ++ senderPub.toList ++ mailboxID.toList ++ putU64 total ++ putU32 chunkSize ++
    putU32 chunkCount ++ putU64 timestampMS ++ nonce.toList ++ (H manifest).toList

/-- `CanonicalXferComplete`. -/
def canonicalXferComplete (senderPub : ByteArr 32) (transferID : ID) (manifestHash : ByteArr 32)
    (timestampMS : UInt64) (nonce : ByteArr 16) : Bytes :=
  domainXferComplete ++ senderPub.toList ++ transferID.toList ++ manifestHash.toList ++
    putU64 timestampMS ++ nonce.toList

/-! ## Verification -/

/-- `ed25519.Verify` : public key, message, signature. -/
abbrev Verifier := Bytes → Bytes → Bytes → Bool

variable (verify : Verifier)

/-- The body the four verification functions share, over the canonical bytes of each. -/
def verifySigned (pub canonical sig : Bytes) (timestampMS : UInt64) (nowMillis : ℤ) : Check :=
  failIf (pub.length ≠ 32 ∨ sig.length ≠ 64) .authFailed "bad pub/sig length" <|
  failIf (verify pub canonical sig = false) .authFailed "signature verification failed" <|
  checkSkew timestampMS nowMillis

/-- `VerifyMsgSend`. -/
def verifyMsgSend (pub : Bytes) (mailboxID : ID) (timestampMS : UInt64) (nonce : ByteArr 16)
    (envelope sig : Bytes) (nowMillis : ℤ) : Check :=
  verifySigned verify pub
    (canonicalMsgSend H (copyArr 32 pub) mailboxID timestampMS nonce envelope) sig timestampMS
    nowMillis

/-- `VerifyRegister`. -/
def verifyRegister (pub : Bytes) (timestampMS : UInt64) (nonce : ByteArr 16) (sig : Bytes)
    (nowMillis : ℤ) : Check :=
  verifySigned verify pub (canonicalRegister (copyArr 32 pub) timestampMS nonce) sig timestampMS
    nowMillis

/-- `VerifyXferCreate`. -/
def verifyXferCreate (pub : Bytes) (mailboxID : ID) (total : UInt64)
    (chunkSize chunkCount : UInt32) (timestampMS : UInt64) (nonce : ByteArr 16)
    (manifest sig : Bytes) (nowMillis : ℤ) : Check :=
  verifySigned verify pub
    (canonicalXferCreate H (copyArr 32 pub) mailboxID total chunkSize chunkCount timestampMS nonce
      manifest) sig timestampMS nowMillis

/-- `VerifyXferComplete`. -/
def verifyXferComplete (pub : Bytes) (transferID : ID) (manifestHash : ByteArr 32)
    (timestampMS : UInt64) (nonce : ByteArr 16) (sig : Bytes) (nowMillis : ℤ) : Check :=
  verifySigned verify pub
    (canonicalXferComplete (copyArr 32 pub) transferID manifestHash timestampMS nonce) sig
    timestampMS nowMillis

theorem checkSkew_of_verifySigned {pub canonical sig : Bytes} {ts : UInt64} {now : ℤ}
    (h : verifySigned verify pub canonical sig ts now = .ok ()) : checkSkew ts now = .ok () := by
  simp only [verifySigned, failIf_eq_ok] at h
  exact h.2.2

/-! ## The handlers up to the replay test -/

/-- `ValidateRegister`. -/
def validateRegister (r : Register) : Check :=
  failIf (r.clientPub.length ≠ 32) .authFailed "client_pub must be 32 bytes" <|
  failIf (r.nonce.length ≠ 16) .invalidRequest "nonce must be 16 bytes" <|
  failIf (r.signature.length ≠ 64) .authFailed "signature must be 64 bytes" <|
  .ok ()

theorem validateRegister_eq_ok {r : Register} : validateRegister r = .ok () ↔
    r.clientPub.length = 32 ∧ r.nonce.length = 16 ∧ r.signature.length = 64 := by
  simp [validateRegister]

/-- A decoded request of the shard that carries a signature. -/
inductive Request
  | send (m : SendMessage)
  | create (t : TransferCreate)
  | complete (t : TransferComplete)
deriving DecidableEq

/-- `handleSend` on a decoded body, from the validation its decoder ends with to the
verification against the entry time. -/
def authSend (m : SendMessage) (now : ℤ) : Check := do
  validateSendMessage m
  failIf (m.senderPub.length ≠ 32) .authFailed "bad sender pub" <|
  failIf (m.mailboxID.length ≠ 16) .invalidRequest "bad mailbox" <|
  failIf (m.nonce.length ≠ 16) .invalidRequest "bad nonce" <|
  verifyMsgSend H verify m.senderPub (copyArr 16 m.mailboxID) m.timestamp (copyArr 16 m.nonce)
    m.envelope m.signature now

/-- `handleCreate` up to the replay test. -/
def authCreate (t : TransferCreate) (now : ℤ) : Check := do
  validateTransferCreateMsg t
  failIf (t.senderPub.length ≠ 32) .authFailed "bad sender pub" <|
  failIf (t.nonce.length ≠ 16) .invalidRequest "bad nonce" <|
  verifyXferCreate H verify t.senderPub
    (if t.mailboxID.length = 16 then copyArr 16 t.mailboxID else copyArr 16 []) t.totalSize
    t.chunkSize t.chunkCount t.timestamp (copyArr 16 t.nonce) t.manifest t.signature now

/-- `handleComplete` up to the replay test. -/
def authComplete (t : TransferComplete) (now : ℤ) : Check := do
  validateTransferComplete t
  failIf (t.senderPub.length ≠ 32) .authFailed "bad sender pub" <|
  failIf (t.nonce.length ≠ 16) .invalidRequest "bad nonce" <|
  verifyXferComplete verify t.senderPub (copyArr 16 t.transferID) (copyArr 32 t.manifestHash)
    t.timestamp (copyArr 16 t.nonce) t.signature now

/-- The checks on a request against the entry time of its handler. -/
def Request.auth (r : Request) (now : ℤ) : Check :=
  match r with
  | .send m => authSend H verify m now
  | .create t => authCreate H verify t now
  | .complete t => authComplete verify t now

/-- `handleRegister` on a decoded body up to the replay test. -/
def authRegister (r : Register) (now : ℤ) : Check := do
  validateRegister r
  verifyRegister verify r.clientPub r.timestamp (copyArr 16 r.nonce) r.signature now

/-- `replayKey`. -/
def replayKey (domain pub nonce : Bytes) : Digest :=
  H (domain ++ pub ++ nonce)

def replayDomainMsg : Bytes := ascii "FR1/replay-msg" ++ [0]
def replayDomainCreate : Bytes := ascii "FR1/replay-create" ++ [0]
def replayDomainComplete : Bytes := ascii "FR1/replay-complete" ++ [0]

/-- The key a request is tested under. -/
def Request.replayKey (r : Request) : Digest :=
  match r with
  | .send m => FileRelay.replayKey H replayDomainMsg m.senderPub m.nonce
  | .create t => FileRelay.replayKey H replayDomainCreate t.senderPub t.nonce
  | .complete t => FileRelay.replayKey H replayDomainComplete t.senderPub t.nonce

/-- A request without the fields no signature covers. Two deliveries are of one signed
request if they agree here. -/
def Request.signed : Request → Request
  | .send m => .send { m with signature := [], ttlHintSec := 0, burn := 0 }
  | .create t => .create { t with signature := [] }
  | .complete t => .complete { t with signature := [], mailboxID := [] }

/-- A registration without its signature. -/
def Register.signed (r : Register) : Register :=
  { r with signature := [] }

def Request.timestamp : Request → UInt64
  | .send m => m.timestamp
  | .create t => t.timestamp
  | .complete t => t.timestamp

theorem Request.replayKey_signed (r : Request) : r.signed.replayKey H = r.replayKey H := by
  cases r <;> rfl

theorem Request.timestamp_signed (r : Request) : r.signed.timestamp = r.timestamp := by
  cases r <;> rfl

theorem bind_eq_ok {a : Check} {b : Unit → Check} (h : (a >>= b) = .ok ()) : b () = .ok () := by
  rcases a with e | ⟨⟩
  · cases h
  · exact h

/-- A request that passes its checks passes the skew test. -/
theorem Request.checkSkew_of_auth {r : Request} {now : ℤ} (h : r.auth H verify now = .ok ()) :
    checkSkew r.timestamp now = .ok () := by
  cases r with
  | send m =>
    have hv := bind_eq_ok h
    simp only [failIf_eq_ok] at hv
    exact checkSkew_of_verifySigned verify hv.2.2.2
  | create t =>
    have hv := bind_eq_ok h
    simp only [failIf_eq_ok] at hv
    exact checkSkew_of_verifySigned verify hv.2.2
  | complete t =>
    have hv := bind_eq_ok h
    simp only [failIf_eq_ok] at hv
    exact checkSkew_of_verifySigned verify hv.2.2

theorem checkSkew_of_authRegister {r : Register} {now : ℤ}
    (h : authRegister verify r now = .ok ()) : checkSkew r.timestamp now = .ok () :=
  checkSkew_of_verifySigned verify (bind_eq_ok h)

end FileRelay
