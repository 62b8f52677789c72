import FileRelay.Bytes

/-!
# Limits and error codes

`protocol/limits.go` and `protocol/errors.go`. Sizes and counts are natural numbers,
TTLs integers, in the units of the source. Times are `int64` milliseconds : where the code
computes one, the model takes the value of the computation with `toInt64`, which is the
exact one as long as it fits (`toInt64_of_fits`).
-/

namespace FileRelay

/-- The value of an `int64` computation. -/
def toInt64 (x : ℤ) : ℤ :=
  Int.bmod x (2 ^ 64)

theorem toInt64_of_fits {x : ℤ} (hlo : -2 ^ 63 ≤ x) (hhi : x < 2 ^ 63) : toInt64 x = x := by
  unfold toInt64
  exact Int.bmod_eq_of_le (by simpa using hlo) (by simpa using hhi)

theorem neg_two_pow_le_toInt64 (x : ℤ) : -2 ^ 63 ≤ toInt64 x :=
  Int.le_bmod (by decide)

theorem toInt64_lt (x : ℤ) : toInt64 x < 2 ^ 63 :=
  Int.bmod_lt (by decide)

def maxMessageBytes : ℕ := 32 * 1024
def maxChunkBytes : ℕ := 64 * 1024
def maxFileBytes : ℕ := 1024 * 1024 * 1024
def maxChunksPerTransfer : ℕ := 16384
def maxActiveTransfersPerMailbox : ℕ := 16
def maxQueuedMessages : ℕ := 100
/-- Per mailbox, messages and chunks together. -/
def maxStoredBytesPerMailbox : ℕ := 16 * 1024 * 1024
def maxRequestBytes : ℕ := 128 * 1024
def maxBatchMessages : ℕ := 32
def maxMissingRanges : ℕ := 1024
def maxManifestBytes : ℕ := 4096

def msgTTLSeconds : ℤ := 14 * 24 * 3600
def mailboxTTLSeconds : ℤ := 365 * 24 * 3600
def uploadTTLSeconds : ℤ := 24 * 3600
def uploadTTLMaxSeconds : ℤ := 7 * 24 * 3600
def completeTTLSeconds : ℤ := 14 * 24 * 3600
def replayWindowSeconds : ℤ := 90
def maxClockSkewMillis : ℤ := 30000

/-- The stable error codes. -/
inductive ErrCode
  | invalidRequest
  | unsupportedProtocol
  | authFailed
  | replayDetected
  | expiredRequest
  | mailboxNotFound
  | mailboxExpired
  | messageTooLarge
  | quotaExceeded
  | transferNotFound
  | transferExpired
  | chunkInvalid
  | chunkConflict
  | chunkOutOfRange
  | storageUnavailable
  | rateLimited
  | serverUnavailable
  | transferConflict
  | hashMismatch
  | payloadTooLarge
  | batchTooLarge
deriving DecidableEq, Repr

/-- `ProtocolError`. -/
structure ProtocolError where
  code : ErrCode
  detail : String
  retryAfter : ℕ := 0
deriving DecidableEq, Repr

end FileRelay
