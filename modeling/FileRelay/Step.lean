import FileRelay.MemStore
import FileRelay.Machine

/-!
# Runs of the store

`Op` is one call of the `Store` interface, with the random values it draws. An `Event`
is a call at a clock reading. `store H` is the store as a machine : its runs are all
sequences of calls with any arguments and any clock readings.
-/

namespace FileRelay

/-- One call of the `Store` interface. -/
inductive Op
  | createMailbox (mailboxID : ID) (readSecretHash : Digest)
  | mailboxExists (mailboxID : ID)
  | checkReadSecret (mailboxID : ID) (readSecret : Bytes)
  | sendMessage (msg : SendMessage) (id : ID)
  | receiveMessages (mailboxID : ID) (readSecret : Bytes) (limit : ℤ) (peek : Bool)
  | ackMessages (mailboxID : ID) (readSecret : Bytes) (msgIDs : List Bytes) (disposition : UInt8)
  | createTransfer (t : TransferCreate) (id : ID) (ticket : Option (ByteArr 32))
  | putChunk (c : ChunkUpload)
  | getChunk (transferID mailboxID : ID) (readSecret : Bytes) (index : UInt32)
  | resume (transferID mailboxID : ID) (readSecret : Bytes)
  | getChunkByTicket (transferID : ID) (ticket : Bytes) (index : UInt32)
  | resumeByTicket (transferID : ID) (ticket : Bytes)
  | progress (transferID : ID)
  | completeTransfer (r : TransferComplete)
  | cancelTransfer (transferID mailboxID : ID) (readSecret : Bytes)
  | getTransfer (transferID : ID)
  | checkAndMarkReplay (key : Digest)
  | sweep

/-- What a call returns. -/
inductive Output
  | answer (b : Bool)
  | sent (r : Result (ID × ℕ))
  | received (r : Result (List StoredMessage × Bool))
  | acked (r : Result (ℕ × ℕ))
  | created (r : Result (ID × Bytes × ℤ))
  | put (r : Result ℕ)
  | chunk (r : Result (Bytes × Bytes))
  | resumed (r : Result (ResumeView × TransferView))
  | completed (r : Result (Bool × ℕ × ℕ))
  | cancelled (r : Result Unit)
  | transfer (r : Result TransferView)
  | swept (counts : ℕ × ℕ × ℕ)

/-- A call at a clock reading. -/
structure Event where
  now : ℤ
  op : Op

/-- Apply a result constructor to the second component. -/
def withOutput {α : Type} (f : α → Output) (r : MemStore × α) : MemStore × Output :=
  (r.1, f r.2)

variable (H : Bytes → Digest)

/-- One call. -/
def callStore (s : MemStore) (now : ℤ) : Op → MemStore × Output
  | .createMailbox mid hash => withOutput .answer (createMailbox s now mid hash)
  | .mailboxExists mid => (s, .answer (mailboxExists s now mid))
  | .checkReadSecret mid secret => (s, .answer (checkReadSecret H s mid secret))
  | .sendMessage msg id => withOutput .sent (sendMessage s now msg id)
  | .receiveMessages mid secret limit peek =>
    withOutput .received (receiveMessages H s now mid secret limit peek)
  | .ackMessages mid secret ids disposition =>
    withOutput .acked (ackMessages H s now mid secret ids disposition)
  | .createTransfer t id ticket => withOutput .created (createTransfer H s now t id ticket)
  | .putChunk c => withOutput .put (putChunk H s now c)
  | .getChunk tid mid secret index => withOutput .chunk (getChunk H s now tid mid secret index)
  | .resume tid mid secret => withOutput .resumed (resume H s now tid mid secret)
  | .getChunkByTicket tid ticket index =>
    withOutput .chunk (getChunkByTicket H s now tid ticket index)
  | .resumeByTicket tid ticket => withOutput .resumed (resumeByTicket H s now tid ticket)
  | .progress tid => withOutput .resumed (progress s now tid)
  | .completeTransfer r => withOutput .completed (completeTransfer s now r)
  | .cancelTransfer tid mid secret =>
    withOutput .cancelled (cancelTransfer H s now tid mid secret)
  | .getTransfer tid => withOutput .transfer (getTransfer s now tid)
  | .checkAndMarkReplay key => withOutput .answer (checkAndMarkReplay s now key)
  | .sweep => withOutput .swept (sweep s now)

/-- The store as a machine. -/
def store : Machine MemStore Event Output where
  step s e := callStore H s e.now e.op

/-- The state after a run from the empty store. -/
def runStore (es : List Event) : MemStore :=
  (store H).run newMemStore es

/-- The clock of a run never goes back. -/
def ClockMonotone (es : List Event) : Prop :=
  es.Pairwise fun a b => a.now ≤ b.now

/-- A reading whose deadlines up to `ttlSeconds` are in the range of `int64`. -/
def ClockFits (ttlSeconds now : ℤ) : Prop :=
  -2 ^ 63 ≤ now ∧ now + ttlSeconds * 1000 < 2 ^ 63

instance (ttlSeconds now : ℤ) : Decidable (ClockFits ttlSeconds now) :=
  inferInstanceAs (Decidable (_ ∧ _))

theorem ClockFits.deadline_eq {ttlSeconds now : ℤ} (h : ClockFits ttlSeconds now) {ttl : ℤ}
    (hpos : 0 ≤ ttl) (hle : ttl ≤ ttlSeconds) : deadline now ttl = now + ttl * 1000 := by
  obtain ⟨hlo, hhi⟩ := h
  exact deadline_of_fits (by omega) (by omega)

@[simp] theorem withOutput_fst {α : Type} (f : α → Output) (r : MemStore × α) :
    (withOutput f r).1 = r.1 := rfl

@[simp] theorem withOutput_snd {α : Type} (f : α → Output) (r : MemStore × α) :
    (withOutput f r).2 = f r.2 := rfl

theorem store_step (s : MemStore) (e : Event) : (store H).step s e = callStore H s e.now e.op :=
  rfl

end FileRelay
