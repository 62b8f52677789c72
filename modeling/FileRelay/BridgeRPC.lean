import FileRelay.Transfers

/-!
# The courier bridge's RPC bodies

The decoders and encoders of `bridge/rpc.go` and `bridge/rpc_file.go` that the bindings and
the poll use. The bridge answers a request that fails with an error code and the text of a
Go error : `BridgeError` keeps the error as a value.

`pollFrames_marshalPollResult` says that a poll result gives its frames back.
-/

namespace FileRelay

open NanoPack (Field Codec layout)

/-- The Go errors the bridge reports. -/
inductive BridgeError
  /-- An error of the protocol package or of nanopack. -/
  | wire (e : WireError)
  /-- `fmt.Errorf(text)`. -/
  | text (s : String)
  /-- An error of `net/http` or of `crypto/rand`. -/
  | system (s : String)
  /-- `what: detail`, with the detail the server sent. -/
  | remote (what : String) (detail : Bytes)
  /-- `what http status`. -/
  | http (what : String) (status : ℕ)
deriving DecidableEq, Repr

/-- The codes the bridge puts next to an error. -/
def errNotReady : ℕ := 3
def errTransport : ℕ := 4

/-- The fields of an RPC body set one by one. -/
def decodeRPC {α : Type} (np : Codec) (set : α → Field → Wire α) (zero : α) (body : Bytes) :
    Wire α := do
  let fields ← decodeFields np body
  fields.foldlM set zero

/-! ## Creating a transfer -/

/-- `xferCreate`. -/
structure XferCreate where
  total : UInt64
  chunkSize : UInt32
  chunkCount : UInt32
  manifest : Bytes
  mailboxID : Bytes
  recipientPub : Bytes
  shardURL : Bytes
deriving DecidableEq, Repr

/-- The `switch` of `unmarshalXferCreate`. -/
def XferCreate.set (out : XferCreate) (f : Field) : Wire XferCreate :=
  if f.id = 1 then (fieldU64 f.data).map fun v => { out with total := v }
  else if f.id = 2 then (fieldU32 f.data).map fun v => { out with chunkSize := v }
  else if f.id = 3 then (fieldU32 f.data).map fun v => { out with chunkCount := v }
  else if f.id = 4 then .ok { out with manifest := f.data }
  else if f.id = 5 then .ok { out with mailboxID := f.data }
  else if f.id = 6 then .ok { out with recipientPub := f.data }
  else if f.id = 7 then .ok { out with shardURL := f.data }
  else .ok out

/-- `unmarshalXferCreate`. -/
def unmarshalXferCreate (np : Codec) (body : Bytes) : Except BridgeError XferCreate :=
  match decodeRPC np XferCreate.set ⟨0, 0, 0, [], [], [], []⟩ body with
  | .error e => .error (.wire e)
  | .ok out =>
    if out.total = 0 ∨ out.chunkSize = 0 ∨ out.chunkCount = 0 then
      .error (.text "rpc: bad xfer params")
    else .ok out

/-! ## Polling -/

/-- `pollReq`. -/
structure PollReq where
  limit : UInt8
  mailboxID : Bytes
deriving DecidableEq, Repr

/-- The `switch` of `unmarshalPoll`. -/
def PollReq.set (out : PollReq) (f : Field) : Wire PollReq :=
  if f.id = 1 then (fieldU8 f.data).map fun v => { out with limit := v }
  else if f.id = 2 then .ok { out with mailboxID := f.data }
  else .ok out

/-- `unmarshalPoll`. -/
def unmarshalPoll (np : Codec) (body : Bytes) : Wire PollReq := do
  let out ← decodeRPC np PollReq.set ⟨0, []⟩ body
  return if out.limit = 0 then { out with limit := 32 } else out

/-- The blob of a poll result : each frame after its length. -/
def frameBlob (frames : List Bytes) : Bytes :=
  frames.flatMap fun f => putU32 (UInt32.ofNat f.length) ++ f

/-- `marshalPollResult`. The error of the encoder is dropped. -/
def marshalPollResult (np : Codec) (frames : List Bytes) : Bytes :=
  match np.bytes [⟨1, frameBlob frames⟩, ⟨2, putU32 (UInt32.ofNat frames.length)⟩] with
  | .ok b => b
  | .error _ => []

/-- Cut `n` frames off a blob that holds nothing else. -/
def readFrames : ℕ → Bytes → Option (List Bytes)
  | 0, [] => some []
  | 0, _ :: _ => none
  | n + 1, blob =>
    let len := beNat (blob.take 4)
    if blob.length < 4 + len then none
    else (readFrames n (blob.drop (4 + len))).map fun fs => (blob.drop 4).take len :: fs

/-- The frames a poll result carries. -/
def pollFrames (np : Codec) (body : Bytes) : Option (List Bytes) :=
  match np.decodeID body with
  | .ok [⟨1, blob⟩, ⟨2, count⟩] => (getU32 count).bind fun n => readFrames n.toNat blob
  | _ => none

theorem readFrames_frameBlob : ∀ frames : List Bytes, (∀ f ∈ frames, f.length < 2 ^ 32) →
    readFrames frames.length (frameBlob frames) = some frames
  | [], _ => rfl
  | f :: fs, h => by
    have ih := readFrames_frameBlob fs fun g hg => h g (List.mem_cons_of_mem _ hg)
    have hlen : beNat (putU32 (UInt32.ofNat f.length)) = f.length := by
      have hf := h f List.mem_cons_self
      unfold putU32
      rw [UInt32.toNat_ofNat', Nat.mod_eq_of_lt hf]
      exact beNat_beBytes_of_lt hf
    have hblob : frameBlob (f :: fs) = putU32 (UInt32.ofNat f.length) ++ (f ++ frameBlob fs) := by
      unfold frameBlob
      rw [List.flatMap_cons, List.append_assoc]
    have h4 : (putU32 (UInt32.ofNat f.length)).length = 4 := length_putU32 _
    rw [List.length_cons, readFrames, hblob, List.take_left' h4, hlen]
    have hfit : ¬(putU32 (UInt32.ofNat f.length) ++ (f ++ frameBlob fs)).length < 4 + f.length := by
      rw [List.length_append, List.length_append, h4]
      omega
    rw [if_neg hfit, List.drop_left' h4, List.take_left' rfl, ← List.drop_drop,
      List.drop_left' h4, List.drop_left' rfl, ih]
    rfl

/-- A poll result gives its frames back. -/
theorem pollFrames_marshalPollResult {np : Codec} (hnp : np.Lawful) {frames : List Bytes}
    (hn : frames.length < 2 ^ 32) (h : ∀ f ∈ frames, f.length < 2 ^ 32) :
    pollFrames np (marshalPollResult np frames) = some frames := by
  have hfs : ([⟨1, frameBlob frames⟩, ⟨2, putU32 (UInt32.ofNat frames.length)⟩] :
      List Field).length ≤ 255 := by simp
  unfold marshalPollResult
  rw [hnp.bytes_eq _ hfs]
  unfold pollFrames
  dsimp only
  rw [hnp.decodeID_layout _ hfs]
  change (getU32 (putU32 (UInt32.ofNat frames.length))).bind (fun n => readFrames n.toNat _) = _
  rw [getU32_putU32, Option.bind_some, UInt32.toNat_ofNat', Nat.mod_eq_of_lt hn]
  exact readFrames_frameBlob frames h

end FileRelay
