import FileRelay.NanoPack
import FileRelay.Schemas

/-!
# Wire bodies of the resume views

Schemas 66 and 70 of `protocol/transfers.go`, the two bodies that carry a resume view. Each
is a NanoPack field list. A decoder bounds the body, decodes the fields, sets them one by
one and checks the result.

`unmarshal_layout` says what a decoder makes of a body its encoder wrote : the record back,
or an error if the body is longer than the decoder's limit. `length_chunkAck` and
`length_resumeResponse` are the lengths of the two bodies.
-/

namespace FileRelay

open NanoPack (Field Codec layout)

/-- What the encoders and decoders return besides a value. -/
inductive WireError
  | protocol (e : ProtocolError)
  | nanopack (e : NanoPack.Error)
deriving DecidableEq, Repr

abbrev Wire := Except WireError

/-- `if bad { return nil, &ProtocolError{code, detail} }`. -/
def rejectIf (bad : Prop) [Decidable bad] (code : ErrCode) (detail : String) : Wire Unit :=
  if bad then .error (.protocol ⟨code, detail, 0⟩) else .ok ()

/-- `CheckBodyLen`. -/
def checkBodyLen (n limit : ℕ) : Wire Unit :=
  rejectIf (limit < n) .payloadTooLarge
    ("declared len " ++ toString n ++ " exceeds " ++ toString limit)

/-- `enc.Bytes()`. -/
def encodeFields (np : Codec) (fs : List Field) : Wire Bytes :=
  (np.bytes fs).mapError .nanopack

/-- `nanopack.DecodeID`. -/
def decodeFields (np : Codec) (body : Bytes) : Wire (List Field) :=
  (np.decodeID body).mapError .nanopack

/-- `getU32` of a field. -/
def fieldU32 (data : Bytes) : Wire UInt32 :=
  match getU32 data with
  | some v => .ok v
  | none => .error (.nanopack .shortBody)

/-- `getU64` of a field. -/
def fieldU64 (data : Bytes) : Wire UInt64 :=
  match getU64 data with
  | some v => .ok v
  | none => .error (.nanopack .shortBody)

/-- A field of one byte. -/
def fieldU8 : Bytes → Wire UInt8
  | [b] => .ok b
  | _ => .error (.nanopack .shortBody)

/-- A decoder : bound the body, decode it, set the fields one by one, check the result. -/
def unmarshal {α : Type} (np : Codec) (limit : ℕ) (set : α → Field → Wire α) (zero : α)
    (check : α → Wire Unit) (body : Bytes) : Wire α := do
  checkBodyLen body.length limit
  let fields ← decodeFields np body
  let out ← fields.foldlM set zero
  check out
  return out

theorem rejectIf_neg {bad : Prop} [Decidable bad] (h : ¬bad) (code : ErrCode) (detail : String) :
    rejectIf bad code detail = .ok () :=
  if_neg h

theorem ok_bind {α β : Type} (a : α) (f : α → Wire β) : (Except.ok a >>= f) = f a := rfl

@[simp] theorem fieldU32_putU32 (v : UInt32) : fieldU32 (putU32 v) = .ok v := by
  unfold fieldU32
  rw [getU32_putU32]

theorem encodeFields_eq {np : Codec} (hnp : np.Lawful) {fs : List Field} (h : fs.length ≤ 255) :
    encodeFields np fs = .ok (layout fs) := by
  unfold encodeFields
  rw [hnp.bytes_eq fs h]
  rfl

theorem decodeFields_eq {np : Codec} (hnp : np.Lawful) {fs : List Field} (h : fs.length ≤ 255) :
    decodeFields np (layout fs) = .ok fs := by
  unfold decodeFields
  rw [hnp.decodeID_layout fs h]
  rfl

/-- A decoder reads what was written for it, up to its limit. -/
theorem unmarshal_layout {α : Type} {np : Codec} (hnp : np.Lawful) {limit : ℕ}
    {set : α → Field → Wire α} {zero a : α} {check : α → Wire Unit} {fs : List Field}
    (hfs : fs.length ≤ 255) (hset : fs.foldlM set zero = .ok a) (hcheck : check a = .ok ()) :
    unmarshal np limit set zero check (layout fs) =
      (checkBodyLen (layout fs).length limit).map fun _ => a := by
  unfold unmarshal
  rcases checkBodyLen (layout fs).length limit with e | ⟨⟩
  · rfl
  · rw [ok_bind, decodeFields_eq hnp hfs, ok_bind, hset, ok_bind, hcheck]
    rfl

/-- The bound is met by a body no longer than the limit and by no other. -/
theorem checkBodyLen_map_eq_ok {α : Type} {n limit : ℕ} {a b : α} :
    (checkBodyLen n limit).map (fun _ => a) = .ok b ↔ n ≤ limit ∧ a = b := by
  unfold checkBodyLen rejectIf
  split_ifs with h
  · exact ⟨nofun, fun hb => absurd hb.1 (not_le.mpr h)⟩
  · refine ⟨fun he => ⟨not_lt.mp h, by cases he; rfl⟩, fun hb => by rw [← hb.2]; rfl⟩

/-! ## Schema 66 -/

/-- `ChunkAck`. -/
structure ChunkAck where
  transferID : Bytes
  highestContiguous : UInt32
  missingRanges : Bytes
  bitmap : Bytes
  encoding : UInt8
deriving DecidableEq, Repr

def ChunkAck.fields (a : ChunkAck) : List Field :=
  [⟨1, a.transferID⟩, ⟨2, putU32 a.highestContiguous⟩, ⟨3, a.missingRanges⟩, ⟨4, a.bitmap⟩,
    ⟨5, [a.encoding]⟩]

/-- `MarshalChunkAck`. -/
def marshalChunkAck (np : Codec) (a : ChunkAck) : Wire Bytes := do
  rejectIf (a.transferID.length ≠ 16) .invalidRequest "transfer_id must be 16 bytes"
  rejectIf (a.missingRanges.length % 8 ≠ 0) .invalidRequest "missing_ranges must be n*8 bytes"
  rejectIf (maxMissingRanges < a.missingRanges.length / 8) .invalidRequest
    "too many missing ranges"
  encodeFields np a.fields

/-- The `switch` of `UnmarshalChunkAck`. -/
def ChunkAck.set (out : ChunkAck) (f : Field) : Wire ChunkAck :=
  if f.id = 1 then .ok { out with transferID := f.data }
  else if f.id = 2 then (fieldU32 f.data).map fun v => { out with highestContiguous := v }
  else if f.id = 3 then .ok { out with missingRanges := f.data }
  else if f.id = 4 then .ok { out with bitmap := f.data }
  else if f.id = 5 then (fieldU8 f.data).map fun v => { out with encoding := v }
  else .ok out

/-- The checks at the end of `UnmarshalChunkAck`. -/
def ChunkAck.check (out : ChunkAck) : Wire Unit := do
  rejectIf (out.transferID.length ≠ 16) .invalidRequest "transfer_id must be 16 bytes"
  rejectIf (out.missingRanges.length % 8 ≠ 0) .invalidRequest "missing_ranges corrupt"

/-- `UnmarshalChunkAck`. -/
def unmarshalChunkAck (np : Codec) (body : Bytes) : Wire ChunkAck :=
  unmarshal np 8192 ChunkAck.set ⟨[], 0, [], [], 0⟩ ChunkAck.check body

theorem marshalChunkAck_eq {np : Codec} (hnp : np.Lawful) {a : ChunkAck}
    (hid : a.transferID.length = 16) (hr : a.missingRanges.length % 8 = 0)
    (hmax : a.missingRanges.length / 8 ≤ maxMissingRanges) :
    marshalChunkAck np a = .ok (layout a.fields) := by
  have hfs : a.fields.length ≤ 255 := by simp [ChunkAck.fields]
  unfold marshalChunkAck
  rw [rejectIf_neg (not_not.mpr hid), ok_bind, rejectIf_neg (not_not.mpr hr), ok_bind,
    rejectIf_neg (not_lt.mpr hmax), ok_bind, encodeFields_eq hnp hfs]

theorem unmarshalChunkAck_eq {np : Codec} (hnp : np.Lawful) {a : ChunkAck}
    (hid : a.transferID.length = 16) (hr : a.missingRanges.length % 8 = 0) :
    unmarshalChunkAck np (layout a.fields) =
      (checkBodyLen (layout a.fields).length 8192).map fun _ => a := by
  refine unmarshal_layout hnp (by simp [ChunkAck.fields]) ?_ ?_
  · have hu := fieldU32_putU32 a.highestContiguous
    simp only [ChunkAck.fields, List.foldlM_cons, List.foldlM_nil, ChunkAck.set, hu]
    rfl
  · unfold ChunkAck.check
    rw [rejectIf_neg (not_not.mpr hid), ok_bind, rejectIf_neg (not_not.mpr hr)]

theorem length_chunkAck (a : ChunkAck) : (layout a.fields).length =
    13 + (NanoPack.uleb128 a.transferID.length).length + a.transferID.length +
      (NanoPack.uleb128 a.missingRanges.length).length + a.missingRanges.length +
      (NanoPack.uleb128 a.bitmap.length).length + a.bitmap.length := by
  rw [NanoPack.length_layout]
  simp only [ChunkAck.fields, List.map_cons, List.map_nil, List.sum_cons, List.sum_nil,
    NanoPack.fieldSize, length_putU32, List.length_cons, List.length_nil,
    NanoPack.length_uleb128_of_lt (show 4 < 128 by decide),
    NanoPack.length_uleb128_of_lt (show 0 + 1 < 128 by decide)]
  omega

/-! ## Schema 70 -/

/-- `ResumeResponse`. -/
structure ResumeResponse where
  transferID : Bytes
  chunkCount : UInt32
  highestContiguous : UInt32
  encoding : UInt8
  bitmap : Bytes
  missingRanges : Bytes
deriving DecidableEq, Repr

def ResumeResponse.fields (r : ResumeResponse) : List Field :=
  [⟨1, r.transferID⟩, ⟨2, putU32 r.chunkCount⟩, ⟨3, putU32 r.highestContiguous⟩,
    ⟨4, [r.encoding]⟩, ⟨5, r.bitmap⟩, ⟨6, r.missingRanges⟩]

/-- `MarshalResumeResponse`. -/
def marshalResumeResponse (np : Codec) (r : ResumeResponse) : Wire Bytes := do
  rejectIf (r.transferID.length ≠ 16 ∨ r.chunkCount = 0 ∨
    maxChunksPerTransfer < r.chunkCount.toNat) .invalidRequest "bad resume response"
  encodeFields np r.fields

/-- The `switch` of `UnmarshalResumeResponse`. -/
def ResumeResponse.set (out : ResumeResponse) (f : Field) : Wire ResumeResponse :=
  if f.id = 1 then .ok { out with transferID := f.data }
  else if f.id = 2 then (fieldU32 f.data).map fun v => { out with chunkCount := v }
  else if f.id = 3 then (fieldU32 f.data).map fun v => { out with highestContiguous := v }
  else if f.id = 4 then (fieldU8 f.data).map fun v => { out with encoding := v }
  else if f.id = 5 then .ok { out with bitmap := f.data }
  else if f.id = 6 then .ok { out with missingRanges := f.data }
  else .ok out

/-- The check at the end of `UnmarshalResumeResponse`. -/
def ResumeResponse.check (out : ResumeResponse) : Wire Unit :=
  rejectIf (out.transferID.length ≠ 16) .invalidRequest "bad resume response"

/-- `UnmarshalResumeResponse`. -/
def unmarshalResumeResponse (np : Codec) (body : Bytes) : Wire ResumeResponse :=
  unmarshal np 8192 ResumeResponse.set ⟨[], 0, 0, 0, [], []⟩ ResumeResponse.check body

theorem marshalResumeResponse_eq {np : Codec} (hnp : np.Lawful) {r : ResumeResponse}
    (hid : r.transferID.length = 16) (h0 : r.chunkCount ≠ 0)
    (hmax : r.chunkCount.toNat ≤ maxChunksPerTransfer) :
    marshalResumeResponse np r = .ok (layout r.fields) := by
  have hok : ¬(r.transferID.length ≠ 16 ∨ r.chunkCount = 0 ∨
      maxChunksPerTransfer < r.chunkCount.toNat) := by
    rintro (h | h | h)
    · exact h hid
    · exact h0 h
    · omega
  unfold marshalResumeResponse
  rw [rejectIf_neg hok, ok_bind, encodeFields_eq hnp (by simp [ResumeResponse.fields])]

theorem unmarshalResumeResponse_eq {np : Codec} (hnp : np.Lawful) {r : ResumeResponse}
    (hid : r.transferID.length = 16) :
    unmarshalResumeResponse np (layout r.fields) =
      (checkBodyLen (layout r.fields).length 8192).map fun _ => r := by
  refine unmarshal_layout hnp (by simp [ResumeResponse.fields]) ?_
    (rejectIf_neg (not_not.mpr hid) ..)
  have hc := fieldU32_putU32 r.chunkCount
  have hh := fieldU32_putU32 r.highestContiguous
  simp only [ResumeResponse.fields, List.foldlM_cons, List.foldlM_nil, ResumeResponse.set, hc, hh]
  rfl

theorem length_resumeResponse (r : ResumeResponse) : (layout r.fields).length =
    19 + (NanoPack.uleb128 r.transferID.length).length + r.transferID.length +
      (NanoPack.uleb128 r.missingRanges.length).length + r.missingRanges.length +
      (NanoPack.uleb128 r.bitmap.length).length + r.bitmap.length := by
  rw [NanoPack.length_layout]
  simp only [ResumeResponse.fields, List.map_cons, List.map_nil, List.sum_cons, List.sum_nil,
    NanoPack.fieldSize, length_putU32, List.length_cons, List.length_nil,
    NanoPack.length_uleb128_of_lt (show 4 < 128 by decide),
    NanoPack.length_uleb128_of_lt (show 0 + 1 < 128 by decide)]
  omega

end FileRelay
