import FileRelay.Transfers
import FileRelay.Upload

/-!
# Resume views on the wire

A resume view lists the missing chunks of a transfer as a bitmap, up to 256 chunks, or as
ranges. `length_missingRanges` counts the ranges : one for each gap, up to 1024. The shard
sends the view in a `ChunkAck` after a put and in a `ResumeResponse`, and both decoders
accept at most 8192 bytes, which 1020 ranges already exceed.

`resume_view_readable_iff` draws the line : the clients can read the views of a transfer
exactly when it has at most 256 chunks or at most 1019 gaps.
-/

namespace FileRelay

open NanoPack (Codec layout uleb128)

/-! ## Gaps -/

/-- A gap starts at `i` : the chunk is missing and the one before it is there or is no chunk. -/
def gapStart (present : List Bool) (i : ℕ) : Bool :=
  !present.getD i false && (i == 0 || present.getD (i - 1) false)

/-- The number of gaps among the first `n` chunks. -/
def gapCount (present : List Bool) (n : ℕ) : ℕ :=
  (List.range n).countP (gapStart present)

/-- The pairs of a scan, the open gap included. -/
def GapScan.pairs (g : GapScan) : ℕ :=
  g.ranges.length + if g.inGap then 1 else 0

/-- The scan has come to `i` : it is in a gap exactly when the chunk before `i` is missing. -/
structure GapScan.At (present : List Bool) (i : ℕ) (g : GapScan) : Prop where
  inGap_eq : g.inGap = (decide (0 < i) && !present.getD (i - 1) false)
  length_lt : g.ranges.length < maxMissingRanges

theorem GapScan.At.gapStart_eq {present : List Bool} {i : ℕ} {g : GapScan}
    (hg : g.At present i) : gapStart present i = (!present.getD i false && !g.inGap) := by
  rw [hg.inGap_eq, gapStart]
  cases i <;> simp

theorem GapScan.At.succ {present : List Bool} {i : ℕ} {g : GapScan}
    (hgap : g.inGap = !present.getD i false) (hlt : g.ranges.length < maxMissingRanges) :
    g.At present (i + 1) :=
  ⟨by simpa using hgap, hlt⟩

/-- From index `i` on, the scan adds a pair for each gap that starts there, up to the limit. -/
theorem pairs_gapLoop (present : List Bool) : ∀ (n i : ℕ) (g : GapScan), g.At present i →
    (gapLoop present n i g).pairs =
      min maxMissingRanges (g.pairs + (List.range' i n).countP (gapStart present))
  | 0, i, g, hg => by
    have hle : g.pairs ≤ maxMissingRanges := by
      have := hg.length_lt
      unfold GapScan.pairs
      split_ifs <;> omega
    rw [gapLoop, List.range'_zero, List.countP_nil, Nat.add_zero, Nat.min_eq_right hle]
  | n + 1, i, g, hg => by
    have ih := pairs_gapLoop present n (i + 1)
    have hlt := hg.length_lt
    rw [gapLoop, List.range'_succ, List.countP_cons, hg.gapStart_eq]
    cases hp : present.getD i false <;> cases hin : g.inGap <;>
      simp only [Bool.not_false, Bool.not_true, Bool.and_true, Bool.and_false, if_true, if_false,
        Bool.false_eq_true]
    -- missing, and the gap opens here
    · refine (ih _ ?_).trans (congrArg _ ?_)
      · exact .succ (by rw [hp]; rfl) hlt
      · simp only [GapScan.pairs, hin, if_true, Bool.false_eq_true, if_false]
        omega
    -- missing, inside a gap
    · refine (ih _ ?_).trans (congrArg _ ?_)
      · exact .succ (by rw [hp]; rfl) hlt
      · simp only [GapScan.pairs, hin, if_true]
        rfl
    -- present, outside a gap
    · exact ih _ (.succ (by rw [hp]; exact hin) hlt)
    -- present, and the gap is closed
    · have hpairs : g.pairs = g.ranges.length + 1 := by
        rw [GapScan.pairs, hin, if_pos rfl]
      have hclosed : GapScan.pairs ⟨g.ranges ++ [(g.start, g.run)], g.start, g.run, false⟩ =
          g.ranges.length + 1 := by
        simp [GapScan.pairs]
      rw [List.length_append, List.length_singleton, hpairs]
      split_ifs with hfull
      · rw [hclosed]
        omega
      · refine (ih _ (.succ (by rw [hp]; rfl) (by simpa using hfull))).trans (congrArg _ ?_)
        rw [hclosed]
        rfl

/-- There is one range for each gap, up to the limit. -/
theorem length_missingRanges (present : List Bool) (n : ℕ) :
    (missingRanges present n).length = min maxMissingRanges (gapCount present n) := by
  have hscan := pairs_gapLoop present n 0 ⟨[], 0, 0, false⟩ ⟨rfl, by decide⟩
  have hpairs : (missingRanges present n).length =
      (gapLoop present n 0 ⟨[], 0, 0, false⟩).pairs := by
    unfold missingRanges GapScan.pairs
    dsimp only
    split_ifs
    · exact List.length_append
    · rfl
  rw [hpairs, hscan, gapCount, List.range_eq_range']
  simp [GapScan.pairs]

theorem length_encodeRanges : ∀ ranges : List (ℕ × ℕ),
    (encodeRanges ranges).length = 8 * ranges.length
  | [] => rfl
  | r :: rs => by
    have ih := length_encodeRanges rs
    unfold encodeRanges at ih ⊢
    rw [List.flatMap_cons, List.length_append, ih, List.length_append, length_putU32,
      length_putU32, List.length_cons]
    omega

theorem length_bitmapLoop (present : List Bool) : ∀ (n i : ℕ) (bm : Bytes),
    (bitmapLoop present n i bm).length = bm.length
  | 0, _, _ => rfl
  | n + 1, i, bm => by
    rw [bitmapLoop, length_bitmapLoop present n]
    split_ifs
    · exact List.length_modify ..
    · rfl

/-- The lengths a resume view has on the wire. -/
theorem length_resumeView (t : TransferData) :
    (t.resumeView.bitmap.length ≤ 32 ∧ t.resumeView.missingRanges.length = 0 ∧
      t.chunkCount ≤ 256) ∨
    (t.resumeView.bitmap.length = 0 ∧ t.resumeView.missingRanges.length =
      8 * min maxMissingRanges (gapCount t.present t.chunkCount) ∧ ¬t.chunkCount ≤ 256) := by
  unfold TransferData.resumeView
  split_ifs with h
  · refine Or.inl ⟨?_, rfl, h⟩
    rw [length_bitmapLoop, List.length_replicate]
    omega
  · refine Or.inr ⟨rfl, ?_, h⟩
    rw [length_encodeRanges, length_missingRanges]

/-! ## The bodies the shard sends -/

/-- `ResumeBitmap` and `ResumeRanges`. -/
def ResumeEncoding.code : ResumeEncoding → UInt8
  | .bitmap => 0
  | .ranges => 1

/-- The record `handlePut` marshals. -/
def chunkAckOf (tid : ID) (rv : ResumeView) : ChunkAck where
  transferID := tid.toList
  highestContiguous := UInt32.ofNat rv.highestContiguous
  missingRanges := rv.missingRanges
  bitmap := rv.bitmap
  encoding := rv.encoding.code

/-- The record `handleResume` marshals. -/
def resumeResponseOf (tid : ID) (rv : ResumeView) : ResumeResponse where
  transferID := tid.toList
  chunkCount := UInt32.ofNat rv.chunkCount
  highestContiguous := UInt32.ofNat rv.highestContiguous
  encoding := rv.encoding.code
  bitmap := rv.bitmap
  missingRanges := rv.missingRanges

/-- The `ChunkAck` for a view is encoded, and decodes to the view. -/
def AckReadable (np : Codec) (tid : ID) (rv : ResumeView) : Prop :=
  ∃ body a, marshalChunkAck np (chunkAckOf tid rv) = .ok body ∧
    unmarshalChunkAck np body = .ok a ∧ a.transferID = tid.toList ∧
    a.highestContiguous.toNat = rv.highestContiguous ∧ a.encoding = rv.encoding.code ∧
    a.bitmap = rv.bitmap ∧ a.missingRanges = rv.missingRanges

/-- The `ResumeResponse` for a view is encoded, and decodes to the view. -/
def ResumeReadable (np : Codec) (tid : ID) (rv : ResumeView) : Prop :=
  ∃ body r, marshalResumeResponse np (resumeResponseOf tid rv) = .ok body ∧
    unmarshalResumeResponse np body = .ok r ∧ r.transferID = tid.toList ∧
    r.chunkCount.toNat = rv.chunkCount ∧ r.highestContiguous.toNat = rv.highestContiguous ∧
    r.encoding = rv.encoding.code ∧ r.bitmap = rv.bitmap ∧ r.missingRanges = rv.missingRanges

/-- A view some call on the transfer returns. -/
def Served (H : Bytes → Digest) (s : MemStore) (now : ℤ) (tid : ID) (rv : ResumeView)
    (tv : TransferView) : Prop :=
  (progress s now tid).2 = .ok (rv, tv) ∨
    (∃ mid secret, (resume H s now tid mid secret).2 = .ok (rv, tv)) ∨
    ∃ ticket, (resumeByTicket H s now tid ticket).2 = .ok (rv, tv)

variable {H : Bytes → Digest}

/-- The view of a live transfer is the one `buildResumeViewLocked` builds. -/
theorem served_eq {s : MemStore} {now : ℤ} {tid : ID} {t : TransferData} {rv : ResumeView}
    {tv : TransferView} (h : s.transfers.lookup tid = some t) (hs : Served H s now tid rv tv) :
    rv = t.resumeView := by
  rcases hs with hs | ⟨mid, secret, hs⟩ | ⟨ticket, hs⟩
  · obtain ⟨t', ht', -, hr⟩ := onTransfer_eq_ok hs
    rw [h] at ht'
    cases ht'
    cases hr
    rfl
  · obtain ⟨t', ht', -, hr⟩ := onTransfer_eq_ok hs
    rw [h] at ht'
    cases ht'
    split at hr
    · cases hr
    · cases hr
      rfl
  · obtain ⟨t', ht', -, hr⟩ := onTransfer_eq_ok hs
    rw [h] at ht'
    cases ht'
    split at hr
    · cases hr
    · cases hr
      rfl

theorem served_progress {s : MemStore} {now : ℤ} {tid : ID} {t : TransferData}
    (h : s.transfers.lookup tid = some t) (hl : t.state ≠ .complete → now < t.expiresAt) :
    Served H s now tid t.resumeView (t.view tid) := by
  refine Or.inl ?_
  unfold progress
  rw [onTransfer_live _ h hl]
  rfl

/-! ## Which views are readable -/

/-- A body of `base` bytes around a view fits 8192 bytes up to 1019 gaps. -/
theorem wire_length_iff (t : TransferData) (base : ℕ) (hmin : 30 ≤ base) (hmax : base ≤ 37) :
    base + (uleb128 t.resumeView.missingRanges.length).length +
        t.resumeView.missingRanges.length + (uleb128 t.resumeView.bitmap.length).length +
        t.resumeView.bitmap.length ≤ 8192 ↔
      t.chunkCount ≤ 256 ∨ gapCount t.present t.chunkCount ≤ 1019 := by
  rcases length_resumeView t with ⟨hb, hr, hc⟩ | ⟨hb, hr, hc⟩
  · rw [NanoPack.length_uleb128_of_lt (show t.resumeView.bitmap.length < 128 by omega),
      NanoPack.length_uleb128_of_lt (show t.resumeView.missingRanges.length < 128 by omega)]
    simp only [hc, true_or, iff_true]
    omega
  · rw [NanoPack.length_uleb128_of_lt (show t.resumeView.bitmap.length < 128 by omega)]
    simp only [hc, false_or]
    unfold maxMissingRanges at hr
    by_cases hsmall : t.resumeView.missingRanges.length < 128
    · rw [NanoPack.length_uleb128_of_lt hsmall]
      omega
    · rw [NanoPack.length_uleb128_two (not_lt.mp hsmall) (by omega)]
      omega

theorem ranges_wire (t : TransferData) : t.resumeView.missingRanges.length % 8 = 0 ∧
    t.resumeView.missingRanges.length / 8 ≤ maxMissingRanges := by
  rcases length_resumeView t with ⟨-, hr, -⟩ | ⟨-, hr, -⟩ <;> rw [hr] <;> omega

theorem resumeView_counts (t : TransferData) :
    t.resumeView.chunkCount = t.chunkCount ∧ t.resumeView.highestContiguous = t.highest := by
  unfold TransferData.resumeView
  split_ifs <;> exact ⟨rfl, rfl⟩

theorem WellFormed.highest_le {t : TransferData} (wf : WellFormed H t) :
    t.highest ≤ maxChunksPerTransfer :=
  Nat.le_trans wf.highest_eq.1 wf.chunkCount_le

/-- Counts within the limits survive the conversion to `uint32`. -/
theorem toNat_ofNat_of_le {n : ℕ} (h : n ≤ maxChunksPerTransfer) : (UInt32.ofNat n).toNat = n := by
  unfold maxChunksPerTransfer at h
  rw [UInt32.toNat_ofNat']
  omega

theorem ackReadable_iff {np : Codec} (hnp : np.Lawful) (tid : ID) {t : TransferData}
    (wf : WellFormed H t) : AckReadable np tid t.resumeView ↔
      t.chunkCount ≤ 256 ∨ gapCount t.present t.chunkCount ≤ 1019 := by
  obtain ⟨hmod, hdiv⟩ := ranges_wire t
  have hid : (chunkAckOf tid t.resumeView).transferID.length = 16 := tid.toList_length
  have hlen : (layout (chunkAckOf tid t.resumeView).fields).length ≤ 8192 ↔
      t.chunkCount ≤ 256 ∨ gapCount t.present t.chunkCount ≤ 1019 := by
    rw [length_chunkAck, hid, NanoPack.length_uleb128_of_lt (show 16 < 128 by decide)]
    exact wire_length_iff t 30 (by decide) (by decide)
  rw [← hlen]
  unfold AckReadable
  rw [marshalChunkAck_eq hnp hid hmod hdiv]
  constructor
  · rintro ⟨body, a, hbody, ha, -⟩
    cases hbody
    rw [unmarshalChunkAck_eq hnp hid hmod] at ha
    exact (checkBodyLen_map_eq_ok.mp ha).1
  · intro hfit
    refine ⟨_, chunkAckOf tid t.resumeView, rfl, ?_, rfl, ?_, rfl, rfl, rfl⟩
    · rw [unmarshalChunkAck_eq hnp hid hmod]
      exact checkBodyLen_map_eq_ok.mpr ⟨hfit, rfl⟩
    · rw [(resumeView_counts t).2, ← toNat_ofNat_of_le wf.highest_le, ← (resumeView_counts t).2]
      rfl

theorem resumeReadable_iff {np : Codec} (hnp : np.Lawful) (tid : ID) {t : TransferData}
    (wf : WellFormed H t) : ResumeReadable np tid t.resumeView ↔
      t.chunkCount ≤ 256 ∨ gapCount t.present t.chunkCount ≤ 1019 := by
  have hid : (resumeResponseOf tid t.resumeView).transferID.length = 16 := tid.toList_length
  have hcount : (resumeResponseOf tid t.resumeView).chunkCount.toNat = t.chunkCount := by
    change (UInt32.ofNat t.resumeView.chunkCount).toNat = _
    rw [(resumeView_counts t).1, toNat_ofNat_of_le wf.chunkCount_le]
  have hhigh : (resumeResponseOf tid t.resumeView).highestContiguous.toNat = t.highest := by
    change (UInt32.ofNat t.resumeView.highestContiguous).toNat = _
    rw [(resumeView_counts t).2, toNat_ofNat_of_le wf.highest_le]
  have hpos : (resumeResponseOf tid t.resumeView).chunkCount ≠ 0 := by
    intro h0
    rw [h0] at hcount
    have := wf.fits.count_pos
    rw [← hcount] at this
    exact absurd this (by decide)
  have hlen : (layout (resumeResponseOf tid t.resumeView).fields).length ≤ 8192 ↔
      t.chunkCount ≤ 256 ∨ gapCount t.present t.chunkCount ≤ 1019 := by
    rw [length_resumeResponse, hid, NanoPack.length_uleb128_of_lt (show 16 < 128 by decide)]
    exact wire_length_iff t 36 (by decide) (by decide)
  rw [← hlen]
  unfold ResumeReadable
  rw [marshalResumeResponse_eq hnp hid hpos (hcount ▸ wf.chunkCount_le)]
  constructor
  · rintro ⟨body, r, hbody, hr, -⟩
    cases hbody
    rw [unmarshalResumeResponse_eq hnp hid] at hr
    exact (checkBodyLen_map_eq_ok.mp hr).1
  · intro hfit
    refine ⟨_, resumeResponseOf tid t.resumeView, rfl, ?_, rfl, ?_, ?_, rfl, rfl, rfl⟩
    · rw [unmarshalResumeResponse_eq hnp hid]
      exact checkBodyLen_map_eq_ok.mpr ⟨hfit, rfl⟩
    · rw [hcount, (resumeView_counts t).1]
    · rw [hhigh, (resumeView_counts t).2]

/-- In every state the store reaches, the clients can read the resume views the shard sends
for a live transfer exactly when it has at most 256 chunks or at most 1019 gaps. -/
theorem resume_view_readable_iff (np : Codec) (hnp : np.Lawful) (H : Bytes → Digest)
    (es : List Event) (now : ℤ) (tid : ID) (t : TransferData)
    (h : (runStore H es).transfers.lookup tid = some t)
    (hl : t.state ≠ .complete → now < t.expiresAt) :
    (∀ rv tv, Served H (runStore H es) now tid rv tv →
        AckReadable np tid rv ∧ ResumeReadable np tid rv) ↔
      t.chunkCount ≤ 256 ∨ gapCount t.present t.chunkCount ≤ 1019 := by
  have wf : WellFormed H t := storeInv_run storeInv_newMemStore es tid t h
  constructor
  · intro hread
    exact (ackReadable_iff hnp tid wf).mp (hread _ _ (served_progress h hl)).1
  · intro hsmall rv tv hs
    rw [served_eq h hs]
    exact ⟨(ackReadable_iff hnp tid wf).mpr hsmall, (resumeReadable_iff hnp tid wf).mpr hsmall⟩

theorem resume_view_readable_sampleUpload :
    ∃ t, (runStore sampleHash sampleUpload).transfers.lookup sampleID = some t ∧
      t.chunkCount ≤ 256 ∧
      ((∀ rv tv, Served sampleHash (runStore sampleHash sampleUpload) 2 sampleID rv tv →
          AckReadable NanoPack.reference sampleID rv ∧
            ResumeReadable NanoPack.reference sampleID rv) ↔
        t.chunkCount ≤ 256 ∨ gapCount t.present t.chunkCount ≤ 1019) := by
  have hrun : ((runStore sampleHash sampleUpload).transfers.lookup sampleID).map
      (fun t => (t.chunkCount, t.expiresAt)) = some (2, 86400001) := by decide
  obtain ⟨t, ht, hfields⟩ := Option.map_eq_some_iff.mp hrun
  obtain ⟨hcount, hexp⟩ := Prod.mk.inj hfields
  exact ⟨t, ht, by omega, resume_view_readable_iff NanoPack.reference NanoPack.reference_lawful
    sampleHash sampleUpload 2 sampleID t ht fun _ => by omega⟩

/-! ### A transfer with 1020 gaps -/

/-- 2040 chunks of one byte. -/
def gapsCreate : TransferCreate :=
  { sampleCreate with
    totalSize := 2040
    chunkSize := 1
    chunkCount := 2040 }

/-- The chunks with odd indexes. -/
def oddChunk (j : ℕ) : ChunkUpload where
  transferID := sampleID.toList
  index := UInt32.ofNat (2 * j + 1)
  payload := [0]
  chunkHash := []
  offset := UInt64.ofNat (2 * j + 1)

def oddChunks : List ChunkUpload :=
  (List.range 1020).map oddChunk

/-- Every other chunk is uploaded. -/
def gapsRun : List Event :=
  ⟨0, .createTransfer gapsCreate sampleID (some sampleTicket)⟩ :: putAll 0 oddChunks

theorem oddChunk_index {j : ℕ} (hj : j < 1020) : (oddChunk j).index.toNat = 2 * j + 1 := by
  simp only [oddChunk, UInt32.toNat_ofNat']
  omega

theorem oddChunk_wellShaped {j : ℕ} (hj : j < 1020) :
    WellShaped sampleHash (createdTransfer sampleHash gapsCreate sampleTicket 0) (oddChunk j) := by
  have hcount : (createdTransfer sampleHash gapsCreate sampleTicket 0).chunkCount = 2040 := rfl
  have hsize : (createdTransfer sampleHash gapsCreate sampleTicket 0).chunkSize = 1 := rfl
  have htotal : (createdTransfer sampleHash gapsCreate sampleTicket 0).totalSize = 2040 := rfl
  have hlen : (oddChunk j).payload.length = 1 := rfl
  refine ⟨validateChunkUpload_eq_ok.mpr ⟨rfl, nofun, ?_, fun h => absurd rfl h, ?_⟩, ?_, ?_,
    fun _ => rfl, ?_, fun h => by cases h⟩
  · rw [hlen]
    decide
  · rw [oddChunk_index hj]
    unfold maxChunksPerTransfer
    omega
  · rw [oddChunk_index hj, hcount]
    omega
  · rw [oddChunk_index hj, hsize]
    simp only [oddChunk, UInt64.toNat_ofNat']
    omega
  · rw [oddChunk_index hj, hcount, hlen, hsize, htotal]
    omega

theorem oddChunks_index :
    (oddChunks.map fun c => c.index.toNat) = (List.range 1020).map fun j => 2 * j + 1 := by
  unfold oddChunks
  rw [List.map_map]
  exact List.map_congr_left fun j hj => oddChunk_index (List.mem_range.mp hj)

/-- With every other chunk there, each missing chunk is a gap. -/
theorem gapCount_alternating {present : List Bool}
    (h : ∀ i < 2040, present.getD i false = decide (i % 2 = 1)) : gapCount present 2040 = 1020 := by
  have hstart : ∀ i ∈ List.range 2040, gapStart present i = true ↔ decide (i % 2 = 0) = true := by
    intro i hi
    have hi' := List.mem_range.mp hi
    unfold gapStart
    rw [h i hi', h (i - 1) (by omega)]
    simp only [Bool.and_eq_true, Bool.not_eq_true', decide_eq_false_iff_not, Bool.or_eq_true,
      beq_iff_eq, decide_eq_true_eq]
    omega
  unfold gapCount
  rw [List.countP_congr hstart]
  decide +kernel

theorem gapsRun_stored :
    ∃ t, (runStore sampleHash gapsRun).transfers.lookup sampleID = some t ∧ 0 < t.expiresAt ∧
      t.chunkCount = 2040 ∧ gapCount t.present 2040 = 1020 := by
  have hstart : ((store sampleHash).step newMemStore ⟨0, .createTransfer gapsCreate sampleID
      (some sampleTicket)⟩).1.transfers.lookup sampleID =
        some (createdTransfer sampleHash gapsCreate sampleTicket 0) := rfl
  have hshape : ∀ c ∈ oddChunks, WellShaped sampleHash
      (createdTransfer sampleHash gapsCreate sampleTicket 0) c ∧
        copyArr 16 c.transferID = sampleID := by
    intro c hc
    obtain ⟨j, hj, rfl⟩ := List.mem_map.mp hc
    exact ⟨oddChunk_wellShaped (List.mem_range.mp hj), rfl⟩
  have hnodup : (oddChunks.map fun c => c.index.toNat).Nodup := by
    rw [oddChunks_index]
    exact List.nodup_range.map fun i j hij => by omega
  obtain ⟨t, htr, hup, -⟩ := uploads_stored 0 oddChunks hstart
    ⟨rfl, by decide, by decide, by decide⟩ ⟨hshape, hnodup, fun c _ => rfl⟩ nofun
  have ht : (runStore sampleHash gapsRun).transfers.lookup sampleID = some t := by
    unfold gapsRun runStore
    rw [Machine.run_cons, htr, Finmap.lookup_insert]
  have wf : WellFormed sampleHash t := storeInv_run storeInv_newMemStore gapsRun sampleID t ht
  refine ⟨t, ht, hup.isOpen.live, hup.chunkCount_eq, gapCount_alternating fun i hi => ?_⟩
  have hodd : t.present.getD i false = true ↔ i % 2 = 1 := by
    rw [getD_eq_true_iff, ← wf.mem_chunks, hup.mem_chunks, oddChunks_index]
    constructor
    · rintro (hm | hm)
      · exact absurd hm Finmap.notMem_empty
      · obtain ⟨j, -, rfl⟩ := List.mem_map.mp hm
        omega
    · intro hi2
      exact Or.inr (List.mem_map.mpr ⟨i / 2, List.mem_range.mpr (by omega), by omega⟩)
  rw [Bool.eq_iff_iff, hodd, decide_eq_true_eq]

/-- The bodies take 8193 and 8199 bytes. -/
theorem many_gaps_unreadable :
    ∃ rv tv, (progress (runStore sampleHash gapsRun) 0 sampleID).2 = .ok (rv, tv) ∧
      ¬AckReadable NanoPack.reference sampleID rv ∧
      ¬ResumeReadable NanoPack.reference sampleID rv := by
  obtain ⟨t, ht, hexp, hcount, hgaps⟩ := gapsRun_stored
  have wf : WellFormed sampleHash t := storeInv_run storeInv_newMemStore gapsRun sampleID t ht
  have hmany : ¬(t.chunkCount ≤ 256 ∨ gapCount t.present t.chunkCount ≤ 1019) := by
    rw [hcount, hgaps]
    omega
  refine ⟨t.resumeView, t.view sampleID, ?_, ?_, ?_⟩
  · unfold progress
    rw [onTransfer_live _ ht fun _ => hexp]
    rfl
  · rw [ackReadable_iff NanoPack.reference_lawful sampleID wf]
    exact hmany
  · rw [resumeReadable_iff NanoPack.reference_lawful sampleID wf]
    exact hmany

end FileRelay
