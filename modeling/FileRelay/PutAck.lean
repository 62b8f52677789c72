import FileRelay.Growth
import FileRelay.Handlers
import FileRelay.Replay
import FileRelay.RoundTrip

/-!
# Stored chunks stay, and acks say so

A chunk the store has accepted is kept with its hash until the transfer is removed, and
the progress of a transfer does not go back : `Extends` over a run, and `accepted_put_stored`
for the moment of the put. A repeated put is accepted when length and digest agree, so the
bytes agree as long as the payloads of the run do not collide.

`handlePut` reads its ack in a second call. In between any other calls may run, and the
chunk is still there unless the transfer is gone (`acksHold_step`). So the resume view in
the ack does not list it : `bitSet_bitmapLoop` for the bitmap, `missingRanges_missing` for
the ranges, cut at their limit or not. `chunks_write_once` puts this together.
-/

namespace FileRelay

/-! ## What an ack reports -/

/-- Bit `i` of a bitmap. -/
def bitSet (bm : Bytes) (i : ℕ) : Bool :=
  (bm.getD (i / 8) 0).toNat.testBit (i % 8)

/-- The loop of `DecodeRanges`, on a blob of whole pairs. -/
def decodePairs : Bytes → List (UInt32 × UInt32)
  | b₀ :: b₁ :: b₂ :: b₃ :: b₄ :: b₅ :: b₆ :: b₇ :: rest =>
    (UInt32.ofNat (beNat [b₀, b₁, b₂, b₃]), UInt32.ofNat (beNat [b₄, b₅, b₆, b₇])) ::
      decodePairs rest
  | _ => []

/-- `DecodeRanges`. -/
def decodeRanges (blob : Bytes) : Result (List (UInt32 × UInt32)) :=
  if blob.length % 8 ≠ 0 then .error ⟨.invalidRequest, "ranges corrupt", 0⟩
  else .ok (decodePairs blob)

/-- The ack lists the chunk as missing : as the first one missing, or in its bitmap, or in one
of its ranges. -/
def ChunkAck.ReportsMissing (a : ChunkAck) (i : ℕ) : Prop :=
  a.highestContiguous.toNat = i ∨
    (a.encoding = ResumeEncoding.bitmap.code ∧ bitSet a.bitmap i = false) ∨
    (a.encoding = ResumeEncoding.ranges.code ∧ ∃ ranges, decodeRanges a.missingRanges = .ok ranges ∧
      ∃ r ∈ ranges, r.1.toNat ≤ i ∧ i < r.1.toNat + r.2.toNat)

theorem ofNat_beNat_putU32 (v : UInt32) : UInt32.ofNat (beNat (putU32 v)) = v := by
  have h := getU32_putU32 v
  unfold getU32 at h
  rw [if_pos (length_putU32 v)] at h
  exact Option.some.inj h

theorem decodePairs_append {a b : Bytes} (rest : Bytes) (ha : a.length = 4) (hb : b.length = 4) :
    decodePairs (a ++ b ++ rest) =
      (UInt32.ofNat (beNat a), UInt32.ofNat (beNat b)) :: decodePairs rest := by
  obtain ⟨a₀, a₁, a₂, a₃, rfl⟩ := List.length_eq_four.mp ha
  obtain ⟨b₀, b₁, b₂, b₃, rfl⟩ := List.length_eq_four.mp hb
  rfl

theorem decodePairs_encodeRanges : ∀ ranges : List (ℕ × ℕ), decodePairs (encodeRanges ranges) =
    ranges.map fun r => (UInt32.ofNat r.1, UInt32.ofNat r.2)
  | [] => rfl
  | r :: rs => by
    have ih := decodePairs_encodeRanges rs
    unfold encodeRanges at ih ⊢
    rw [List.flatMap_cons, decodePairs_append _ (length_putU32 _) (length_putU32 _), ih,
      ofNat_beNat_putU32, ofNat_beNat_putU32, List.map_cons]

theorem decodeRanges_encodeRanges (ranges : List (ℕ × ℕ)) : decodeRanges (encodeRanges ranges) =
    .ok (ranges.map fun r => (UInt32.ofNat r.1, UInt32.ofNat r.2)) := by
  have hlen : ¬(encodeRanges ranges).length % 8 ≠ 0 := by
    rw [length_encodeRanges]
    omega
  unfold decodeRanges
  rw [if_neg hlen, decodePairs_encodeRanges]

/-! ### The bitmap -/

theorem bitSet_setBit {bm : Bytes} {i : ℕ} (j : ℕ) (hi : i / 8 < bm.length) :
    bitSet (setBit bm i) j = (bitSet bm j || decide (i = j)) := by
  have hpow : 2 ^ (i % 8) < 256 := Nat.pow_lt_pow_right (by decide) (Nat.mod_lt i (by decide))
  unfold bitSet setBit
  rw [List.getD_eq_getElem?_getD, List.getD_eq_getElem?_getD, List.getElem?_modify]
  by_cases hb : i / 8 = j / 8
  · have hij : i % 8 = j % 8 ↔ i = j := by omega
    rw [← hb, List.getElem?_eq_getElem hi]
    simp only [Option.map_eq_map, Option.map_some, Option.getD_some, if_true, UInt8.toNat_or,
      UInt8.toNat_ofNat', Nat.testBit_or, Nat.mod_eq_of_lt hpow, Nat.testBit_two_pow, hij]
  · have hij : i ≠ j := fun h => hb (congrArg (· / 8) h)
    simp [hb, hij]

/-- The loop sets the bits of the chunks that are there, and no others. -/
theorem bitSet_bitmapLoop (present : List Bool) {j : ℕ} : ∀ (n i : ℕ) (bm : Bytes),
    i + n ≤ 8 * bm.length → (bitSet (bitmapLoop present n i bm) j = true ↔
      bitSet bm j = true ∨ (i ≤ j ∧ j < i + n ∧ present.getD j false = true))
  | 0, i, bm, _ => by
    have hnone : ¬(i ≤ j ∧ j < i + 0 ∧ present.getD j false = true) := by omega
    rw [bitmapLoop, or_iff_left hnone]
  | n + 1, i, bm, hn => by
    have hi : i / 8 < bm.length := by omega
    rw [bitmapLoop]
    by_cases hp : present.getD i false = true
    · have hlen : i + 1 + n ≤ 8 * (setBit bm i).length := by
        rw [setBit, List.length_modify]
        omega
      rw [if_pos hp, bitSet_bitmapLoop present n (i + 1) _ hlen,
        bitSet_setBit j hi, Bool.or_eq_true, decide_eq_true_eq, or_assoc]
      refine or_congr_right ⟨?_, ?_⟩
      · rintro (rfl | ⟨h₁, h₂, h₃⟩)
        · exact ⟨le_refl _, by omega, hp⟩
        · exact ⟨by omega, by omega, h₃⟩
      · rintro ⟨h₁, h₂, h₃⟩
        by_cases hij : i = j
        · exact Or.inl hij
        · exact Or.inr ⟨by omega, by omega, h₃⟩
    · rw [if_neg hp, bitSet_bitmapLoop present n (i + 1) bm (by omega)]
      refine or_congr_right ⟨?_, ?_⟩
      · rintro ⟨h₁, h₂, h₃⟩
        exact ⟨by omega, by omega, h₃⟩
      · rintro ⟨h₁, h₂, h₃⟩
        have hij : i ≠ j := by
          rintro rfl
          exact hp h₃
        exact ⟨by omega, by omega, h₃⟩

/-! ### The ranges -/

/-- The pair covers missing chunks only, all below `bound`. -/
def Missing (present : List Bool) (bound : ℕ) (r : ℕ × ℕ) : Prop :=
  r.1 + r.2 ≤ bound ∧ ∀ j, r.1 ≤ j → j < r.1 + r.2 → present.getD j false = false

theorem Missing.mono {present : List Bool} {b b' : ℕ} {r : ℕ × ℕ} (h : Missing present b r)
    (hb : b ≤ b') : Missing present b' r :=
  ⟨h.1.trans hb, h.2⟩

/-- The scan has come to `i` and its pairs cover missing chunks only. -/
structure GapScan.Sound (present : List Bool) (i : ℕ) (g : GapScan) : Prop where
  ranges : ∀ r ∈ g.ranges, Missing present i r
  gap : g.inGap = true → g.start + g.run = i ∧ Missing present i (g.start, g.run)

/-- The pairs, with the open gap as the last one. -/
def GapScan.all (g : GapScan) : List (ℕ × ℕ) :=
  if g.inGap then g.ranges ++ [(g.start, g.run)] else g.ranges

theorem GapScan.Sound.all {present : List Bool} {i : ℕ} {g : GapScan} (h : g.Sound present i) :
    ∀ r ∈ g.all, Missing present i r := by
  unfold GapScan.all
  split_ifs with hg
  · intro r hr
    rcases List.mem_append.mp hr with hr | hr
    · exact h.ranges r hr
    · rw [List.mem_singleton.mp hr]
      exact (h.gap hg).2
  · exact h.ranges

/-- The pairs the loop leaves cover missing chunks only, wherever it stops. -/
theorem missing_gapLoop (present : List Bool) : ∀ (n i : ℕ) (g : GapScan), g.Sound present i →
    ∀ r ∈ (gapLoop present n i g).all, Missing present (i + n) r
  | 0, i, g, hg => hg.all
  | n + 1, i, g, hg => by
    have ih := missing_gapLoop present n (i + 1)
    have hnext : i + 1 + n = i + (n + 1) := by omega
    rw [hnext] at ih
    have hranges : ∀ r ∈ g.ranges, Missing present (i + 1) r := fun r hr =>
      (hg.ranges r hr).mono (Nat.le_succ i)
    rw [gapLoop]
    by_cases hp : present.getD i false = true
    · rw [hp]
      by_cases hin : g.inGap = true
      · -- the gap ends here, and the scan may stop
        have hclosed : GapScan.Sound present (i + 1)
            ⟨g.ranges ++ [(g.start, g.run)], g.start, g.run, false⟩ := by
          refine ⟨fun r hr => ?_, fun h => absurd h Bool.false_ne_true⟩
          rcases List.mem_append.mp hr with hr | hr
          · exact hranges r hr
          · rw [List.mem_singleton.mp hr]
            exact (hg.gap hin).2.mono (Nat.le_succ i)
        simp only [Bool.not_true, Bool.false_eq_true, if_false, hin, if_true]
        split_ifs
        · intro r hr
          exact (hclosed.all r hr).mono (by omega)
        · exact ih _ hclosed
      · simp only [Bool.not_true, Bool.false_eq_true, if_false, hin]
        exact ih g ⟨hranges, fun h => absurd h hin⟩
    · have hmiss : present.getD i false = false := Bool.eq_false_iff.mpr hp
      rw [hmiss]
      by_cases hin : g.inGap = true
      · obtain ⟨hend, -, hgap⟩ := hg.gap hin
        simp only [Bool.not_false, if_true, hin, Bool.not_true, Bool.false_eq_true, if_false]
        refine ih _ ⟨hranges, fun _ => ⟨by simp only; omega, by simp only; omega, ?_⟩⟩
        intro j h₁ h₂
        by_cases hj : j = i
        · rw [hj]
          exact hmiss
        · exact hgap j h₁ (by simp only at h₂ ⊢; omega)
      · have hout : g.inGap = false := Bool.eq_false_iff.mpr hin
        simp only [Bool.not_false, if_true, hout]
        refine ih _ ⟨hranges, fun _ => ⟨rfl, le_refl _, ?_⟩⟩
        intro j h₁ h₂
        obtain rfl : j = i := by simp only at h₁ h₂; omega
        exact hmiss

/-- The ranges cover missing chunks only. -/
theorem missingRanges_missing (present : List Bool) (n : ℕ) :
    ∀ r ∈ missingRanges present n, Missing present n r := by
  have h := missing_gapLoop present n 0 ⟨[], 0, 0, false⟩ ⟨nofun, nofun⟩
  rwa [Nat.zero_add] at h

variable {H : Bytes → Digest}

/-- The ack for a record does not list a chunk the record has. -/
theorem not_reportsMissing {t : TransferData} (wf : WellFormed H t) (tid : ID) {i : ℕ}
    (hi : i ∈ t.chunks) : ¬(chunkAckOf tid t.resumeView).ReportsMissing i := by
  have hlt := wf.key_lt i hi
  have hp := (wf.mem_chunks i).mp hi
  have hget : t.present.getD i false = true := getD_eq_true_iff.mpr hp
  rintro (h | ⟨henc, h⟩ | ⟨henc, ranges, hdec, r, hr, h₁, h₂⟩)
  · -- the first missing chunk is missing
    change (UInt32.ofNat t.resumeView.highestContiguous).toNat = i at h
    rw [(resumeView_counts t).2, toNat_ofNat_of_le wf.highest_le] at h
    rw [← h] at hlt hp
    exact wf.highest_eq.missing hlt hp
  · unfold TransferData.resumeView at henc h
    split_ifs at henc h with hc
    · have hset : bitSet (bitmapLoop t.present t.chunkCount 0
          (List.replicate ((t.chunkCount + 7) / 8) 0)) i = true := by
        refine (bitSet_bitmapLoop t.present t.chunkCount 0 _ ?_).mpr
          (Or.inr ⟨Nat.zero_le _, ?_, hget⟩)
        · rw [List.length_replicate]
          omega
        · rw [Nat.zero_add]
          exact hlt
      exact Bool.false_ne_true (h.symm.trans hset)
    · cases henc
  · unfold TransferData.resumeView at henc hdec
    split_ifs at henc hdec with hc
    · cases henc
    · simp only [chunkAckOf, decodeRanges_encodeRanges] at hdec
      obtain rfl := Except.ok.inj hdec
      obtain ⟨p, hmem, rfl⟩ := List.mem_map.mp hr
      obtain ⟨hbound, hmiss⟩ := missingRanges_missing t.present t.chunkCount p hmem
      have hcount := wf.chunkCount_le
      simp only [toNat_ofNat_of_le (show p.1 ≤ maxChunksPerTransfer by omega),
        toNat_ofNat_of_le (show p.2 ≤ maxChunksPerTransfer by omega)] at h₁ h₂
      rw [hmiss i h₁ h₂] at hget
      cases hget

/-! ## The bytes of a run -/

/-- A put of the run carries the bytes. -/
def PayloadIn (es : List Event) (p : Bytes) : Prop :=
  ∃ e ∈ es, ∃ c, e.op = .putChunk c ∧ c.payload = p

variable (H) in
/-- No two payloads of the run have one digest. -/
def CollisionFree (es : List Event) : Prop :=
  ∀ p q, PayloadIn es p → PayloadIn es q → H p = H q → p = q

/-- What is stored was uploaded. -/
theorem chunks_uploaded (es : List Event) : ∀ tid t i p,
    (runStore H es).transfers.lookup tid = some t → t.chunks.lookup i = some p →
      PayloadIn es p := by
  refine Machine.history_induction (M := store H) (s := newMemStore)
    (P := fun es s _ => ∀ tid t i p, s.transfers.lookup tid = some t → t.chunks.lookup i = some p →
      PayloadIn es p) ?_ ?_ es
  · intro tid t i p ht
    exact absurd ht (GoMap.lookup_empty_ne_some _ _)
  · intro es e ih tid t' i p ht' hp
    have hold : ∀ t, ((store H).run newMemStore es).transfers.lookup tid = some t →
        t.chunks.lookup i = some p → PayloadIn (es ++ [e]) p := by
      intro t ht hp
      obtain ⟨e', he', hc⟩ := ih tid t i p ht hp
      exact ⟨e', List.mem_append_left _ he', hc⟩
    have step := step_transfer H ((store H).run newMemStore es) e tid
    rw [ht'] at step
    generalize ho : some t' = o at step
    rcases step with _ | ⟨r, ticket, -⟩ | ⟨ht, -, -⟩ | ⟨c, hop, -, -, ht, -, -, -, -, -⟩ |
      ⟨r, -, -, ht, -⟩ | _ | _
    · exact hold t' ho.symm hp
    · cases ho
      exact absurd hp (GoMap.lookup_empty_ne_some _ _)
    · cases ho
      exact hold _ ht hp
    · rename_i t
      cases ho
      change (t.chunks.insert c.index.toNat c.payload).lookup i = some p at hp
      rw [GoMap.lookup_insert_eq] at hp
      split_ifs at hp
      · exact ⟨e, List.mem_append_right _ (List.mem_singleton_self e), c, hop, Option.some.inj hp⟩
      · exact hold _ ht hp
    · cases ho
      exact hold _ ht hp
    · cases ho
    · cases ho

/-- An accepted put leaves its bytes at its index, if no other stored bytes share their
digest. -/
theorem accepted_put_stored {s : MemStore} {now : ℤ} {c : ChunkUpload} {n : ℕ}
    (h : (putChunk H s now c).2 = .ok n)
    (hfree : ∀ t old, s.transfers.lookup (copyArr 16 c.transferID) = some t →
      t.chunks.lookup c.index.toNat = some old → H old = H c.payload → old = c.payload) :
    ∃ t, (putChunk H s now c).1.transfers.lookup (copyArr 16 c.transferID) = some t ∧
      t.chunks.lookup c.index.toNat = some c.payload := by
  obtain ⟨t, p, ht, hp, rfl | ⟨hold, hh⟩⟩ := putChunk_accepted H h
  · exact ⟨t, ht, hp⟩
  · exact ⟨t, ht, hfree t p hold hp hh ▸ hp⟩

/-! ## Acks of interleaved puts -/

variable (H) (verify : Verifier)

/-- A create that succeeds has drawn an id that no stored transfer has and no put under way
carries. -/
def FreshHandlerID (s : HandlerState) (e : HandlerEvent) : Prop :=
  ∀ id ticket deadline,
    ((handlers H verify).step s e).2 = .called (.created (.ok (id, ticket, deadline))) →
    s.store.transfers.lookup id = none ∧
      ∀ c, some (.ackPut c) ∈ s.tasks → copyArr 16 c.transferID ≠ id

/-- The chunk of a put under way is stored, unless its transfer is gone. -/
def AcksHold (s : HandlerState) : Prop :=
  ∀ c, some (.ackPut c) ∈ s.tasks → ∀ t,
    s.store.transfers.lookup (copyArr 16 c.transferID) = some t → c.index.toNat ∈ t.chunks

variable {H verify}

/-- A call keeps a stored chunk, unless it creates a transfer under the same id. -/
theorem mem_chunks_step {s : MemStore} {e : Event} {tid : ID} {i : ℕ}
    (h : ∀ t, s.transfers.lookup tid = some t → i ∈ t.chunks)
    (hf : ∀ r ticket secret deadline, e.op = .createTransfer r tid ticket →
      ((store H).step s e).2 ≠ .created (.ok (tid, secret, deadline))) :
    ∀ t', ((store H).step s e).1.transfers.lookup tid = some t' → i ∈ t'.chunks := by
  intro t' ht'
  have step := step_transfer H s e tid
  rw [ht'] at step
  generalize ho : some t' = o at step
  rcases step with _ | ⟨r, ticket, hop, -, -, hout⟩ | ⟨ht, -, -⟩ | ⟨c, -, -, -, ht, -⟩ |
    ⟨r, -, -, ht, -⟩ | _ | _
  · exact h t' ho.symm
  · exact absurd hout (hf _ _ _ _ hop)
  · have hmem := h _ ht
    cases ho
    exact hmem
  · cases ho
    exact Finmap.mem_insert.mpr (Or.inr (h _ ht))
  · have hmem := h _ ht
    cases ho
    exact hmem
  · cases ho
  · cases ho

theorem acksHold_step {s : HandlerState} {e : HandlerEvent} (hf : FreshHandlerID H verify s e)
    (h : AcksHold s) : AcksHold ((handlers H verify).step s e).1 := by
  intro c hc
  rcases tasks_step H verify s e _ hc with hold | hnew
  · rw [step_store]
    rcases hcall : s.storeCall H verify e with _ | call
    · exact h c hold
    · refine mem_chunks_step (h c hold) fun r ticket secret deadline hop hout => ?_
      obtain ⟨other, rfl⟩ := create_of_storeCall H verify hcall hop
      exact (hf _ secret deadline (congrArg HandlerOutput.called hout)).2 c hold rfl
  · cases hnew with
    | accepted hok =>
      intro t ht
      rw [step_store] at ht
      obtain ⟨t', ht', hmem⟩ := mem_chunks_of_accepted hok
      cases ht.symm.trans ht'
      exact hmem

/-- The ack a step sends does not list the chunk it acknowledges. -/
theorem acked_step {s : HandlerState} {e : HandlerEvent} {c : ChunkUpload} {a : ChunkAck}
    (inv : StoreInv H s.store) (h : AcksHold s)
    (hout : ((handlers H verify).step s e).2 = .acked c a) : ¬a.ReportsMissing c.index.toNat := by
  change (handlerStep H verify s e).2 = _ at hout
  cases e with
  | call c' => cases hout
  | put now c' =>
    simp only [handlerStep, handlePut] at hout
    split at hout <;> cases hout
  | enter now => cases hout
  | check k now r =>
    simp only [handlerStep, verifyComplete] at hout
    repeat' split at hout
    all_goals cases hout
  | next k now =>
    simp only [handlerStep] at hout
    split at hout
    · rename_i c' hk
      simp only [finishPut] at hout
      split at hout
      · cases hout
      · rename_i st rv tv hpr
        obtain ⟨rfl, rfl⟩ := HandlerOutput.acked.inj hout
        have hok : (progress s.store now (copyArr 16 c'.transferID)).2 = .ok (rv, tv) := by rw [hpr]
        obtain ⟨t, ht, -, hview⟩ := onTransfer_eq_ok hok
        obtain ⟨rfl, -⟩ := Prod.mk.inj (Except.ok.inj hview)
        exact not_reportsMissing (inv _ t ht) _ (h c' (List.mem_of_getElem? hk) t ht)
    · simp only [checkSender] at hout
      repeat' split at hout
      all_goals cases hout
    · simp only [finishComplete] at hout
      split at hout <;> cases hout
    · cases hout

theorem acked_run : ∀ {s : HandlerState} (es : List HandlerEvent), StoreInv H s.store →
    AcksHold s → (handlers H verify).Along (FreshHandlerID H verify) s es →
    ∀ eo ∈ (handlers H verify).trace s es, ∀ c a, eo.2 = .acked c a →
      ¬a.ReportsMissing c.index.toNat
  | _, [], _, _, _, eo, heo => by cases heo
  | s, e :: es, inv, h, hf, eo, heo => by
    intro c a hout
    rcases List.mem_cons.mp heo with rfl | heo
    · exact acked_step inv h hout
    · exact acked_run es (store_keeps H verify storeInv_step s e inv) (acksHold_step hf.1 h) hf.2
        eo heo c a hout

/-! ## Write once -/

/-- Stored chunks are written once. The bytes of an accepted put stay, with their hash,
until a cancel or a sweep removes the transfer. From any moment to any later one the
transfer has only grown, and a sealed one is the same. And in every interleaving of
handlers, the ack of an accepted put does not list its chunk as missing. -/
theorem chunks_write_once (H : Bytes → Digest) (verify : Verifier) :
    (∀ (es₀ : List Event) (put : Event) (es : List Event) (c : ChunkUpload) (n : ℕ),
      put.op = .putChunk c → ((store H).step (runStore H es₀) put).2 = .put (.ok n) →
      (store H).Along (FreshID H) newMemStore (es₀ ++ put :: es) →
      CollisionFree H (es₀ ++ put :: es) →
      (store H).Along (fun s e => ¬Removes H (copyArr 16 c.transferID) s e)
        (runStore H (es₀ ++ [put])) es →
      ∃ t, (runStore H (es₀ ++ put :: es)).transfers.lookup (copyArr 16 c.transferID) = some t ∧
        t.chunks.lookup c.index.toNat = some c.payload ∧
        t.hashes.lookup c.index.toNat = some (H c.payload).toList) ∧
    (∀ (es₀ es : List Event) (tid : ID) (t : TransferData),
      (store H).Along (FreshID H) newMemStore (es₀ ++ es) →
      (runStore H es₀).transfers.lookup tid = some t →
      (store H).Along (fun s e => ¬Removes H tid s e) (runStore H es₀) es →
      ∃ t', (runStore H (es₀ ++ es)).transfers.lookup tid = some t' ∧ Extends t t') ∧
    (∀ es : List HandlerEvent,
      (handlers H verify).Along (FreshHandlerID H verify) newHandlers es →
      ∀ eo ∈ (handlers H verify).trace newHandlers es, ∀ c a, eo.2 = .acked c a →
        ¬a.ReportsMissing c.index.toNat) := by
  have grow : ∀ (es₀ es : List Event) (tid : ID) (t : TransferData),
      (store H).Along (FreshID H) newMemStore (es₀ ++ es) →
      (runStore H es₀).transfers.lookup tid = some t →
      (store H).Along (fun s e => ¬Removes H tid s e) (runStore H es₀) es →
      ∃ t', (runStore H (es₀ ++ es)).transfers.lookup tid = some t' ∧ Extends t t' := by
    intro es₀ es tid t hf ht hr
    unfold runStore at ht hr ⊢
    rw [Machine.run_append]
    exact extends_run es (storeInv_run storeInv_newMemStore es₀)
      ((Machine.along_append _ _ es₀ es).mp hf).2 hr ht
  refine ⟨fun es₀ put es c n hop hout hf hfree hr => ?_, grow, fun es hf => ?_⟩
  · obtain ⟨now, op⟩ := put
    dsimp only at hop
    subst hop
    have hsplit : es₀ ++ ⟨now, .putChunk c⟩ :: es = es₀ ++ [⟨now, .putChunk c⟩] ++ es := by simp
    -- what the index held before the put is among the payloads of the run
    obtain ⟨t, ht, hchunk⟩ := accepted_put_stored (Output.put.inj hout) fun t old ht ho hh => by
      obtain ⟨e, he, hc⟩ := chunks_uploaded es₀ _ t _ old ht ho
      exact hfree old c.payload ⟨e, List.mem_append_left _ he, hc⟩
        ⟨_, List.mem_append_right _ List.mem_cons_self, c, rfl, rfl⟩ hh
    have ht' : (runStore H (es₀ ++ [⟨now, .putChunk c⟩])).transfers.lookup
        (copyArr 16 c.transferID) = some t := by
      unfold runStore
      rw [Machine.run_concat]
      exact ht
    rw [hsplit] at hf ⊢
    obtain ⟨t', hlook, hext⟩ := grow _ es _ t hf ht' hr
    have hstay := hext.chunks _ _ hchunk
    exact ⟨t', hlook, hstay,
      (storeInv_run storeInv_newMemStore _ _ t' hlook).hash_eq _ _ hstay⟩
  · exact acked_run es storeInv_newMemStore nofun hf

/-! ### The sample upload -/

/-- The create of the sample upload. -/
def sampleStart : Event :=
  ⟨0, .createTransfer sampleCreate sampleID (some sampleTicket)⟩

/-- Two puts accepted one after the other, and acknowledged the other way round. -/
def interleavedPuts : List HandlerEvent :=
  [.call ⟨sampleStart, nofun⟩, .put 1 (sampleChunk 1 [3] []), .put 2 (sampleChunk 0 [1, 2] []),
    .next 1 3, .next 0 3]

theorem sampleStart_fresh :
    (store sampleHash).Along (FreshID sampleHash) newMemStore ([sampleStart] ++ samplePuts) :=
  ⟨fun _ _ _ _ => rfl, nofun, nofun, nofun, trivial⟩

theorem samplePuts_collisionFree : CollisionFree sampleHash ([sampleStart] ++ samplePuts) := by
  have hall : ∀ p, PayloadIn ([sampleStart] ++ samplePuts) p → p = [3] ∨ p = [1, 2] := by
    rintro p ⟨e, he, c, hop, rfl⟩
    simp only [List.singleton_append, samplePuts, List.mem_cons, List.not_mem_nil, or_false] at he
    rcases he with rfl | rfl | rfl | rfl
    · cases hop
    · cases hop
      exact Or.inl rfl
    · cases hop
      exact Or.inr rfl
    · cases hop
      exact Or.inl rfl
  intro p q hp hq h
  rcases hall p hp with rfl | rfl <;> rcases hall q hq with rfl | rfl
  · rfl
  · exact absurd h (by decide)
  · exact absurd h (by decide)
  · rfl

theorem chunks_write_once_samplePuts :
    (∃ t, (runStore sampleHash ([sampleStart] ++ samplePuts)).transfers.lookup sampleID = some t ∧
      t.chunks.lookup 1 = some [3] ∧ t.hashes.lookup 1 = some (sampleHash [3]).toList) ∧
    (∃ t, (runStore sampleHash ([sampleStart] ++ samplePuts)).transfers.lookup sampleID = some t ∧
      Extends (createdTransfer sampleHash sampleCreate sampleTicket 0) t) ∧
    ∀ eo ∈ (handlers sampleHash acceptAll).trace newHandlers interleavedPuts, ∀ c a,
      eo.2 = .acked c a → ¬a.ReportsMissing c.index.toNat := by
  obtain ⟨hbytes, hgrow, hack⟩ := chunks_write_once sampleHash acceptAll
  refine ⟨?_, ?_, ?_⟩
  · refine hbytes [sampleStart] ⟨1, .putChunk (sampleChunk 1 [3] [])⟩ _ (sampleChunk 1 [3] []) 1 rfl
      rfl sampleStart_fresh samplePuts_collisionFree ?_
    refine ⟨?_, ?_, trivial⟩ <;> rintro (⟨⟨mid, secret, h⟩, -⟩ | ⟨h, -⟩) <;> cases h
  · refine hgrow [sampleStart] samplePuts sampleID _ sampleStart_fresh rfl ?_
    refine ⟨?_, ?_, ?_, trivial⟩ <;> rintro (⟨⟨mid, secret, h⟩, -⟩ | ⟨h, -⟩) <;> cases h
  · refine hack interleavedPuts ⟨?_, nofun, nofun, nofun, nofun, trivial⟩
    exact fun _ _ _ _ => ⟨rfl, nofun⟩

end FileRelay
