import FileRelay.PutAck
import FileRelay.Upload

/-!
# What a resume view says is missing

A view lists the missing chunks in a bitmap or in ranges. The scan that builds the ranges
keeps an open gap, stops at 1024 pairs and flushes the gap it ends in. `GapScan.Covers` is
its invariant : the pairs are not empty, are apart from each other, and leave out no missing
chunk. With `missingRanges_missing` the pairs are then the gaps, all of them or the first
1024 (`missingRanges_spec`).

`reported` is the list a client reads off a view. `resume_view_exact` states what the views
of a transfer say, and that rounds which store what was reported come to an end
(`rounds_finish`). `round_of_puts` is such a round.
-/

namespace FileRelay

/-! ## The ranges -/

/-- The pair covers the index. -/
def Within (r : ℕ × ℕ) (j : ℕ) : Prop :=
  r.1 ≤ j ∧ j < r.1 + r.2

/-- The scan has come to `i` and left out no missing chunk before it. -/
structure GapScan.Covers (present : List Bool) (i : ℕ) (g : GapScan) : Prop where
  pos : ∀ r ∈ g.ranges, 1 ≤ r.2
  apart : g.ranges.Pairwise fun a b => a.1 + a.2 < b.1
  below : ∀ r ∈ g.ranges, r.1 + r.2 < if g.inGap then g.start else i
  gap : g.inGap = true → 1 ≤ g.run ∧ g.start + g.run = i
  covered : ∀ j < i, present.getD j false = false → ∃ r ∈ g.all, Within r j

namespace GapScan.Covers

variable {present : List Bool} {i : ℕ} {g : GapScan}

theorem all_closed (hin : g.inGap = false) : g.all = g.ranges := by
  rw [GapScan.all, hin]
  rfl

theorem all_open (hin : g.inGap = true) : g.all = g.ranges ++ [(g.start, g.run)] := by
  rw [GapScan.all, hin]
  rfl

/-- A missing chunk opens a gap. -/
theorem opened (h : g.Covers present i) (hin : g.inGap = false) :
    GapScan.Covers present (i + 1) { g with start := i, run := 1, inGap := true } := by
  refine ⟨h.pos, h.apart, fun r hr => ?_, fun _ => ⟨le_refl 1, rfl⟩, fun j hj hmiss => ?_⟩
  · have := h.below r hr
    rw [hin] at this
    exact this
  · rw [all_open rfl]
    by_cases hji : j = i
    · subst hji
      exact ⟨_, List.mem_append_right _ (List.mem_singleton_self _), le_refl _, Nat.lt_succ_self _⟩
    · obtain ⟨r, hr, hw⟩ := h.covered j (by omega) hmiss
      rw [all_closed hin] at hr
      exact ⟨r, List.mem_append_left _ hr, hw⟩

/-- A missing chunk extends the gap it is in. -/
theorem extended (h : g.Covers present i) (hin : g.inGap = true) :
    GapScan.Covers present (i + 1) { g with run := g.run + 1, inGap := true } := by
  obtain ⟨hrun, hend⟩ := h.gap hin
  refine ⟨h.pos, h.apart, fun r hr => ?_, fun _ => ⟨by simp only; omega, by simp only; omega⟩,
    fun j hj hmiss => ?_⟩
  · have := h.below r hr
    rw [hin] at this
    exact this
  · rw [all_open rfl]
    by_cases hji : g.start ≤ j
    · exact ⟨_, List.mem_append_right _ (List.mem_singleton_self _), hji, by simp only; omega⟩
    · obtain ⟨r, hr, hw⟩ := h.covered j (by omega) hmiss
      rw [all_open hin] at hr
      rcases List.mem_append.mp hr with hr | hr
      · exact ⟨r, List.mem_append_left _ hr, hw⟩
      · rw [List.mem_singleton.mp hr] at hw
        exact absurd hw.1 hji

/-- A chunk that is there closes the gap before it. -/
theorem closed (h : g.Covers present i) (hin : g.inGap = true)
    (hp : present.getD i false = true) : GapScan.Covers present (i + 1)
      { g with ranges := g.ranges ++ [(g.start, g.run)], inGap := false } := by
  obtain ⟨hrun, hend⟩ := h.gap hin
  have hbelow : ∀ r ∈ g.ranges, r.1 + r.2 < g.start := by
    intro r hr
    have := h.below r hr
    rw [hin] at this
    exact this
  refine ⟨fun r hr => ?_, ?_, fun r hr => ?_, nofun, fun j hj hmiss => ?_⟩
  · rcases List.mem_append.mp hr with hr | hr
    · exact h.pos r hr
    · rw [List.mem_singleton.mp hr]
      exact hrun
  · refine List.pairwise_append.mpr ⟨h.apart, List.pairwise_singleton _ _, fun a ha b hb => ?_⟩
    rw [List.mem_singleton.mp hb]
    exact hbelow a ha
  · change r.1 + r.2 < i + 1
    rcases List.mem_append.mp hr with hr | hr
    · have := hbelow r hr
      omega
    · rw [List.mem_singleton.mp hr]
      simp only
      omega
  · have hji : j ≠ i := by
      rintro rfl
      rw [hp] at hmiss
      cases hmiss
    obtain ⟨r, hr, hw⟩ := h.covered j (by omega) hmiss
    rw [all_open hin] at hr
    exact ⟨r, by rw [all_closed rfl]; exact hr, hw⟩

/-- A chunk that is there outside of a gap. -/
theorem skipped (h : g.Covers present i) (hin : g.inGap = false)
    (hp : present.getD i false = true) : g.Covers present (i + 1) := by
  refine ⟨h.pos, h.apart, fun r hr => ?_, fun hg => absurd hg (by rw [hin]; nofun),
    fun j hj hmiss => ?_⟩
  · have := h.below r hr
    rw [hin] at this ⊢
    exact this.trans (Nat.lt_succ_self i)
  · have hji : j ≠ i := by
      rintro rfl
      rw [hp] at hmiss
      cases hmiss
    exact h.covered j (by omega) hmiss

/-- The pairs with the open gap are not empty, apart, and end where the scan has come to. -/
theorem all_spec (h : g.Covers present i) : (∀ r ∈ g.all, 1 ≤ r.2 ∧ r.1 + r.2 ≤ i) ∧
    g.all.Pairwise fun a b => a.1 + a.2 < b.1 := by
  cases hin : g.inGap with
  | false =>
    rw [all_closed hin]
    refine ⟨fun r hr => ⟨h.pos r hr, ?_⟩, h.apart⟩
    have := h.below r hr
    rw [hin] at this
    exact this.le
  | true =>
    obtain ⟨hrun, hend⟩ := h.gap hin
    rw [all_open hin]
    have hbelow : ∀ r ∈ g.ranges, r.1 + r.2 < g.start := by
      intro r hr
      have := h.below r hr
      rw [hin] at this
      exact this
    refine ⟨fun r hr => ?_, List.pairwise_append.mpr
      ⟨h.apart, List.pairwise_singleton _ _, fun a ha b hb => ?_⟩⟩
    · rcases List.mem_append.mp hr with hr | hr
      · have := hbelow r hr
        exact ⟨h.pos r hr, by omega⟩
      · rw [List.mem_singleton.mp hr]
        exact ⟨hrun, hend.le⟩
    · rw [List.mem_singleton.mp hb]
      exact hbelow a ha

end GapScan.Covers

/-- The scan covers what it has passed, and stops early only when the pairs are full. -/
theorem covers_gapLoop (present : List Bool) : ∀ (n i : ℕ) (g : GapScan), g.Covers present i →
    ∃ stop ≤ i + n, (gapLoop present n i g).Covers present stop ∧
      (stop < i + n → maxMissingRanges ≤ (gapLoop present n i g).all.length)
  | 0, i, g, hg => ⟨i, le_refl _, hg, fun h => absurd h (by omega)⟩
  | n + 1, i, g, hg => by
    have ih := covers_gapLoop present n (i + 1)
    have hnext : i + 1 + n = i + (n + 1) := by omega
    rw [hnext] at ih
    rw [gapLoop]
    cases hp : present.getD i false <;> cases hin : g.inGap <;>
      simp only [Bool.not_false, Bool.not_true, if_true, if_false, Bool.false_eq_true]
    · exact ih _ (hg.opened hin)
    · exact ih _ (hg.extended hin)
    · exact ih _ (hg.skipped hin hp)
    · split_ifs with hfull
      · exact ⟨i + 1, by omega, hg.closed hin hp, fun _ => hfull⟩
      · exact ih _ (hg.closed hin hp)

/-- The ranges are the gaps of the transfer, in order : all of them, or the first 1024. -/
structure GapList (present : List Bool) (n : ℕ) (rs : List (ℕ × ℕ)) : Prop where
  length_le : rs.length ≤ maxMissingRanges
  pos : ∀ r ∈ rs, 1 ≤ r.2
  bound : ∀ r ∈ rs, r.1 + r.2 ≤ n
  apart : rs.Pairwise fun a b => a.1 + a.2 < b.1
  missing : ∀ r ∈ rs, ∀ j, Within r j → present.getD j false = false
  upTo : ∀ r ∈ rs, ∀ j < r.1 + r.2, present.getD j false = false → ∃ q ∈ rs, Within q j
  whole : rs.length < maxMissingRanges →
    ∀ j < n, present.getD j false = false → ∃ q ∈ rs, Within q j

theorem missingRanges_spec (present : List Bool) (n : ℕ) :
    GapList present n (missingRanges present n) := by
  have hstart : GapScan.Covers present 0 ⟨[], 0, 0, false⟩ :=
    ⟨nofun, List.Pairwise.nil, nofun, nofun, nofun⟩
  obtain ⟨stop, hle, hcov, hfull⟩ := covers_gapLoop present n 0 _ hstart
  rw [Nat.zero_add] at hle hfull
  obtain ⟨hpos, hapart⟩ := hcov.all_spec
  refine ⟨?_, fun r hr => (hpos r hr).1, fun r hr => ?_, hapart, fun r hr j hw => ?_,
    fun r hr j hj => hcov.covered j (lt_of_lt_of_le hj (hpos r hr).2), fun hshort j hj => ?_⟩
  · rw [length_missingRanges]
    exact min_le_left _ _
  · exact (missingRanges_missing present n r hr).1
  · exact (missingRanges_missing present n r hr).2 j hw.1 hw.2
  · refine hcov.covered j ?_
    by_contra hstop
    exact absurd (hfull (by omega)) (not_le.mpr hshort)

/-! ## What a client reads off a view -/

/-- The indexes a view reports as missing. -/
def ResumeView.reported (rv : ResumeView) : List ℕ :=
  match rv.encoding with
  | .bitmap => (List.range rv.chunkCount).filter fun i => !bitSet rv.bitmap i
  | .ranges =>
    match decodeRanges rv.missingRanges with
    | .ok pairs => pairs.flatMap fun r => List.range' r.1.toNat r.2.toNat
    | .error _ => []

/-- The decoded pairs of a ranges view are gaps of the transfer, in order and apart from each
other : exactly what is missing up to the end of the last one, and all that is missing if
there are fewer than 1024. -/
structure RangesExact (t : TransferData) (pairs : List (UInt32 × UInt32)) : Prop where
  length_le : pairs.length ≤ 1024
  pos : ∀ r ∈ pairs, 1 ≤ r.2.toNat
  bound : ∀ r ∈ pairs, r.1.toNat + r.2.toNat ≤ t.chunkCount
  apart : pairs.Pairwise fun a b => a.1.toNat + a.2.toNat < b.1.toNat
  missing : ∀ r ∈ pairs, ∀ i, r.1.toNat ≤ i → i < r.1.toNat + r.2.toNat → i ∉ t.chunks
  upTo : ∀ last, pairs.getLast? = some last → ∀ i < last.1.toNat + last.2.toNat,
    (i ∉ t.chunks ↔ ∃ r ∈ pairs, r.1.toNat ≤ i ∧ i < r.1.toNat + r.2.toNat)
  whole : pairs.length < 1024 → ∀ i < t.chunkCount,
    (i ∉ t.chunks ↔ ∃ r ∈ pairs, r.1.toNat ≤ i ∧ i < r.1.toNat + r.2.toNat)

variable {H : Bytes → Digest}

theorem WellFormed.notMem_chunks {t : TransferData} (wf : WellFormed H t) (i : ℕ) :
    i ∉ t.chunks ↔ t.present.getD i false = false := by
  rw [wf.mem_chunks, ← getD_eq_true_iff, Bool.not_eq_true]

/-- The bitmap of a transfer of at most 256 chunks. -/
theorem bitmap_exact {t : TransferData} (wf : WellFormed H t) (i : ℕ) :
    bitSet (bitmapLoop t.present t.chunkCount 0 (List.replicate ((t.chunkCount + 7) / 8) 0)) i =
      true ↔ i ∈ t.chunks := by
  have hzero : ¬bitSet (List.replicate ((t.chunkCount + 7) / 8) 0) i = true := by
    have h0 : (List.replicate ((t.chunkCount + 7) / 8) (0 : UInt8)).getD (i / 8) 0 = 0 := by
      rw [List.getD_eq_getElem?_getD, List.getElem?_replicate]
      split_ifs <;> rfl
    unfold bitSet
    rw [h0]
    simp
  rw [bitSet_bitmapLoop _ _ _ _ (by rw [List.length_replicate]; omega), or_iff_right hzero,
    getD_eq_true_iff, ← wf.mem_chunks]
  exact ⟨fun h => h.2.2, fun h => ⟨Nat.zero_le i, by have := wf.key_lt i h; omega, h⟩⟩

/-- The pairs of a transfer survive the conversion to `uint32`. -/
theorem ranges_exact {t : TransferData} (wf : WellFormed H t) :
    RangesExact t ((missingRanges t.present t.chunkCount).map
      fun r => (UInt32.ofNat r.1, UInt32.ofNat r.2)) := by
  have hgaps := missingRanges_spec t.present t.chunkCount
  have hcount := wf.chunkCount_le
  generalize missingRanges t.present t.chunkCount = rs at hgaps
  have hnat : ∀ r ∈ rs, (UInt32.ofNat r.1).toNat = r.1 ∧ (UInt32.ofNat r.2).toNat = r.2 := by
    intro r hr
    have := hgaps.bound r hr
    exact ⟨toNat_ofNat_of_le (by omega), toNat_ofNat_of_le (by omega)⟩
  have hcover : ∀ i, (∃ q ∈ rs.map fun r => (UInt32.ofNat r.1, UInt32.ofNat r.2),
      q.1.toNat ≤ i ∧ i < q.1.toNat + q.2.toNat) ↔ ∃ r ∈ rs, Within r i := by
    intro i
    constructor
    · rintro ⟨q, hq, h₁, h₂⟩
      obtain ⟨r, hr, rfl⟩ := List.mem_map.mp hq
      rw [(hnat r hr).1] at h₁ h₂
      rw [(hnat r hr).2] at h₂
      exact ⟨r, hr, h₁, h₂⟩
    · rintro ⟨r, hr, h₁, h₂⟩
      refine ⟨_, List.mem_map_of_mem hr, ?_⟩
      rw [(hnat r hr).1, (hnat r hr).2]
      exact ⟨h₁, h₂⟩
  have hmiss : ∀ i, (∃ r ∈ rs, Within r i) → i ∉ t.chunks := by
    rintro i ⟨r, hr, hw⟩
    exact (wf.notMem_chunks i).mpr (hgaps.missing r hr i hw)
  refine ⟨?_, ?_, ?_, ?_, fun q hq i h₁ h₂ => hmiss i ((hcover i).mp ⟨q, hq, h₁, h₂⟩),
    fun last hlast i hi => ?_, fun hshort i hi => ?_⟩
  · rw [List.length_map]
    exact hgaps.length_le
  · rintro q hq
    obtain ⟨r, hr, rfl⟩ := List.mem_map.mp hq
    rw [(hnat r hr).2]
    exact hgaps.pos r hr
  · rintro q hq
    obtain ⟨r, hr, rfl⟩ := List.mem_map.mp hq
    rw [(hnat r hr).1, (hnat r hr).2]
    exact hgaps.bound r hr
  · rw [List.pairwise_map]
    refine hgaps.apart.imp_of_mem fun {a b} ha hb hab => ?_
    rw [(hnat a ha).1, (hnat a ha).2, (hnat b hb).1]
    exact hab
  · rw [hcover]
    obtain ⟨r, hr, rfl⟩ := List.mem_map.mp (List.mem_of_getLast? hlast)
    rw [(hnat r hr).1, (hnat r hr).2] at hi
    exact ⟨fun h => hgaps.upTo r hr i hi ((wf.notMem_chunks i).mp h), hmiss i⟩
  · rw [hcover]
    rw [List.length_map] at hshort
    exact ⟨fun h => hgaps.whole hshort i hi ((wf.notMem_chunks i).mp h), hmiss i⟩

/-- A view reports missing chunks only, and some if there are any. -/
theorem reported_spec {t : TransferData} (wf : WellFormed H t) :
    (∀ i ∈ t.resumeView.reported, i < t.chunkCount ∧ i ∉ t.chunks) ∧
      t.resumeView.reported.Nodup ∧
      ((∃ i < t.chunkCount, i ∉ t.chunks) → ∃ i, i ∈ t.resumeView.reported) := by
  by_cases hc : t.chunkCount ≤ 256
  · have hview : t.resumeView.reported = (List.range t.chunkCount).filter fun i =>
        !bitSet (bitmapLoop t.present t.chunkCount 0
          (List.replicate ((t.chunkCount + 7) / 8) 0)) i := by
      unfold TransferData.resumeView
      rw [if_pos hc]
      rfl
    have hmem : ∀ i, i ∈ t.resumeView.reported ↔ i < t.chunkCount ∧ i ∉ t.chunks := by
      intro i
      rw [hview, List.mem_filter, List.mem_range, Bool.not_eq_true', ← Bool.not_eq_true,
        bitmap_exact wf]
    refine ⟨fun i hi => (hmem i).mp hi, ?_, fun ⟨i, hi, hn⟩ => ⟨i, (hmem i).mpr ⟨hi, hn⟩⟩⟩
    rw [hview]
    exact List.nodup_range.filter _
  · have hex := ranges_exact wf
    have hview : t.resumeView.reported = ((missingRanges t.present t.chunkCount).map
        fun r => (UInt32.ofNat r.1, UInt32.ofNat r.2)).flatMap
          fun r => List.range' r.1.toNat r.2.toNat := by
      unfold TransferData.resumeView
      rw [if_neg hc]
      unfold ResumeView.reported
      simp only [decodeRanges_encodeRanges]
    rw [hview]
    generalize (missingRanges t.present t.chunkCount).map
      (fun r => (UInt32.ofNat r.1, UInt32.ofNat r.2)) = pairs at hex
    refine ⟨fun i hi => ?_, List.nodup_flatMap.mpr ⟨fun r _ => List.nodup_range', ?_⟩, ?_⟩
    · obtain ⟨r, hr, hi⟩ := List.mem_flatMap.mp hi
      rw [List.mem_range'_1] at hi
      exact ⟨lt_of_lt_of_le hi.2 (hex.bound r hr), hex.missing r hr i hi.1 hi.2⟩
    · refine hex.apart.imp fun {a b} hab i ha hb => ?_
      rw [List.mem_range'_1] at ha hb
      omega
    · rintro ⟨i, hi, hn⟩
      obtain ⟨r, hr⟩ : ∃ r, r ∈ pairs := by
        rcases pairs with _ | ⟨r, rest⟩
        · obtain ⟨r, hr, -⟩ := (hex.whole (by decide) i hi).mp hn
          exact ⟨r, hr⟩
        · exact ⟨r, List.mem_cons_self⟩
      have := hex.pos r hr
      refine ⟨r.1.toNat, List.mem_flatMap.mpr ⟨r, hr, ?_⟩⟩
      rw [List.mem_range'_1]
      omega

/-! ## Rounds of uploads -/

theorem WellFormed.presentCount_le {t : TransferData} (wf : WellFormed H t) :
    t.presentCount ≤ t.chunkCount := by
  rw [wf.presentCount_eq, ← wf.length_present]
  exact List.count_le_length

theorem WellFormed.exists_missing {t : TransferData} (wf : WellFormed H t)
    (h : t.presentCount < t.chunkCount) : ∃ i < t.chunkCount, i ∉ t.chunks := by
  by_contra hall
  push Not at hall
  exact absurd (wf.presentCount_eq_chunkCount hall) h.ne

/-- A list with more flags set counts no less, and more if some flag is new. -/
theorem count_true_mono : ∀ {l l' : List Bool}, l.length = l'.length →
    (∀ i : ℕ, l[i]? = some true → l'[i]? = some true) → l.count true ≤ l'.count true ∧
      ((∃ j : ℕ, l[j]? ≠ some true ∧ l'[j]? = some true) → l.count true < l'.count true)
  | [], [], _, _ => ⟨le_refl _, fun ⟨j, _, h⟩ => by simp at h⟩
  | a :: l, b :: l', hlen, hsub => by
    obtain ⟨hle, hlt⟩ := count_true_mono (Nat.succ.inj hlen)
      fun i hi => hsub (i + 1) hi
    have hhead : a = true → b = true := by
      rintro rfl
      exact Option.some.inj (hsub 0 rfl)
    rw [List.count_cons, List.count_cons]
    cases a with
    | true =>
      rw [hhead rfl]
      refine ⟨by omega, fun ⟨j, hj, hj'⟩ => ?_⟩
      cases j with
      | zero => exact absurd rfl hj
      | succ j =>
        have := hlt ⟨j, hj, hj'⟩
        omega
    | false =>
      have hzero : (if (false == true) = true then 1 else 0) = 0 := rfl
      rw [hzero]
      refine ⟨by omega, fun ⟨j, hj, hj'⟩ => ?_⟩
      cases j with
      | zero =>
        obtain rfl : b = true := Option.some.inj hj'
        simp only [beq_self_eq_true, if_true]
        omega
      | succ j =>
        have := hlt ⟨j, hj, hj'⟩
        omega

variable (H) in
/-- The calls of a round keep the transfer, and at its end what the view at its start reported
is stored. -/
structure StoresReported (tid : ID) (s : MemStore) (fs : List Event) : Prop where
  fresh : (store H).Along (FreshID H) s fs
  kept : (store H).Along (fun s e => ¬Removes H tid s e) s fs
  stored : ∀ t t', s.transfers.lookup tid = some t →
    ((store H).run s fs).transfers.lookup tid = some t' → ∀ i ∈ t.resumeView.reported, i ∈ t'.chunks

variable (H) in
/-- Every round of calls stores what was reported at its start. -/
def Rounds (tid : ID) : MemStore → List (List Event) → Prop
  | _, [] => True
  | s, fs :: rounds => StoresReported H tid s fs ∧ Rounds tid ((store H).run s fs) rounds

/-- A round adds a chunk, unless none is missing. -/
theorem round_adds {s : MemStore} {tid : ID} {t : TransferData} {fs : List Event}
    (inv : StoreInv H s) (ht : s.transfers.lookup tid = some t) (hr : StoresReported H tid s fs) :
    ∃ t', ((store H).run s fs).transfers.lookup tid = some t' ∧ t'.chunkCount = t.chunkCount ∧
      t.presentCount ≤ t'.presentCount ∧
      (t.presentCount < t.chunkCount → t.presentCount < t'.presentCount) := by
  obtain ⟨t', ht', hext⟩ := extends_run fs inv hr.fresh hr.kept ht
  have wf := inv tid t ht
  have wf' := storeInv_run inv fs tid t' ht'
  have hcount : t'.chunkCount = t.chunkCount := by
    have hfixed := hext.fixed
    simp only [TransferData.fixed, Prod.mk.injEq] at hfixed
    exact hfixed.2.2.1.2.2
  have hlen : t.present.length = t'.present.length := by
    rw [wf.length_present, wf'.length_present, hcount]
  refine ⟨t', ht', hcount, hext.presentCount, fun hlt => ?_⟩
  rw [wf.presentCount_eq, wf'.presentCount_eq]
  refine (count_true_mono hlen hext.present).2 ?_
  obtain ⟨hmiss, -, hsome⟩ := reported_spec wf
  obtain ⟨i, hi⟩ := hsome (wf.exists_missing hlt)
  exact ⟨i, fun h => (hmiss i hi).2 ((wf.mem_chunks i).mpr h),
    (wf'.mem_chunks i).mp (hr.stored t t' ht ht' i hi)⟩

/-- As many rounds as there are missing chunks complete the transfer. -/
theorem rounds_finish {tid : ID} : ∀ (rounds : List (List Event)) {s : MemStore}
    {t : TransferData}, StoreInv H s → s.transfers.lookup tid = some t → Rounds H tid s rounds →
    t.chunkCount ≤ t.presentCount + rounds.length →
    ∃ t', ((store H).run s rounds.flatten).transfers.lookup tid = some t' ∧
      t'.presentCount = t'.chunkCount
  | [], s, t, inv, ht, _, hlen => by
    have hle := (inv tid t ht).presentCount_le
    rw [List.length_nil] at hlen
    exact ⟨t, ht, by omega⟩
  | fs :: rounds, s, t, inv, ht, hr, hlen => by
    obtain ⟨t₁, ht₁, hcount, hle, hlt⟩ := round_adds inv ht hr.1
    rw [List.flatten_cons, Machine.run_append]
    refine rounds_finish rounds (storeInv_run inv fs) ht₁ hr.2 ?_
    rw [List.length_cons] at hlen
    by_cases hfull : t.presentCount < t.chunkCount
    · have := hlt hfull
      omega
    · omega

theorem along_putAll {ok : MemStore → Event → Prop} {now : ℤ}
    (hok : ∀ s c, ok s ⟨now, .putChunk c⟩) : ∀ (cs : List ChunkUpload) (s : MemStore),
      (store H).Along ok s (putAll now cs)
  | [], _ => trivial
  | c :: cs, s => ⟨hok s c, along_putAll hok cs _⟩

/-- Puts of what a view reports are such a round, as long as the transfer is open and the
mailbox has room. -/
theorem round_of_puts {s : MemStore} {now : ℤ} {tid : ID} {t : TransferData}
    (chunk : ℕ → ChunkUpload) (inv : StoreInv H s) (ht : s.transfers.lookup tid = some t)
    (ho : Open t now)
    (hshape : ∀ i ∈ t.resumeView.reported, WellShaped H t (chunk i) ∧
      copyArr 16 (chunk i).transferID = tid ∧ (chunk i).index.toNat = i)
    (hq : t.hasMailbox = true → mailboxStoredBytesLocked s t.mailboxID +
      payloadBytes (t.resumeView.reported.map chunk) ≤ maxStoredBytesPerMailbox) :
    StoresReported H tid s (putAll now (t.resumeView.reported.map chunk)) := by
  obtain ⟨hmiss, hnodup, -⟩ := reported_spec (inv tid t ht)
  have hindex : (t.resumeView.reported.map chunk).map (fun c => c.index.toNat) =
      t.resumeView.reported := by
    rw [List.map_map]
    exact (List.map_congr_left fun i hi => (hshape i hi).2.2).trans (List.map_id _)
  have hpend : Pending H tid t (t.resumeView.reported.map chunk) := by
    refine ⟨fun c hc => ?_, ?_, fun c hc => ?_⟩
    · obtain ⟨i, hi, rfl⟩ := List.mem_map.mp hc
      exact ⟨(hshape i hi).1, (hshape i hi).2.1⟩
    · rw [hindex]
      exact hnodup
    · obtain ⟨i, hi, rfl⟩ := List.mem_map.mp hc
      rw [(hshape i hi).2.2]
      exact Finmap.lookup_eq_none.mpr (hmiss i hi).2
  obtain ⟨t₁, hrun, hup, -⟩ := uploads_stored now _ ht ho hpend hq
  refine ⟨along_putAll (fun s c => nofun) _ s, along_putAll (fun s c => ?_) _ s,
    fun t' t₂ ht' ht₂ i hi => ?_⟩
  · rintro (⟨⟨mid, secret, hop⟩, -⟩ | ⟨hop, -⟩) <;> cases hop
  · cases ht.symm.trans ht'
    rw [hrun, Finmap.lookup_insert] at ht₂
    cases ht₂
    rw [hup.mem_chunks, hindex]
    exact Or.inr hi

/-! ## The views of a transfer -/

/-- In every state the store reaches, what the calls on a transfer return as its resume view.
Up to 256 chunks it is a bitmap with a bit for each chunk, set if it is stored. Beyond that it
is a list of ranges that decodes to gaps of the transfer. The view reports a missing chunk
exactly if one is missing, and names the first of them. Rounds that store what the views
report complete the transfer. -/
theorem resume_view_exact (H : Bytes → Digest) (es : List Event) (now : ℤ) (tid : ID)
    (t : TransferData) (rv : ResumeView) (tv : TransferView)
    (h : (runStore H es).transfers.lookup tid = some t)
    (hs : Served H (runStore H es) now tid rv tv) :
    (t.chunkCount ≤ 256 → rv.encoding = .bitmap ∧ rv.bitmap.length = (t.chunkCount + 7) / 8 ∧
      (∀ i < t.chunkCount, (bitSet rv.bitmap i = true ↔ i ∈ t.chunks)) ∧
      ∀ i, t.chunkCount ≤ i → bitSet rv.bitmap i = false) ∧
    (256 < t.chunkCount → rv.encoding = .ranges ∧
      ∃ pairs, decodeRanges rv.missingRanges = .ok pairs ∧ RangesExact t pairs) ∧
    ((∃ i, i ∈ rv.reported) ↔ t.presentCount < t.chunkCount) ∧
    (rv.highestContiguous ≤ t.chunkCount ∧ (∀ i < rv.highestContiguous, i ∈ t.chunks) ∧
      (rv.highestContiguous < t.chunkCount → rv.highestContiguous ∉ t.chunks)) ∧
    ∀ rounds, Rounds H tid (runStore H es) rounds →
      t.chunkCount ≤ t.presentCount + rounds.length →
      ∃ t', (runStore H (es ++ rounds.flatten)).transfers.lookup tid = some t' ∧
        t'.presentCount = t'.chunkCount := by
  have wf : WellFormed H t := storeInv_run storeInv_newMemStore es tid t h
  obtain rfl := served_eq h hs
  refine ⟨fun hc => ?_, fun hc => ?_, ?_, ?_, fun rounds hr hlen => ?_⟩
  · unfold TransferData.resumeView
    rw [if_pos hc]
    refine ⟨rfl, ?_, fun i _ => bitmap_exact wf i, fun i hi => ?_⟩
    · rw [length_bitmapLoop, List.length_replicate]
    · rw [← Bool.not_eq_true, bitmap_exact wf]
      exact fun hm => absurd (wf.key_lt i hm) (not_lt.mpr hi)
  · unfold TransferData.resumeView
    rw [if_neg (not_le.mpr hc)]
    exact ⟨rfl, _, decodeRanges_encodeRanges _, ranges_exact wf⟩
  · obtain ⟨hmiss, -, hsome⟩ := reported_spec wf
    refine ⟨fun ⟨i, hi⟩ => ?_, fun hlt => hsome (wf.exists_missing hlt)⟩
    obtain ⟨hi, hn⟩ := hmiss i hi
    refine lt_of_le_of_ne wf.presentCount_le fun hfull => ?_
    exact hn (wf.mem_chunks_of_full hfull i hi)
  · rw [(resumeView_counts t).2]
    refine ⟨wf.highest_eq.le, fun i hi => ?_, fun hlt hm => ?_⟩
    · exact (wf.mem_chunks i).mpr (wf.highest_eq.below i hi)
    · exact wf.highest_eq.missing hlt ((wf.mem_chunks _).mp hm)
  · obtain ⟨t', ht', hfull⟩ := rounds_finish rounds (storeInv_run storeInv_newMemStore es) h hr hlen
    refine ⟨t', ?_, hfull⟩
    unfold runStore
    rw [Machine.run_append]
    exact ht'

/-- The sample upload has its second chunk : the bitmap is `10`, chunk 0 is missing. A transfer of
2040 chunks that has every other one has ranges. -/
theorem resume_view_exact_bothForms :
    (∃ t, (runStore sampleHash sampleUpload).transfers.lookup sampleID = some t ∧
      t.resumeView.bitmap = [2] ∧ t.resumeView.reported = [0] ∧
      ((∃ i, i ∈ t.resumeView.reported) ↔ t.presentCount < t.chunkCount)) ∧
    ∃ t, (runStore sampleHash gapsRun).transfers.lookup sampleID = some t ∧
      t.chunkCount = 2040 ∧ t.resumeView.encoding = .ranges ∧
      ∃ pairs, decodeRanges t.resumeView.missingRanges = .ok pairs ∧ RangesExact t pairs := by
  constructor
  · have hrun : ((runStore sampleHash sampleUpload).transfers.lookup sampleID).map
        (fun t => (t.state, t.expiresAt, t.resumeView.bitmap, t.resumeView.reported)) =
          some (.uploading, 86400001, [2], [0]) := by decide
    obtain ⟨t, ht, hf⟩ := Option.map_eq_some_iff.mp hrun
    simp only [Prod.mk.injEq] at hf
    obtain ⟨-, hexp, hbm, hrep⟩ := hf
    have hs : Served sampleHash (runStore sampleHash sampleUpload) 2 sampleID t.resumeView
        (t.view sampleID) := served_progress ht fun _ => by omega
    obtain ⟨-, -, hiff, -⟩ := resume_view_exact sampleHash sampleUpload 2 sampleID t _ _ ht hs
    exact ⟨t, ht, hbm, hrep, hiff⟩
  · obtain ⟨t, ht, hexp, hcount, -⟩ := gapsRun_stored
    have hs : Served sampleHash (runStore sampleHash gapsRun) 0 sampleID t.resumeView
        (t.view sampleID) := served_progress ht fun _ => hexp
    obtain ⟨-, hranges, -⟩ := resume_view_exact sampleHash gapsRun 0 sampleID t _ _ ht hs
    exact ⟨t, ht, hcount, hranges (by omega)⟩

end FileRelay
