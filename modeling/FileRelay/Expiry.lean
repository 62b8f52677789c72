import FileRelay.RoundTrip

/-!
# Transfers past their deadline

Eight operations find their transfer with `getTransferLocked`, which tests the deadline of
every transfer that is not complete. `denied_iff_not_complete` says which transfers that
shuts : past its deadline a transfer is denied by all eight exactly when it was never
sealed. A sealed one is served until a sweep removes it.

`denied_run` is the lasting half : what has expired unsealed never comes back, whatever
calls follow, unless its id is drawn again.
-/

namespace FileRelay

variable (H : Bytes → Digest)

/-- Every operation that looks the transfer up returns an error. -/
structure Denied (s : MemStore) (now : ℤ) (tid : ID) : Prop where
  getChunk : ∀ mid secret index, ∃ e, (getChunk H s now tid mid secret index).2 = .error e
  getChunkByTicket : ∀ ticket index, ∃ e, (getChunkByTicket H s now tid ticket index).2 = .error e
  resume : ∀ mid secret, ∃ e, (resume H s now tid mid secret).2 = .error e
  resumeByTicket : ∀ ticket, ∃ e, (resumeByTicket H s now tid ticket).2 = .error e
  progress : ∃ e, (progress s now tid).2 = .error e
  getTransfer : ∃ e, (getTransfer s now tid).2 = .error e
  putChunk : ∀ c, copyArr 16 c.transferID = tid → ∃ e, (putChunk H s now c).2 = .error e
  completeTransfer : ∀ r, copyArr 16 r.transferID = tid →
    ∃ e, (completeTransfer s now r).2 = .error e

/-- The transfer is not there, or is past its deadline and was not sealed. -/
def Gone (tid : ID) (now : ℤ) (s : MemStore) : Prop :=
  ∀ t, s.transfers.lookup tid = some t → t.expiresAt ≤ now ∧ t.state ≠ .complete

/-! ## One state -/

/-- What looks such a transfer up fails, whatever it does next. -/
theorem onTransfer_denied {α : Type} {s : MemStore} {tid : ID} {now : ℤ} (hg : Gone tid now s)
    (rest : MemStore → TransferData → MemStore × Result α) :
    ∃ e, (onTransfer s tid now rest).2 = .error e := by
  cases hr : (onTransfer s tid now rest).2 with
  | error e => exact ⟨e, rfl⟩
  | ok r =>
    obtain ⟨t, ht, hl, -⟩ := onTransfer_eq_ok hr
    obtain ⟨late, hs⟩ := hg t ht
    exact absurd (hl hs) (not_lt.mpr late)

theorem denied_of_gone {s : MemStore} {tid : ID} {now : ℤ} (h : Gone tid now s) :
    Denied H s now tid where
  getChunk _ _ _ := onTransfer_denied h _
  getChunkByTicket _ _ := onTransfer_denied h _
  resume _ _ := onTransfer_denied h _
  resumeByTicket _ := onTransfer_denied h _
  progress := onTransfer_denied h _
  getTransfer := onTransfer_denied h _
  putChunk c hc := by
    subst hc
    unfold FileRelay.putChunk
    rcases validateChunkUpload c with e | ⟨⟩
    · exact ⟨e, rfl⟩
    · exact onTransfer_denied h _
  completeTransfer r hr := by
    subst hr
    unfold FileRelay.completeTransfer
    rcases validateTransferComplete r with e | ⟨⟩
    · exact ⟨e, rfl⟩
    · exact onTransfer_denied h _

/-- `Progress` serves a sealed transfer at any time. -/
theorem progress_complete {s : MemStore} {tid : ID} {t : TransferData} (now : ℤ)
    (h : s.transfers.lookup tid = some t) (hs : t.state = .complete) :
    (progress s now tid).2 = .ok (t.resumeView, t.view tid) := by
  unfold progress
  rw [onTransfer_live _ h fun hne => absurd hs hne]
  rfl

/-- In every state the store reaches, a transfer past its deadline is denied by every
operation that looks it up exactly when it was not sealed. -/
theorem denied_iff_not_complete (H : Bytes → Digest) (es : List Event) (tid : ID)
    (t : TransferData) (now : ℤ) (h : (runStore H es).transfers.lookup tid = some t)
    (late : t.expiresAt ≤ now) : Denied H (runStore H es) now tid ↔ t.state ≠ .complete := by
  constructor
  · intro hd hs
    obtain ⟨e, he⟩ := hd.progress
    rw [progress_complete now h hs] at he
    cases he
  · intro hs
    refine denied_of_gone H fun t' ht' => ?_
    rw [h] at ht'
    cases ht'
    exact ⟨late, hs⟩

/-- The sample upload is never sealed, and is denied after a day. -/
theorem denied_iff_not_complete_sampleUpload :
    ∃ t, (runStore sampleHash sampleUpload).transfers.lookup sampleID = some t ∧
      t.expiresAt ≤ 86400001 ∧
      (Denied sampleHash (runStore sampleHash sampleUpload) 86400001 sampleID ↔
        t.state ≠ .complete) := by
  have hrun : ((runStore sampleHash sampleUpload).transfers.lookup sampleID).map
      (·.expiresAt) = some 86400001 := by decide
  obtain ⟨t, ht, hexp⟩ := Option.map_eq_some_iff.mp hrun
  have late : t.expiresAt ≤ 86400001 := Int.le_of_eq hexp
  exact ⟨t, ht, late, denied_iff_not_complete sampleHash sampleUpload sampleID t _ ht late⟩

/-! ### A sealed transfer after its deadline -/

/-- The sample upload, sealed at 3. -/
def sealedRun : List Event :=
  ⟨0, .createTransfer sampleCreate sampleID (some sampleTicket)⟩ ::
    (samplePuts ++ [⟨3, .completeTransfer sampleComplete⟩])

/-- Sealed at 3, the transfer expires at 1209600003. A year later its ticket still reads. -/
theorem sealed_transfer_outlives_deadline :
    ClockMonotone sealedRun ∧ (∀ e ∈ sealedRun, e.now ≤ 31536000000) ∧
      ((runStore sampleHash sealedRun).transfers.lookup sampleID).map
        (fun t => (t.state, t.expiresAt)) = some (.complete, 1209600003) ∧
      (getChunkByTicket sampleHash (runStore sampleHash sealedRun) 31536000000 sampleID
        sampleTicket.toList 0).2 = .ok ([1, 2], (sampleHash [1, 2]).toList) ∧
      ¬Denied sampleHash (runStore sampleHash sealedRun) 31536000000 sampleID := by
  have hread : (getChunkByTicket sampleHash (runStore sampleHash sealedRun) 31536000000 sampleID
      sampleTicket.toList 0).2 = .ok ([1, 2], (sampleHash [1, 2]).toList) := rfl
  refine ⟨?_, by decide, by decide, hread, fun hd => ?_⟩
  · unfold ClockMonotone
    decide
  · obtain ⟨e, he⟩ := hd.getChunkByTicket sampleTicket.toList 0
    rw [hread] at he
    cases he

/-! ## Whole runs -/

/-- A call that does not draw the id again. -/
def KeepsID (tid : ID) (e : Event) : Prop :=
  ∀ r ticket, e.op ≠ .createTransfer r tid ticket

theorem gone_step {s : MemStore} {e : Event} {tid : ID} {now : ℤ} (hg : Gone tid now s)
    (hlater : now ≤ e.now) (hid : KeepsID tid e) : Gone tid now ((store H).step s e).1 := by
  intro t' ht'
  have step := step_transfer H s e tid
  rw [ht'] at step
  generalize ho : some t' = o at step
  rcases step with _ | ⟨r, ticket, hop, -⟩ | ⟨h, late, hs⟩ | ⟨c, -, -, -, h, hl, -⟩ |
    ⟨r, -, -, h, hl, -⟩ | _ | _
  · exact hg t' ho.symm
  · exact absurd hop (hid r (some ticket))
  · cases ho
    exact ⟨(hg _ h).1, nofun⟩
  · obtain ⟨hexp, hs⟩ := hg _ h
    have := hl hs
    omega
  · have hexp := (hg _ h).1
    omega
  · cases ho
  · cases ho

theorem gone_run {tid : ID} {now : ℤ} : ∀ {s : MemStore} (es : List Event), Gone tid now s →
    (∀ e ∈ es, now ≤ e.now) → (∀ e ∈ es, KeepsID tid e) → Gone tid now ((store H).run s es)
  | _, [], hg, _, _ => hg
  | _, e :: es, hg, hlater, hid =>
    gone_run es (gone_step H hg (hlater e List.mem_cons_self) (hid e List.mem_cons_self))
      (fun e' he' => hlater e' (List.mem_cons_of_mem _ he'))
      (fun e' he' => hid e' (List.mem_cons_of_mem _ he'))

/-- A transfer that has expired unsealed is denied for good : after any further calls and at
any later reading of the clock. -/
theorem denied_run {s : MemStore} {tid : ID} {now now' : ℤ} (hg : Gone tid now s)
    (es : List Event) (hlater : ∀ e ∈ es, now ≤ e.now) (hid : ∀ e ∈ es, KeepsID tid e)
    (hnow : now ≤ now') : Denied H ((store H).run s es) now' tid := by
  refine denied_of_gone H fun t ht => ?_
  obtain ⟨late, hs⟩ := gone_run H es hg hlater hid t ht
  exact ⟨late.trans hnow, hs⟩

end FileRelay
