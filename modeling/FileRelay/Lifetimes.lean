import FileRelay.Expiry

/-!
# The lifetime of a transfer

Three operations write the deadline of a transfer : the create, a put of a new chunk, which
slides it up to a cap, and the seal, which sets it anew. `Timed` is what they keep over a
clock that does not go back, and `Ages` how one record changes from a moment to a later one.
`transfer_lifetimes` collects what follows for whole runs : an open transfer expires within
a week of its creation and its deadline only moves on, a sealed one keeps the deadline of its
seal until it is removed, and one that was not sealed in time is frozen.

The deadlines are sums of `int64`s, so this holds of readings two weeks or more before the
end of its range. `lifetime_wraps` is a create at the end of it.
-/

namespace FileRelay

/-- The deadline of a transfer, against its creation and the clock. -/
structure Timed (clock : ℤ) (t : TransferData) : Prop where
  fits : ClockFits completeTTLSeconds t.createdAt
  created : t.createdAt ≤ clock
  after : t.state ≠ .complete → t.createdAt < t.expiresAt
  cap : t.state ≠ .complete → t.expiresAt ≤ t.createdAt + uploadTTLMaxSeconds * 1000
  slid : t.state ≠ .complete → t.expiresAt ≤ clock + uploadTTLSeconds * 1000
  sealed : t.state = .complete →
    t.expiresAt ≤ t.createdAt + uploadTTLMaxSeconds * 1000 + completeTTLSeconds * 1000

/-- `t'` is `t` at a later moment : its deadline moves on while it is open, and stays once it
is sealed. -/
structure Ages (t t' : TransferData) : Prop where
  createdAt : t'.createdAt = t.createdAt
  isOpen : t'.state ≠ .complete → t.state ≠ .complete ∧ t.expiresAt ≤ t'.expiresAt
  sealed : t.state = .complete → t' = t

/-- `t'` is `t` at a later moment, and was not sealed, extended or added to. -/
structure Frozen (t t' : TransferData) : Prop where
  state : t'.state ≠ .complete
  expiresAt : t'.expiresAt = t.expiresAt
  chunks : t'.chunks = t.chunks

theorem Ages.refl (t : TransferData) : Ages t t :=
  ⟨rfl, fun h => ⟨h, le_refl _⟩, fun _ => rfl⟩

theorem Ages.trans {t t' t'' : TransferData} (h : Ages t t') (h' : Ages t' t'') : Ages t t'' where
  createdAt := h'.createdAt.trans h.createdAt
  isOpen hs := by
    obtain ⟨hs', hle'⟩ := h'.isOpen hs
    obtain ⟨hs'', hle⟩ := h.isOpen hs'
    exact ⟨hs'', hle.trans hle'⟩
  sealed hs := by
    obtain rfl := h.sealed hs
    exact h'.sealed hs

theorem Frozen.trans {t t' t'' : TransferData} (h : Frozen t t') (h' : Frozen t' t'') :
    Frozen t t'' :=
  ⟨h'.state, h'.expiresAt.trans h.expiresAt, h'.chunks.trans h.chunks⟩

/-! ## The deadlines over runs -/

variable {H : Bytes → Digest}

theorem Timed.mono {clock clock' : ℤ} {t : TransferData} (h : Timed clock t)
    (hle : clock ≤ clock') : Timed clock' t :=
  { h with
    created := h.created.trans hle
    slid := fun hs => (h.slid hs).trans (Int.add_le_add_right hle _) }

/-- The deadline a put sets : a day on, but no later than a week after the creation. -/
theorem expiresAt_storeChunk (t : TransferData) (c : ChunkUpload) (now : ℤ) :
    (storeChunk H t c now).expiresAt =
      min (deadline t.createdAt uploadTTLMaxSeconds) (deadline now uploadTTLSeconds) := by
  unfold storeChunk
  dsimp only
  rw [min_def]
  split_ifs <;> omega

/-- The same where neither sum wraps. -/
theorem Timed.expiresAt_storeChunk {now : ℤ} {t : TransferData} (h : Timed now t)
    (hnow : ClockFits completeTTLSeconds now) (c : ChunkUpload) :
    (storeChunk H t c now).expiresAt =
      min (t.createdAt + uploadTTLMaxSeconds * 1000) (now + uploadTTLSeconds * 1000) := by
  rw [FileRelay.expiresAt_storeChunk, h.fits.deadline_eq (by decide) (by decide),
    hnow.deadline_eq (by decide) (by decide)]

theorem state_storeChunk {t : TransferData} {c : ChunkUpload} (now : ℤ)
    (hs : t.state ≠ .complete) : (storeChunk H t c now).state ≠ .complete := by
  unfold storeChunk
  dsimp only
  split_ifs
  · nofun
  · exact hs

theorem Timed.storeChunk {now : ℤ} {t : TransferData} (h : Timed now t)
    (hnow : ClockFits completeTTLSeconds now) (c : ChunkUpload) (hs : t.state ≠ .complete) :
    Timed now (storeChunk H t c now) := by
  have hcreated := h.created
  have hexp := h.expiresAt_storeChunk (H := H) hnow c
  have hs' := state_storeChunk (H := H) (c := c) now hs
  refine ⟨h.fits, hcreated, fun _ => ?_, fun _ => ?_, fun _ => ?_, fun hc => absurd hc hs'⟩
  · rw [hexp]
    change t.createdAt < _
    unfold uploadTTLMaxSeconds uploadTTLSeconds
    omega
  · rw [hexp]
    exact min_le_left _ _
  · rw [hexp]
    exact min_le_right _ _

theorem timed_step {s : MemStore} {e : Event} (hfits : ClockFits completeTTLSeconds e.now)
    (inv : ∀ tid t, s.transfers.lookup tid = some t → Timed e.now t) :
    ∀ tid t, ((store H).step s e).1.transfers.lookup tid = some t → Timed e.now t := by
  intro tid t' ht'
  have step := step_transfer H s e tid
  rw [ht'] at step
  generalize ho : some t' = o at step
  rcases step with _ | _ | ⟨h, -, hs⟩ | ⟨c, -, -, -, h, -, hc, -⟩ | ⟨r, -, -, h, hl, hs, -⟩ | _ | _
  · exact inv tid t' ho.symm
  · rename_i r ticket _ _ _ _
    have hexp : (createdTransfer H r ticket e.now).expiresAt = e.now + uploadTTLSeconds * 1000 :=
      hfits.deadline_eq (by decide) (by decide)
    cases ho
    refine ⟨hfits, le_refl _, fun _ => ?_, fun _ => ?_, fun _ => hexp.le, nofun⟩
    · rw [hexp]
      exact Int.lt_add_of_pos_right _ (by decide)
    · rw [hexp]
      exact Int.add_le_add_left (by decide) _
  · have old := inv tid _ h
    cases ho
    exact ⟨old.fits, old.created, fun _ => old.after hs, fun _ => old.cap hs,
      fun _ => old.slid hs, nofun⟩
  · have hs := ((checkChunk_eq_ok H).mp hc).1.1
    cases ho
    exact (inv tid _ h).storeChunk hfits c hs
  · have old := inv tid _ h
    have hcap := old.cap hs
    cases ho
    refine ⟨old.fits, old.created, fun hc => absurd rfl hc, fun hc => absurd rfl hc,
      fun hc => absurd rfl hc, fun _ => ?_⟩
    change deadline e.now completeTTLSeconds ≤ _
    rw [hfits.deadline_eq (by decide) le_rfl]
    exact Int.add_le_add_right (hl.le.trans hcap) _
  · cases ho
  · cases ho

/-- Over a clock that does not go back every transfer is timed. -/
theorem timed_run {es : List Event} (hclock : ClockMonotone es)
    (hfits : ∀ e ∈ es, ClockFits completeTTLSeconds e.now) {now : ℤ}
    (hnow : ∀ e ∈ es, e.now ≤ now) : ∀ tid t, (runStore H es).transfers.lookup tid = some t →
      Timed now t := by
  refine Machine.clock_induction (M := store H)
    (P := fun now s => ∀ tid t, s.transfers.lookup tid = some t → Timed now t) ?_ ?_ ?_ hclock hnow
  · intro now tid t h
    exact absurd h (GoMap.lookup_empty_ne_some _ _)
  · intro a b s hab h tid t ht
    exact (h tid t ht).mono hab
  · intro s e he h
    exact timed_step (hfits e he) h

/-- Some reading is no earlier than those of the run. -/
theorem exists_clock_bound : ∀ es : List Event, ∃ now, ∀ e ∈ es, e.now ≤ now
  | [] => ⟨0, nofun⟩
  | e :: es => by
    obtain ⟨now, hnow⟩ := exists_clock_bound es
    refine ⟨max e.now now, fun e' he' => ?_⟩
    rcases List.mem_cons.mp he' with rfl | he'
    · exact le_max_left _ _
    · exact (hnow e' he').trans (le_max_right _ _)

/-! ## One record over one call -/

variable (H) in
/-- The call does not store a new transfer under the id. -/
def KeepsRecord (tid : ID) (s : MemStore) (e : Event) : Prop :=
  ∀ ticket deadline, ((store H).step s e).2 ≠ .created (.ok (tid, ticket, deadline))

/-- What a call makes of the record that was there. -/
theorem ages_step {s : MemStore} {e : Event} {tid : ID} {t' : TransferData}
    (hfits : ClockFits completeTTLSeconds e.now)
    (inv : ∀ t, s.transfers.lookup tid = some t → Timed e.now t) (hk : KeepsRecord H tid s e)
    (ht' : ((store H).step s e).1.transfers.lookup tid = some t') :
    ∃ t, s.transfers.lookup tid = some t ∧ Ages t t' ∧
      (t.state ≠ .complete → t.expiresAt ≤ e.now → Frozen t t') ∧
      (t.state ≠ .complete → t'.state = .complete →
        t'.expiresAt = e.now + completeTTLSeconds * 1000) := by
  have step := step_transfer H s e tid
  rw [ht'] at step
  generalize ho : some t' = o at step
  rcases step with _ | ⟨r, ticket, -, -, -, hout⟩ | ⟨h, late, hs⟩ | ⟨c, -, -, -, h, hl, hc, -⟩ |
    ⟨r, -, -, h, hl, hs, -⟩ | _ | _
  · exact ⟨t', ho.symm, .refl t', fun hs _ => ⟨hs, rfl, rfl⟩, fun hs hs' => absurd hs' hs⟩
  · exact absurd hout (hk _ _)
  · cases ho
    exact ⟨_, h, ⟨rfl, fun _ => ⟨hs, le_refl _⟩, fun hc => absurd hc hs⟩,
      fun _ _ => ⟨nofun, rfl, rfl⟩, nofun⟩
  · have hs := ((checkChunk_eq_ok H).mp hc).1.1
    have old := inv _ h
    cases ho
    refine ⟨_, h, ⟨rfl, fun _ => ⟨hs, ?_⟩, fun hc => absurd hc hs⟩,
      fun _ late => absurd (hl hs) (not_lt.mpr late),
      fun _ hc => absurd hc (state_storeChunk e.now hs)⟩
    rw [old.expiresAt_storeChunk hfits]
    exact le_min (old.cap hs) (old.slid hs)
  · cases ho
    exact ⟨_, h, ⟨rfl, fun hc => absurd rfl hc, fun hc => absurd hc hs⟩,
      fun _ late => absurd hl (not_lt.mpr late),
      fun _ _ => hfits.deadline_eq (by decide) le_rfl⟩
  · cases ho
  · cases ho

/-! ## One record over a run -/

/-- A record that is there before and after some calls has aged, and is frozen if it was past
its deadline at all of them. -/
theorem ages_run {es : List Event} {tid : ID} {t : TransferData}
    (ht : (runStore H es).transfers.lookup tid = some t) (fs : List Event) :
    ClockMonotone (es ++ fs) → (∀ e ∈ es ++ fs, ClockFits completeTTLSeconds e.now) →
    (store H).Along (KeepsRecord H tid) (runStore H es) fs →
    ∀ t', (runStore H (es ++ fs)).transfers.lookup tid = some t' → Ages t t' ∧
      (t.state ≠ .complete → (∀ e ∈ fs, t.expiresAt ≤ e.now) → Frozen t t') := by
  induction fs using List.reverseRecOn with
  | nil =>
    intro _ _ _ t' ht'
    rw [List.append_nil, ht] at ht'
    cases ht'
    exact ⟨.refl t, fun hs _ => ⟨hs, rfl, rfl⟩⟩
  | append_singleton fs e ih =>
    intro hclock hfits hkeep t' ht'
    rw [← List.append_assoc] at hclock hfits ht'
    have hrun : runStore H (es ++ fs) = (store H).run (runStore H es) fs :=
      Machine.run_append _ _ _ _
    rw [Machine.along_concat, ← hrun] at hkeep
    obtain ⟨hclock', -, hlast⟩ := List.pairwise_append.mp hclock
    have hnow : ∀ e' ∈ es ++ fs, e'.now ≤ e.now :=
      fun e' he' => hlast e' he' e (List.mem_singleton_self e)
    unfold runStore at ht'
    rw [Machine.run_concat] at ht'
    have hfits' : ∀ e' ∈ es ++ fs, ClockFits completeTTLSeconds e'.now :=
      fun e' he' => hfits e' (List.mem_append_left _ he')
    obtain ⟨t₁, ht₁, hages, hfrozen, -⟩ :=
      ages_step (hfits e (List.mem_append_right _ (List.mem_singleton_self e)))
        (fun t => timed_run hclock' hfits' hnow tid t) hkeep.2 ht'
    obtain ⟨hages₀, hfrozen₀⟩ := ih hclock' hfits' hkeep.1 t₁ ht₁
    refine ⟨hages₀.trans hages, fun hs hlate => ?_⟩
    have h₁ := hfrozen₀ hs fun e' he' => hlate e' (List.mem_append_left _ he')
    have hlate₁ := hlate e (List.mem_append_right _ (List.mem_singleton_self e))
    exact h₁.trans (hfrozen h₁.state (h₁.expiresAt ▸ hlate₁))

/-- In every run whose clock does not go back and reads two weeks before the end of its range
at the latest, and for a record that is in the store after some calls of it and, not having
been stored anew, after some more :

an open transfer expires after its creation and within a week of it, and a later deadline of
an open transfer is no earlier ; a seal sets the deadline two weeks from then, which is within
three weeks of the creation, and a sealed record does not change ; and once the deadline of an
open transfer has passed it takes no chunk, is not sealed and keeps its deadline. -/
theorem transfer_lifetimes (H : Bytes → Digest) (es fs : List Event) (tid : ID) (t : TransferData)
    (hclock : ClockMonotone (es ++ fs))
    (hfits : ∀ e ∈ es ++ fs, ClockFits completeTTLSeconds e.now)
    (h : (runStore H es).transfers.lookup tid = some t)
    (hkeep : (store H).Along (KeepsRecord H tid) (runStore H es) fs) :
    (t.state ≠ .complete → t.createdAt < t.expiresAt ∧
      t.expiresAt ≤ t.createdAt + uploadTTLMaxSeconds * 1000) ∧
    (∀ t', (runStore H (es ++ fs)).transfers.lookup tid = some t' →
      (t'.state ≠ .complete → t.expiresAt ≤ t'.expiresAt) ∧
      (t.state = .complete → t' = t)) ∧
    (∀ e gs t', fs = e :: gs → t.state ≠ .complete →
      (runStore H (es ++ [e])).transfers.lookup tid = some t' → t'.state = .complete →
        t'.expiresAt = e.now + completeTTLSeconds * 1000 ∧ t'.createdAt = t.createdAt ∧
        t'.expiresAt ≤ t.createdAt + uploadTTLMaxSeconds * 1000 + completeTTLSeconds * 1000) ∧
    (t.state ≠ .complete → (∀ e ∈ fs, t.expiresAt ≤ e.now) →
      (∀ t', (runStore H (es ++ fs)).transfers.lookup tid = some t' →
        t'.state ≠ .complete ∧ t'.expiresAt = t.expiresAt ∧ t'.chunks = t.chunks) ∧
      ∀ now, t.expiresAt ≤ now →
        (∀ c, copyArr 16 c.transferID = tid →
          ∃ err, (putChunk H (runStore H (es ++ fs)) now c).2 = .error err) ∧
        ∀ r, copyArr 16 r.transferID = tid →
          ∃ err, (completeTransfer (runStore H (es ++ fs)) now r).2 = .error err) := by
  have hrun := ages_run h fs hclock hfits hkeep
  have hfits₀ : ∀ e ∈ es, ClockFits completeTTLSeconds e.now :=
    fun e he => hfits e (List.mem_append_left _ he)
  obtain ⟨hclock₀, -, -⟩ := List.pairwise_append.mp hclock
  refine ⟨fun hs => ?_, fun t' ht' => ?_, ?_,
    fun hs hlate => ⟨fun t' ht' => ?_, fun now hnow => ?_⟩⟩
  · obtain ⟨now, hnow⟩ := exists_clock_bound es
    have timed := timed_run hclock₀ hfits₀ hnow tid t h
    exact ⟨timed.after hs, timed.cap hs⟩
  · obtain ⟨hages, -⟩ := hrun t' ht'
    exact ⟨fun hs => (hages.isOpen hs).2, hages.sealed⟩
  · rintro e gs t' rfl hs ht' hs'
    have hsub : (es ++ [e]).Sublist (es ++ e :: gs) :=
      (List.append_sublist_append_left es).mpr (by simp)
    have hmono : ClockMonotone (es ++ [e]) := hclock.sublist hsub
    have hfits₁ : ∀ e' ∈ es ++ [e], ClockFits completeTTLSeconds e'.now :=
      fun e' he' => hfits e' (hsub.subset he')
    obtain ⟨-, -, hlast⟩ := List.pairwise_append.mp hmono
    have hnow : ∀ e' ∈ es, e'.now ≤ e.now :=
      fun e' he' => hlast e' he' e (List.mem_singleton_self e)
    have hstep := ht'
    unfold runStore at hstep
    rw [Machine.run_concat] at hstep
    obtain ⟨t₀, ht₀, hages, -, hseal⟩ :=
      ages_step (hfits₁ e (List.mem_append_right _ (List.mem_singleton_self e)))
        (fun t => timed_run hclock₀ hfits₀ hnow tid t) hkeep.1 hstep
    cases ht₀.symm.trans h
    obtain ⟨now, hbound⟩ := exists_clock_bound (es ++ [e])
    have timed := timed_run hmono hfits₁ hbound tid t' ht'
    refine ⟨hseal hs hs', hages.createdAt, ?_⟩
    rw [← hages.createdAt]
    exact timed.sealed hs'
  · obtain ⟨-, hfrozen⟩ := hrun t' ht'
    have hf := hfrozen hs hlate
    exact ⟨hf.state, hf.expiresAt, hf.chunks⟩
  · have hgone : Gone tid now (runStore H (es ++ fs)) := by
      intro t' ht'
      have hf := (hrun t' ht').2 hs hlate
      exact ⟨hf.expiresAt ▸ hnow, hf.state⟩
    have hd := denied_of_gone H hgone
    exact ⟨hd.putChunk, hd.completeTransfer⟩

/-- The sample upload is sealed at 3, and expires two weeks after that. -/
theorem transfer_lifetimes_sealedRun :
    ∃ t t', (runStore sampleHash (⟨0, .createTransfer sampleCreate sampleID (some sampleTicket)⟩ ::
        samplePuts)).transfers.lookup sampleID = some t ∧
      (runStore sampleHash sealedRun).transfers.lookup sampleID = some t' ∧
      t.expiresAt ≤ t.createdAt + uploadTTLMaxSeconds * 1000 ∧
      t'.expiresAt = 3 + completeTTLSeconds * 1000 := by
  have hopen : ((runStore sampleHash (⟨0, .createTransfer sampleCreate sampleID
      (some sampleTicket)⟩ :: samplePuts)).transfers.lookup sampleID).map (·.state) =
        some .uploading := by decide
  have hsealed : ((runStore sampleHash sealedRun).transfers.lookup sampleID).map (·.state) =
      some .complete := by decide
  obtain ⟨t, ht, hs⟩ := Option.map_eq_some_iff.mp hopen
  obtain ⟨t', ht', hs'⟩ := Option.map_eq_some_iff.mp hsealed
  have hne : t.state ≠ .complete := by
    rw [hs]
    nofun
  have hclock : ClockMonotone ((⟨0, .createTransfer sampleCreate sampleID (some sampleTicket)⟩ ::
      samplePuts) ++ [⟨3, .completeTransfer sampleComplete⟩]) := by
    unfold ClockMonotone
    decide
  obtain ⟨hspan, -, hseal, -⟩ :=
    transfer_lifetimes sampleHash _ _ sampleID t hclock (by decide) ht ⟨nofun, trivial⟩
  exact ⟨t, t', ht, ht', (hspan hne).2, (hseal _ _ t' rfl hne ht' hs').1⟩

/-! ### The end of the clock's range -/

/-- A create at the last reading of an `int64` clock. -/
def lastCreate : Event :=
  ⟨2 ^ 63 - 1, .createTransfer sampleCreate sampleID (some sampleTicket)⟩

/-- The deadline it stores has wrapped to before the creation, and the transfer takes no
chunk. -/
theorem lifetime_wraps :
    ClockMonotone [lastCreate] ∧
      (∃ t, (runStore sampleHash [lastCreate]).transfers.lookup sampleID = some t ∧
        t.state ≠ .complete ∧ ¬t.createdAt < t.expiresAt) ∧
      ∀ c, copyArr 16 c.transferID = sampleID →
        ∃ err, (putChunk sampleHash (runStore sampleHash [lastCreate]) (2 ^ 63 - 1) c).2 =
          .error err := by
  have hmap : ((runStore sampleHash [lastCreate]).transfers.lookup sampleID).map
      (fun t => (t.state, t.createdAt, t.expiresAt)) =
        some (.created, 2 ^ 63 - 1, -2 ^ 63 + 86399999) := by decide
  obtain ⟨t, ht, hfields⟩ := Option.map_eq_some_iff.mp hmap
  obtain ⟨hs, hcreated, hexp⟩ : t.state = .created ∧ t.createdAt = 2 ^ 63 - 1 ∧
      t.expiresAt = -2 ^ 63 + 86399999 := by simpa using hfields
  refine ⟨List.pairwise_singleton _ _, ⟨t, ht, by rw [hs]; nofun, by omega⟩, ?_⟩
  have hgone : Gone sampleID (2 ^ 63 - 1) (runStore sampleHash [lastCreate]) := by
    intro t' ht'
    obtain rfl := Option.some.inj (ht.symm.trans ht')
    exact ⟨by omega, by rw [hs]; nofun⟩
  exact (denied_of_gone sampleHash hgone).putChunk

end FileRelay
