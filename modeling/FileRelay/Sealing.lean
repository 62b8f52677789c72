import FileRelay.Handlers
import FileRelay.Replay
import FileRelay.RoundTrip

/-!
# Only the creator seals

`CompleteTransfer` checks no sender. `handleComplete` does, with `GetTransfer` one call
earlier, and between the two calls any other handler may run. The check is still good at
the seal because the sender of a transfer is the one its create recorded, and ids are not
drawn twice : a record under the same id is the same transfer.

Over every interleaving, each stored transfer has a create with its sender in the history
(`SendersRecorded`), and each handler under way has passed the steps behind it
(`TasksJustified`). `only_creator_seals` reads off who sealed a transfer.
-/

namespace FileRelay

variable (H : Bytes → Digest) (verify : Verifier)

/-- A step of a handler history with its output. -/
abbrev HandlerStep := HandlerEvent × HandlerOutput

/-! ## The history -/

/-- The id a step created a transfer under. -/
def createdID : HandlerStep → Option ID
  | (_, .called (.created (.ok (id, _, _)))) => some id
  | _ => none

/-- No id is drawn for two transfers. -/
def NeverReused (trace : List HandlerStep) : Prop :=
  (trace.filterMap createdID).Nodup

/-- The history has a create of the transfer by the sender `pub`. -/
def CreatedBy (trace : List HandlerStep) (tid : ID) (pub : Bytes) : Prop :=
  ∃ step ∈ trace, createdID step = some tid ∧
    ∃ call r ticket, step.1 = .call call ∧ call.event.op = .createTransfer r tid ticket ∧
      r.senderPub = pub

/-- The history has a handler that started at `entry`, verified `r` against that reading
and found its nonce not live in the replay cache. -/
def PassedChecks (es : List HandlerEvent) (r : TransferComplete) (entry : ℤ) : Prop :=
  ∃ before k now after, es = before ++ .check k now r :: after ∧ .enter entry ∈ before ∧
    ((handlers H verify).run newHandlers before).tasks[k]? = some (some (.checkComplete entry)) ∧
    authComplete verify r entry = .ok () ∧
    ∀ exp, ((handlers H verify).run newHandlers before).store.replay.lookup
      (replayKey H replayDomainComplete r.senderPub r.nonce) = some exp → exp ≤ now

variable {H verify}

theorem CreatedBy.append {trace : List HandlerStep} {tid : ID} {pub : Bytes}
    (h : CreatedBy trace tid pub) (more : List HandlerStep) :
    CreatedBy (trace ++ more) tid pub := by
  obtain ⟨step, hmem, hstep⟩ := h
  exact ⟨step, List.mem_append_left _ hmem, hstep⟩

theorem PassedChecks.append {es : List HandlerEvent} {r : TransferComplete} {entry : ℤ}
    (h : PassedChecks H verify es r entry) (more : List HandlerEvent) :
    PassedChecks H verify (es ++ more) r entry := by
  obtain ⟨before, k, now, after, rfl, hrest⟩ := h
  exact ⟨before, k, now, after ++ more, by simp, hrest⟩

/-- With ids drawn once, a transfer has one creator. -/
theorem CreatedBy.unique {trace : List HandlerStep} {tid : ID} {pub pub' : Bytes}
    (hreuse : NeverReused trace) (h : CreatedBy trace tid pub) (h' : CreatedBy trace tid pub') :
    pub = pub' := by
  obtain ⟨step, hmem, hid, call, r, ticket, hcall, hop, rfl⟩ := h
  obtain ⟨step', hmem', hid', call', r', ticket', hcall', hop', rfl⟩ := h'
  have hsym : Std.Symm fun a b : HandlerStep => ∀ id, createdID a = some id →
      ∀ id', createdID b = some id' → id ≠ id' :=
    ⟨fun a b hab id hb id' ha => (hab id' ha id hb).symm⟩
  have hsame : step = step' := by
    by_contra hne
    exact (List.pairwise_filterMap.mp hreuse).forall hmem hmem' hne tid hid tid hid' rfl
  subst hsame
  cases hcall.symm.trans hcall'
  cases hop.symm.trans hop'
  rfl

/-! ## What the history justifies -/

/-- Every stored transfer has the sender of its create. -/
def SendersRecorded (trace : List HandlerStep) (s : HandlerState) : Prop :=
  ∀ tid t, s.store.transfers.lookup tid = some t → CreatedBy trace tid t.senderPub

variable (H verify) in
/-- What a handler has behind it. -/
def Justified (es : List HandlerEvent) (trace : List HandlerStep) : Task → Prop
  | .ackPut _ => True
  | .checkComplete entry => .enter entry ∈ es
  | .findSender r entry => PassedChecks H verify es r entry
  | .sealTransfer r entry => PassedChecks H verify es r entry ∧
      CreatedBy trace (copyArr 16 r.transferID) r.senderPub

variable (H verify) in
/-- Every handler under way has passed the steps behind it. -/
def TasksJustified (es : List HandlerEvent) (trace : List HandlerStep) (s : HandlerState) : Prop :=
  ∀ task, some task ∈ s.tasks → Justified H verify es trace task

theorem Justified.append {es : List HandlerEvent} {trace : List HandlerStep} {task : Task}
    (h : Justified H verify es trace task) (e : HandlerEvent) (step : HandlerStep) :
    Justified H verify (es ++ [e]) (trace ++ [step]) task := by
  cases task with
  | ackPut c => trivial
  | checkComplete entry => exact List.mem_append_left _ h
  | findSender r entry => exact PassedChecks.append h [e]
  | sealTransfer r entry => exact ⟨h.1.append [e], h.2.append [step]⟩

/-- A replay test that passes has found no live entry. -/
theorem not_live_of_checkAndMarkReplay {s : MemStore} {now : ℤ} {key : Digest}
    (h : (checkAndMarkReplay s now key).2 = false) :
    ∀ exp, s.replay.lookup key = some exp → exp ≤ now := by
  intro exp hexp
  by_contra hlive
  simp only [checkAndMarkReplay, markReplay, hexp] at h
  rw [if_pos (not_le.mp hlive)] at h
  cases h

/-- A stored transfer has the sender of its create after every step. -/
theorem sendersRecorded_step {trace : List HandlerStep} {s : HandlerState} (e : HandlerEvent)
    (h : SendersRecorded trace s) :
    SendersRecorded (trace ++ [(e, ((handlers H verify).step s e).2)])
      ((handlers H verify).step s e).1 := by
  intro tid t' ht'
  rw [step_store] at ht'
  rcases hcall : s.storeCall H verify e with _ | call
  · rw [hcall] at ht'
    exact (h tid t' ht').append _
  · rw [hcall] at ht'
    change ((store H).step s.store call).1.transfers.lookup tid = some t' at ht'
    have step := step_transfer H s.store call tid
    rw [ht'] at step
    generalize ho : some t' = o at step
    rcases step with _ | ⟨r, ticket, hop, -, -, hout⟩ | ⟨ht, -, -⟩ | ⟨c, -, -, -, ht, -⟩ |
      ⟨r, -, -, ht, -⟩ | _ | _
    · exact (h tid t' ho.symm).append _
    · cases ho
      obtain ⟨other, rfl⟩ := create_of_storeCall H verify hcall hop
      refine ⟨_, List.mem_append_right _ (List.mem_singleton_self _), ?_, _, r, some ticket, rfl,
        hop, rfl⟩
      change createdID (_, .called ((store H).step s.store call).2) = some tid
      rw [hout]
      rfl
    · cases ho
      exact (h tid _ ht).append _
    · cases ho
      exact (h tid _ ht).append _
    · cases ho
      exact (h tid _ ht).append _
    · cases ho
    · cases ho

theorem tasksJustified_step {es : List HandlerEvent} {trace : List HandlerStep} {e : HandlerEvent}
    (hs : SendersRecorded trace ((handlers H verify).run newHandlers es))
    (ht : TasksJustified H verify es trace ((handlers H verify).run newHandlers es))
    (step : HandlerStep) :
    TasksJustified H verify (es ++ [e]) (trace ++ [step])
      ((handlers H verify).step ((handlers H verify).run newHandlers es) e).1 := by
  intro task htask
  rcases tasks_step H verify _ e task htask with hold | hnew
  · exact (ht task hold).append e step
  · cases hnew with
    | accepted hok => trivial
    | entered now => exact List.mem_append_right _ (List.mem_singleton_self _)
    | verified hk ha hr =>
      exact ⟨es, _, _, [], rfl, ht _ (List.mem_of_getElem? hk), hk, ha,
        not_live_of_checkAndMarkReplay hr⟩
    | found hk hlook hp =>
      have hpassed : PassedChecks H verify es _ _ := ht _ (List.mem_of_getElem? hk)
      have hcreated := hs _ _ hlook
      rw [hp] at hcreated
      exact ⟨hpassed.append _, hcreated.append _⟩

theorem history_justified (es : List HandlerEvent) :
    SendersRecorded ((handlers H verify).trace newHandlers es)
        ((handlers H verify).run newHandlers es) ∧
      TasksJustified H verify es ((handlers H verify).trace newHandlers es)
        ((handlers H verify).run newHandlers es) := by
  induction es using List.reverseRecOn with
  | nil =>
    refine ⟨fun tid t ht => ?_, nofun⟩
    exact absurd ht (GoMap.lookup_empty_ne_some _ _)
  | append_singleton es e ih =>
    rw [Machine.run_concat, Machine.trace_concat]
    exact ⟨sendersRecorded_step e ih.1, tasksJustified_step ih.1 ih.2 _⟩

/-! ## Seals -/

/-- What `handleComplete` has verified up to the replay test. -/
theorem authComplete_eq_ok {r : TransferComplete} {entry : ℤ}
    (h : authComplete verify r entry = .ok ()) :
    verify r.senderPub (canonicalXferComplete (copyArr 32 r.senderPub) (copyArr 16 r.transferID)
      (copyArr 32 r.manifestHash) r.timestamp (copyArr 16 r.nonce)) r.signature = true ∧
      checkSkew r.timestamp entry = .ok () := by
  have hv := bind_eq_ok h
  simp only [failIf_eq_ok, verifyXferComplete, verifySigned] at hv
  obtain ⟨-, -, -, hsig, hskew⟩ := hv
  exact ⟨Bool.not_eq_false _ ▸ hsig, hskew⟩

/-- The step that seals a transfer. -/
theorem sealing_step {s : HandlerState} {e : HandlerEvent} {tid : ID} {t' : TransferData}
    (hbefore : ∀ t, s.store.transfers.lookup tid = some t → t.state ≠ .complete)
    (ht' : ((handlers H verify).step s e).1.store.transfers.lookup tid = some t')
    (hsealed : t'.state = .complete) :
    ∃ k now r entry t, e = .next k now ∧ s.tasks[k]? = some (some (.sealTransfer r entry)) ∧
      copyArr 16 r.transferID = tid ∧ s.store.transfers.lookup tid = some t ∧
      t.presentCount = t.chunkCount := by
  rw [step_store] at ht'
  rcases hcall : s.storeCall H verify e with _ | call
  · rw [hcall] at ht'
    exact absurd hsealed (hbefore t' ht')
  · rw [hcall] at ht'
    change ((store H).step s.store call).1.transfers.lookup tid = some t' at ht'
    have step := step_transfer H s.store call tid
    rw [ht'] at step
    generalize ho : some t' = o at step
    rcases step with _ | ⟨r, ticket, -⟩ | ⟨ht, -, -⟩ | ⟨c, -, -, -, ht, -, hc, -⟩ |
      ⟨r, hop, hid, ht, -, -, hall, -⟩ | _ | _
    · exact absurd hsealed (hbefore t' ho.symm)
    · cases ho
      cases hsealed
    · cases ho
      cases hsealed
    · cases ho
      have hopen := ((checkChunk_eq_ok H).mp hc).1.1
      change (if _ = TransferState.created then TransferState.uploading else _) = _ at hsealed
      split_ifs at hsealed
      exact absurd hsealed hopen
    · rcases storeCall_cases H verify hcall with ⟨other, -⟩ | ⟨_, h⟩ | ⟨_, h⟩ | ⟨_, h⟩ | ⟨_, h⟩ |
        ⟨k, r', entry, he, hk, h⟩
      · exact absurd hop (other r)
      · cases hop.symm.trans h
      · cases hop.symm.trans h
      · cases hop.symm.trans h
      · cases hop.symm.trans h
      · cases hop.symm.trans h
        exact ⟨k, call.now, r, entry, _, he, hk, hid, ht, hall⟩
    · cases ho
    · cases ho

/-- Whenever the state of a transfer becomes complete, in any interleaving of handlers in
which no id is drawn twice, it is by a `handleComplete` whose request was signed, over this
transfer id, by the sender its create recorded, passed the skew test at the reading the
handler started with, and had a nonce that was not live in the replay cache when it was
checked. And all chunks were there. -/
theorem only_creator_seals (H : Bytes → Digest) (verify : Verifier) (es : List HandlerEvent)
    (e : HandlerEvent) (tid : ID) (t' : TransferData)
    (hreuse : NeverReused ((handlers H verify).trace newHandlers es))
    (hbefore : ∀ t, ((handlers H verify).run newHandlers es).store.transfers.lookup tid = some t →
      t.state ≠ .complete)
    (hafter : ((handlers H verify).run newHandlers (es ++ [e])).store.transfers.lookup tid =
      some t')
    (hsealed : t'.state = .complete) :
    ∃ k now r entry t, e = .next k now ∧
      ((handlers H verify).run newHandlers es).tasks[k]? = some (some (.sealTransfer r entry)) ∧
      ((handlers H verify).run newHandlers es).store.transfers.lookup tid = some t ∧
      CreatedBy ((handlers H verify).trace newHandlers es) tid r.senderPub ∧
      t.senderPub = r.senderPub ∧ copyArr 16 r.transferID = tid ∧
      verify r.senderPub (canonicalXferComplete (copyArr 32 r.senderPub) tid
        (copyArr 32 r.manifestHash) r.timestamp (copyArr 16 r.nonce)) r.signature = true ∧
      checkSkew r.timestamp entry = .ok () ∧ PassedChecks H verify es r entry ∧
      t.presentCount = t.chunkCount ∧ ∀ i < t.chunkCount, i ∈ t.chunks := by
  rw [Machine.run_concat] at hafter
  obtain ⟨k, now, r, entry, t, he, hk, rfl, ht, hall⟩ := sealing_step hbefore hafter hsealed
  obtain ⟨hsenders, htasks⟩ := @history_justified H verify es
  obtain ⟨hpassed, hcreated⟩ := htasks _ (List.mem_of_getElem? hk)
  have hsender : t.senderPub = r.senderPub := (hsenders _ t ht).unique hreuse hcreated
  obtain ⟨hsig, hskew⟩ : _ ∧ checkSkew r.timestamp entry = .ok () := by
    obtain ⟨-, -, -, -, -, -, -, hauth, -⟩ := hpassed
    exact authComplete_eq_ok hauth
  have wf := handlers_storeInv H verify es _ t ht
  exact ⟨k, now, r, entry, t, he, hk, ht, hcreated, hsender, rfl, hsig, hskew, hpassed, hall,
    wf.mem_chunks_of_full hall⟩

/-- The sample upload through the handlers, up to the sender check of its completion. -/
def sampleSealing : List HandlerEvent :=
  [.call ⟨⟨0, .createTransfer sampleCreate sampleID (some sampleTicket)⟩, nofun⟩,
    .put 1 (sampleChunk 1 [3] []), .put 2 (sampleChunk 0 [1, 2] []), .enter 3,
    .check 2 3 sampleComplete, .next 2 4]

theorem only_creator_seals_sampleSealing :
    ∃ t', ((handlers sampleHash acceptAll).run newHandlers
        (sampleSealing ++ [.next 2 5])).store.transfers.lookup sampleID = some t' ∧
      t'.state = .complete ∧
      ∃ k now r entry t, HandlerEvent.next 2 5 = .next k now ∧
        ((handlers sampleHash acceptAll).run newHandlers sampleSealing).tasks[k]? =
          some (some (.sealTransfer r entry)) ∧
        ((handlers sampleHash acceptAll).run newHandlers sampleSealing).store.transfers.lookup
          sampleID = some t ∧ t.senderPub = r.senderPub := by
  have hrun : (((handlers sampleHash acceptAll).run newHandlers
      (sampleSealing ++ [.next 2 5])).store.transfers.lookup sampleID).map (·.state) =
        some .complete := by decide +kernel
  have hopen : (((handlers sampleHash acceptAll).run newHandlers
      sampleSealing).store.transfers.lookup sampleID).map (·.state) = some .uploading := by
    decide +kernel
  obtain ⟨t', ht', hs'⟩ := Option.map_eq_some_iff.mp hrun
  obtain ⟨k, now, r, entry, t, he, hk, ht, -, hsender, -⟩ :=
    only_creator_seals sampleHash acceptAll sampleSealing (.next 2 5) sampleID t'
      (by unfold NeverReused; decide +kernel)
      (fun t ht => by
        rw [ht, Option.map_some] at hopen
        rw [Option.some.inj hopen]
        decide) ht' hs'
  exact ⟨t', ht', hs', k, now, r, entry, t, he, hk, ht, hsender⟩

end FileRelay
