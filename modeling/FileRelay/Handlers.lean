import FileRelay.Auth
import FileRelay.ResumeView

/-!
# Handlers that call the store more than once

`handlePut` stores its chunk with `PutChunk` and reads its ack with `Progress`.
`handleComplete` reads the clock, verifies its decoded request against that reading, calls
`CheckAndMarkReplay`, checks the sender with `GetTransfer` and seals with
`CompleteTransfer`. Each call is one step under the lock of the store, and between two of
them any other handler can run. `handlers` is the shard at that grain : a handler under way
is a `Task`, a step runs one task up to its next call, and the calls of all other handlers
come in between.

`storeCall` is the call a step makes and `step_store` says that a step changes the store by
that call alone. `NewTask` is what a step must have checked to leave a task behind.
-/

namespace FileRelay

/-- What a handler under way does next. -/
inductive Task
  /-- `handlePut`, its chunk accepted : `Progress`. -/
  | ackPut (c : ChunkUpload)
  /-- `handleComplete`, the clock read : decode, verify, `CheckAndMarkReplay`. -/
  | checkComplete (entry : ℤ)
  /-- `handleComplete`, the replay test passed : `GetTransfer`. -/
  | findSender (r : TransferComplete) (entry : ℤ)
  /-- `handleComplete`, the sender found to be the one : `CompleteTransfer`. -/
  | sealTransfer (r : TransferComplete) (entry : ℤ)

/-- The store, and for each handler started its task until it is done. -/
structure HandlerState where
  store : MemStore
  tasks : List (Option Task)

/-- A call of some other handler. Only `handleComplete` calls `CompleteTransfer`. -/
structure OtherCall where
  event : Event
  other : ∀ r, event.op ≠ .completeTransfer r

inductive HandlerEvent
  | call (c : OtherCall)
  | put (now : ℤ) (c : ChunkUpload)
  | enter (now : ℤ)
  | check (task : ℕ) (now : ℤ) (r : TransferComplete)
  | next (task : ℕ) (now : ℤ)

inductive HandlerOutput
  | quiet
  | refused (e : ProtocolError)
  | called (out : Output)
  | acked (c : ChunkUpload) (a : ChunkAck)
  | completed (r : TransferComplete)

variable (H : Bytes → Digest) (verify : Verifier)

/-- The handler `k` goes on with `task`, or is done, and leaves the store `store`. -/
def HandlerState.proceed (s : HandlerState) (k : ℕ) (store : MemStore) (task : Option Task) :
    HandlerState :=
  ⟨store, s.tasks.set k task⟩

/-- `handlePut` on a decoded body. -/
def handlePut (s : HandlerState) (now : ℤ) (c : ChunkUpload) : HandlerState × HandlerOutput :=
  match putChunk H s.store now c with
  | (store, .error e) => (⟨store, s.tasks⟩, .refused e)
  | (store, .ok _) => (⟨store, s.tasks ++ [some (.ackPut c)]⟩, .quiet)

/-- `handlePut` from `Progress` on, to the record it marshals. -/
def finishPut (s : HandlerState) (k : ℕ) (now : ℤ) (c : ChunkUpload) :
    HandlerState × HandlerOutput :=
  let tid := copyArr 16 c.transferID
  match progress s.store now tid with
  | (store, .error e) => (s.proceed k store none, .refused e)
  | (store, .ok (rv, _)) => (s.proceed k store none, .acked c (chunkAckOf tid rv))

/-- `handleComplete` on a decoded body, up to the replay test. -/
def verifyComplete (s : HandlerState) (k : ℕ) (now entry : ℤ) (r : TransferComplete) :
    HandlerState × HandlerOutput :=
  match authComplete verify r entry with
  | .error e => (s.proceed k s.store none, .refused e)
  | .ok () =>
    match checkAndMarkReplay s.store now (replayKey H replayDomainComplete r.senderPub r.nonce) with
    | (store, true) =>
      (s.proceed k store none, .refused ⟨.replayDetected, "replay detected", 0⟩)
    | (store, false) => (s.proceed k store (some (.findSender r entry)), .quiet)

/-- The sender check of `handleComplete`. -/
def checkSender (s : HandlerState) (k : ℕ) (now entry : ℤ) (r : TransferComplete) :
    HandlerState × HandlerOutput :=
  match getTransfer s.store now (copyArr 16 r.transferID) with
  | (store, .error e) => (s.proceed k store none, .refused e)
  | (store, .ok tv) =>
    if tv.senderPub ≠ r.senderPub then
      (s.proceed k store none, .refused ⟨.authFailed, "sender mismatch", 0⟩)
    else (s.proceed k store (some (.sealTransfer r entry)), .quiet)

/-- The end of `handleComplete`. -/
def finishComplete (s : HandlerState) (k : ℕ) (now : ℤ) (r : TransferComplete) :
    HandlerState × HandlerOutput :=
  match completeTransfer s.store now r with
  | (store, .error e) => (s.proceed k store none, .refused e)
  | (store, .ok _) => (s.proceed k store none, .completed r)

def handlerStep (s : HandlerState) : HandlerEvent → HandlerState × HandlerOutput
  | .call c =>
    let t := (store H).step s.store c.event
    (⟨t.1, s.tasks⟩, .called t.2)
  | .put now c => handlePut H s now c
  | .enter now => (⟨s.store, s.tasks ++ [some (.checkComplete now)]⟩, .quiet)
  | .check k now r =>
    match s.tasks[k]? with
    | some (some (.checkComplete entry)) => verifyComplete H verify s k now entry r
    | _ => (s, .quiet)
  | .next k now =>
    match s.tasks[k]? with
    | some (some (.ackPut c)) => finishPut s k now c
    | some (some (.findSender r entry)) => checkSender s k now entry r
    | some (some (.sealTransfer r _)) => finishComplete s k now r
    | _ => (s, .quiet)

/-- The handlers as a machine. -/
def handlers : Machine HandlerState HandlerEvent HandlerOutput where
  step := handlerStep H verify

/-- No handler has started. -/
def newHandlers : HandlerState :=
  ⟨newMemStore, []⟩

/-! ## The call a step makes -/

/-- The call a step makes, if it makes one. -/
def HandlerState.storeCall (s : HandlerState) : HandlerEvent → Option Event
  | .call c => some c.event
  | .put now c => some ⟨now, .putChunk c⟩
  | .enter _ => none
  | .check k now r =>
    match s.tasks[k]? with
    | some (some (.checkComplete entry)) =>
      if authComplete verify r entry = .ok () then
        some ⟨now, .checkAndMarkReplay (replayKey H replayDomainComplete r.senderPub r.nonce)⟩
      else none
    | _ => none
  | .next k now =>
    match s.tasks[k]? with
    | some (some (.ackPut c)) => some ⟨now, .progress (copyArr 16 c.transferID)⟩
    | some (some (.findSender r _)) => some ⟨now, .getTransfer (copyArr 16 r.transferID)⟩
    | some (some (.sealTransfer r _)) => some ⟨now, .completeTransfer r⟩
    | _ => none

/-- The store after the call, if there is one. -/
def afterCall (s : MemStore) : Option Event → MemStore
  | none => s
  | some e => ((store H).step s e).1

/-- A step changes the store by the call it makes. -/
theorem step_store (s : HandlerState) (e : HandlerEvent) :
    ((handlers H verify).step s e).1.store = afterCall H s.store (s.storeCall H verify e) := by
  change (handlerStep H verify s e).1.store = _
  cases e with
  | call c => rfl
  | put now c =>
    change (handlePut H s now c).1.store = (putChunk H s.store now c).1
    unfold handlePut
    rcases putChunk H s.store now c with ⟨st, e | n⟩ <;> rfl
  | enter now => rfl
  | check k now r =>
    simp only [handlerStep, HandlerState.storeCall]
    rcases s.tasks[k]? with _ | _ | ⟨c⟩ | ⟨entry⟩ | ⟨r', entry⟩ | ⟨r', entry⟩ <;> try rfl
    simp only [verifyComplete]
    rcases authComplete verify r entry with e | ⟨⟩
    · rfl
    · simp only [if_true]
      change _ = (checkAndMarkReplay s.store now _).1
      rcases checkAndMarkReplay s.store now _ with ⟨st, _ | _⟩ <;> rfl
  | next k now =>
    simp only [handlerStep, HandlerState.storeCall]
    rcases s.tasks[k]? with _ | _ | ⟨c⟩ | ⟨entry⟩ | ⟨r, entry⟩ | ⟨r, entry⟩ <;> try rfl
    · change (finishPut s k now c).1.store = (progress s.store now _).1
      unfold finishPut
      dsimp only
      rcases progress s.store now (copyArr 16 c.transferID) with ⟨st, e | ⟨rv, tv⟩⟩ <;> rfl
    · change (checkSender s k now entry r).1.store = (getTransfer s.store now _).1
      unfold checkSender
      rcases getTransfer s.store now (copyArr 16 r.transferID) with ⟨st, e | tv⟩
      · rfl
      · dsimp only
        split_ifs <;> rfl
    · change (finishComplete s k now r).1.store = (completeTransfer s.store now r).1
      unfold finishComplete
      rcases completeTransfer s.store now r with ⟨st, e | _⟩ <;> rfl

/-- A call is another handler's, or one of those the two handlers here make. -/
theorem storeCall_cases {s : HandlerState} {e : HandlerEvent} {c : Event}
    (h : s.storeCall H verify e = some c) :
    (∃ other, e = .call ⟨c, other⟩) ∨ (∃ chunk, c.op = .putChunk chunk) ∨
      (∃ key, c.op = .checkAndMarkReplay key) ∨ (∃ tid, c.op = .progress tid) ∨
      (∃ tid, c.op = .getTransfer tid) ∨
      ∃ k r entry, e = .next k c.now ∧ s.tasks[k]? = some (some (.sealTransfer r entry)) ∧
        c.op = .completeTransfer r := by
  cases e with
  | call c' =>
    obtain rfl := Option.some.inj h
    exact Or.inl ⟨c'.other, rfl⟩
  | put now chunk =>
    obtain rfl := Option.some.inj h
    exact Or.inr (Or.inl ⟨chunk, rfl⟩)
  | enter now => cases h
  | check k now r =>
    simp only [HandlerState.storeCall] at h
    split at h
    · split_ifs at h
      obtain rfl := Option.some.inj h
      exact Or.inr (Or.inr (Or.inl ⟨_, rfl⟩))
    · cases h
  | next k now =>
    simp only [HandlerState.storeCall] at h
    split at h
    · obtain rfl := Option.some.inj h
      exact Or.inr (Or.inr (Or.inr (Or.inl ⟨_, rfl⟩)))
    · obtain rfl := Option.some.inj h
      exact Or.inr (Or.inr (Or.inr (Or.inr (Or.inl ⟨_, rfl⟩))))
    · rename_i r entry hk
      obtain rfl := Option.some.inj h
      exact Or.inr (Or.inr (Or.inr (Or.inr (Or.inr ⟨k, r, entry, rfl, hk, rfl⟩))))
    · cases h

/-- A create is a call of another handler. -/
theorem create_of_storeCall {s : HandlerState} {e : HandlerEvent} {c : Event} {r : TransferCreate}
    {id : ID} {ticket : Option (ByteArr 32)} (h : s.storeCall H verify e = some c)
    (hop : c.op = .createTransfer r id ticket) : ∃ other, e = .call ⟨c, other⟩ := by
  rcases storeCall_cases H verify h with h | ⟨_, h⟩ | ⟨_, h⟩ | ⟨_, h⟩ | ⟨_, h⟩ | ⟨_, _, _, _, _, h⟩
  · exact h
  all_goals
    rw [hop] at h
    cases h

/-- A property of the store that every call keeps holds after a step. -/
theorem store_keeps {P : MemStore → Prop} (hstep : ∀ s e, P s → P ((store H).step s e).1)
    (s : HandlerState) (e : HandlerEvent) (h : P s.store) :
    P ((handlers H verify).step s e).1.store := by
  rw [step_store]
  unfold afterCall
  split
  · exact h
  · exact hstep _ _ h

theorem handlers_storeInv (es : List HandlerEvent) :
    StoreInv H ((handlers H verify).run newHandlers es).store :=
  Machine.run_induction (P := fun s : HandlerState => StoreInv H s.store)
    (store_keeps H verify storeInv_step) storeInv_newMemStore es

/-! ## The tasks a step leaves behind -/

/-- What a step has established when it leaves a new task. -/
inductive NewTask (s : HandlerState) : HandlerEvent → Task → Prop
  | accepted {now : ℤ} {c : ChunkUpload} {n : ℕ} (h : (putChunk H s.store now c).2 = .ok n) :
    NewTask s (.put now c) (.ackPut c)
  | entered (now : ℤ) : NewTask s (.enter now) (.checkComplete now)
  | verified {k : ℕ} {now entry : ℤ} {r : TransferComplete}
      (hk : s.tasks[k]? = some (some (.checkComplete entry)))
      (ha : authComplete verify r entry = .ok ())
      (hr : (checkAndMarkReplay s.store now
        (replayKey H replayDomainComplete r.senderPub r.nonce)).2 = false) :
    NewTask s (.check k now r) (.findSender r entry)
  | found {k : ℕ} {now entry : ℤ} {r : TransferComplete} {t : TransferData}
      (hk : s.tasks[k]? = some (some (.findSender r entry)))
      (ht : s.store.transfers.lookup (copyArr 16 r.transferID) = some t)
      (hp : t.senderPub = r.senderPub) :
    NewTask s (.next k now) (.sealTransfer r entry)

theorem mem_proceed {s : HandlerState} {k : ℕ} {st : MemStore} {o : Option Task} {task : Task}
    (h : some task ∈ (s.proceed k st o).tasks) : some task ∈ s.tasks ∨ o = some task := by
  rcases List.mem_or_eq_of_mem_set h with h | h
  · exact Or.inl h
  · exact Or.inr h.symm

theorem mem_tasks_done {s : HandlerState} {k : ℕ} {st : MemStore} {task : Task}
    (h : some task ∈ (s.proceed k st none).tasks) : some task ∈ s.tasks := by
  rcases mem_proceed h with h | h
  · exact h
  · cases h

/-- A task is there before the step, or is a new one. -/
theorem tasks_step (s : HandlerState) (e : HandlerEvent) (task : Task)
    (h : some task ∈ ((handlers H verify).step s e).1.tasks) :
    some task ∈ s.tasks ∨ NewTask H verify s e task := by
  change some task ∈ (handlerStep H verify s e).1.tasks at h
  cases e with
  | call c => exact Or.inl h
  | put now c =>
    simp only [handlerStep, handlePut] at h
    rcases hp : putChunk H s.store now c with ⟨st, e | n⟩
    · rw [hp] at h
      exact Or.inl h
    · rw [hp] at h
      rcases List.mem_append.mp h with h | h
      · exact Or.inl h
      · obtain rfl := Option.some.inj (List.mem_singleton.mp h)
        exact Or.inr (.accepted (by rw [hp]))
  | enter now =>
    rcases List.mem_append.mp h with h | h
    · exact Or.inl h
    · obtain rfl := Option.some.inj (List.mem_singleton.mp h)
      exact Or.inr (.entered now)
  | check k now r =>
    simp only [handlerStep] at h
    split at h
    · rename_i entry hk
      simp only [verifyComplete] at h
      rcases ha : authComplete verify r entry with e | ⟨⟩
      · rw [ha] at h
        exact Or.inl (mem_tasks_done h)
      · simp only [ha] at h
        rcases hr : checkAndMarkReplay s.store now
          (replayKey H replayDomainComplete r.senderPub r.nonce) with ⟨st, _ | _⟩
        · rw [hr] at h
          rcases mem_proceed h with h | h
          · exact Or.inl h
          · obtain rfl := Option.some.inj h
            exact Or.inr (.verified hk ha (by rw [hr]))
        · rw [hr] at h
          exact Or.inl (mem_tasks_done h)
    · exact Or.inl h
  | next k now =>
    simp only [handlerStep] at h
    split at h
    · simp only [finishPut] at h
      split at h <;> exact Or.inl (mem_tasks_done h)
    · rename_i r entry hk
      simp only [checkSender] at h
      split at h
      · exact Or.inl (mem_tasks_done h)
      · rename_i st tv hg
        have hok : (getTransfer s.store now (copyArr 16 r.transferID)).2 = .ok tv := by rw [hg]
        obtain ⟨t, ht, -, hview⟩ := onTransfer_eq_ok hok
        split_ifs at h with hp
        · exact Or.inl (mem_tasks_done h)
        · rcases mem_proceed h with h | h
          · exact Or.inl h
          · obtain rfl := Option.some.inj h
            refine Or.inr (.found hk ht ?_)
            obtain rfl := Except.ok.inj hview
            exact not_not.mp hp
    · simp only [finishComplete] at h
      split at h <;> exact Or.inl (mem_tasks_done h)
    · exact Or.inl h

end FileRelay
