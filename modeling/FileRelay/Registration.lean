import FileRelay.Router
import FileRelay.TransferInv
import Mathlib.Data.Fintype.Pigeonhole

/-!
# Register and resolve agree

A mailbox lives on one shard only : the one `findShard` finds under the URL `Owner` picks. Every
`CreateMailbox` goes there (`Placed`), and every resolve asks there first. So once a register has
created a mailbox, and until it expires, resolves and registers of its key answer the same.

`register_resolve_agree` states it for all interleavings. It has two conditions that cannot be
dropped (`register_resolve_disagree`). A resolve that asked the owner before the mailbox was
there goes on to the other URLs, and finds it under one of them if that leads to the same store.
And a key with the same mailbox id takes the mailbox over.
-/

namespace FileRelay.Router

open NanoPack (Codec)

/-- The mailbox of a key. -/
def Config.mailboxOf (cfg : Config) (mac : Bytes → Bytes → Digest) (pub : Bytes) : ID :=
  mailboxIDFromPub mac cfg.secret pub

/-- The URL a mailbox is placed under. -/
def Config.home (cfg : Config) (H : Bytes → Digest) (mid : ID) : Bytes :=
  owner H mid cfg.shardURLs

/-- No other URL leads to the store of this one. -/
def Config.Sole (cfg : Config) (url : Bytes) : Prop :=
  ∀ u ref ref', cfg.findShard u = some ref → cfg.findShard url = some ref' →
    ref.store = ref'.store → u = url

/-- An act other than a `CreateMailbox` from outside. -/
def Event.Allowed (e : Event) : Prop :=
  ∀ i mid hash, e.act ≠ .call i (.createMailbox mid hash)

variable {np : Codec} {H : Bytes → Digest} {verify : Verifier} {mac : Bytes → Bytes → Digest}
  {cfg : Config}

/-! ## One step of a task -/

section

variable (H mac cfg)

/-- What a step of a task can do to the stores and to the task, and what it shows. -/
inductive Moves (s : State) (now : ℤ) : Task → (ℕ → MemStore) → Task → Reply → Prop
  | refused (t : Task) (e : WireError) : Moves s now t s.stores .done (.refused e)
  | admitted (ip raw : Bytes) (entry : ℤ) :
    Moves s now (.registering ip raw entry) s.stores (.admitted raw entry) .quiet
  | checked (raw : Bytes) (req : Register) (entry : ℤ) :
    Moves s now (.admitted raw entry) s.stores (.checked req entry) .quiet
  | created {req : Register} {entry : ℤ} {mid : ID} {ref : ShardRef} (secret : ByteArr 32)
      (hid : mid = cfg.mailboxOf mac req.clientPub)
      (hfind : cfg.findShard (cfg.home H mid) = some ref) :
    Moves s now (.checked req entry)
      (Function.update s.stores ref.store
        (callStore H (s.stores ref.store) now (.createMailbox mid (H secret.toList))).1)
      (.created req.clientPub mid secret (cfg.home H mid) entry)
      (.created req.clientPub mid secret)
  | registered {mid : ID} {primary : Bytes} {r : RegisterResponse} (pub : Bytes)
      (secret : ByteArr 32) (entry : ℤ) (body : Bytes) (hid : r.mailboxID = mid.toList)
      (hurl : r.shardURL = primary) :
    Moves s now (.created pub mid secret primary entry) s.stores .done (.registered pub r body)
  | began {mid : ID} (ip raw pub : Bytes) (entry : ℤ) (others : List Bytes)
      (hid : mid = cfg.mailboxOf mac pub) :
    Moves s now (.resolving ip raw entry) s.stores
      (.probing pub mid (cfg.home H mid) (cfg.home H mid :: others)) .quiet
  | missed {mid : ID} {u : Bytes} (pub primary : Bytes) (left : List Bytes)
      (hex : ∀ ref, cfg.findShard u = some ref →
        mailboxExists (s.stores ref.store) now mid = false) :
    Moves s now (.probing pub mid primary (u :: left)) s.stores (.probing pub mid primary left)
      .quiet
  | found {mid : ID} {u : Bytes} {ref : ShardRef} (pub primary : Bytes) (left : List Bytes)
      (hfind : cfg.findShard u = some ref)
      (hex : mailboxExists (s.stores ref.store) now mid = true) :
    Moves s now (.probing pub mid primary (u :: left)) s.stores (.located pub mid u) .quiet
  | guessed (pub : Bytes) (mid : ID) (primary : Bytes) :
    Moves s now (.probing pub mid primary []) s.stores (.located pub mid primary) .quiet
  | resolved {mid : ID} {url : Bytes} {r : ResolveResponse} (pub body : Bytes)
      (hid : r.mailboxID = mid.toList) (hurl : r.shardURL = url) :
    Moves s now (.located pub mid url) s.stores .done (.resolved pub r body)
  | idle : Moves s now .done s.stores .done .quiet

end

theorem advance_moves (s : State) (now : ℤ) (draw : Option (ByteArr 32)) (t : Task) :
    Moves H mac cfg s now t (advance np H verify mac cfg s now draw t).1.stores
      (advance np H verify mac cfg s now draw t).2.1
      (advance np H verify mac cfg s now draw t).2.2 := by
  cases t with
  | registering ip raw entry =>
    simp only [advance, registerLimit]
    split
    · exact .refused _ _
    · exact .admitted ip raw entry
  | admitted raw entry =>
    simp only [advance, registerCheck]
    split
    · exact .refused _ _
    split
    · exact .refused _ _
    split
    · exact .refused _ _
    split
    · exact .refused _ _
    · exact .checked raw _ entry
  | checked req entry =>
    simp only [advance, registerCreate]
    split_ifs
    · exact .refused _ _
    · exact .refused _ _
    split
    · exact .refused _ _
    · next ref hfind =>
      cases draw with
      | none => exact .refused _ _
      | some secret => exact .created secret rfl hfind
  | created pub mid secret primary entry =>
    simp only [advance, registerAnswer]
    split
    · exact .refused _ _
    · next body _ => exact .registered pub secret entry body rfl rfl
  | resolving ip raw entry =>
    simp only [advance, resolveStart]
    split
    · exact .refused _ _
    split
    · exact .refused _ _
    split
    · exact .refused _ _
    split_ifs
    · exact .refused _ _
    · exact .began ip raw _ entry _ rfl
  | probing pub mid primary left =>
    cases left with
    | nil => exact .guessed pub mid primary
    | cons u left =>
      simp only [advance, resolveProbe]
      split
      · next hfind =>
        refine .missed pub primary left fun ref h => ?_
        rw [hfind] at h
        cases h
      · next ref hfind =>
        split_ifs with hex
        · exact .found pub primary left hfind hex
        · refine .missed pub primary left fun ref' h => ?_
          rw [hfind] at h
          cases h
          exact Bool.eq_false_iff.mpr hex
  | located pub mid url =>
    simp only [advance, resolveAnswer]
    split
    · exact .refused _ _
    · next body _ => exact .resolved pub body rfl rfl
  | done => exact .idle

theorem advance_tasks (s : State) (now : ℤ) (draw : Option (ByteArr 32)) (t : Task) :
    (advance np H verify mac cfg s now draw t).1.tasks = s.tasks := by
  cases t with
  | registering ip raw entry =>
    simp only [advance, registerLimit]
    split <;> rfl
  | admitted raw entry =>
    simp only [advance, registerCheck]
    repeat' split
    all_goals rfl
  | checked req entry =>
    simp only [advance, registerCreate]
    repeat' split
    all_goals rfl
  | created pub mid secret primary entry =>
    simp only [advance, registerAnswer]
    split <;> rfl
  | resolving ip raw entry =>
    simp only [advance, resolveStart]
    repeat' split
    all_goals rfl
  | probing pub mid primary left =>
    simp only [advance]
    unfold resolveProbe
    repeat' split
    all_goals rfl
  | located pub mid url =>
    simp only [advance, resolveAnswer]
    split <;> rfl
  | done => rfl

/-! ## One step of the router -/

section

variable {s : State} {e : Event}

variable (np H verify mac cfg) in
theorem step_advance (now : ℤ) (draw : Option (ByteArr 32)) {k : ℕ} {t : Task}
    (h : s.tasks[k]? = some t) :
    ∃ t', Moves H mac cfg s now t
        ((service np H verify mac cfg).step s ⟨now, .advance k draw⟩).1.stores t'
        ((service np H verify mac cfg).step s ⟨now, .advance k draw⟩).2 ∧
      ((service np H verify mac cfg).step s ⟨now, .advance k draw⟩).1.tasks =
        s.tasks.set k t' := by
  simp only [service, routerStep, h, advance_tasks]
  exact ⟨_, advance_moves s now draw t, rfl⟩

theorem step_advance_none {now : ℤ} {k : ℕ} {draw : Option (ByteArr 32)}
    (h : s.tasks[k]? = none) :
    (service np H verify mac cfg).step s ⟨now, .advance k draw⟩ = (s, .quiet) := by
  simp only [service, routerStep, h]

/-- Where a task comes from : it is there already, it arrives, or it is the result of its own
step. -/
theorem task_step {k : ℕ} {t' : Task}
    (h : ((service np H verify mac cfg).step s e).1.tasks[k]? = some t') :
    s.tasks[k]? = some t' ∨
    (∃ ip raw, t' = .registering ip raw e.now ∨ t' = .resolving ip raw e.now) ∨
    ∃ draw t, e.act = .advance k draw ∧ s.tasks[k]? = some t ∧
      Moves H mac cfg s e.now t ((service np H verify mac cfg).step s e).1.stores t'
        ((service np H verify mac cfg).step s e).2 := by
  obtain ⟨now, act⟩ := e
  have arrives : ∀ t, (s.tasks ++ [t])[k]? = some t' → s.tasks[k]? = some t' ∨ t' = t := by
    intro t ht
    rw [List.getElem?_append] at ht
    split_ifs at ht with hk
    · exact Or.inl ht
    · exact Or.inr (List.mem_singleton.mp (List.mem_of_getElem? ht))
  cases act with
  | register ip raw =>
    exact (arrives _ h).imp_right fun ht => Or.inl ⟨ip, raw, Or.inl ht⟩
  | resolve ip raw =>
    exact (arrives _ h).imp_right fun ht => Or.inl ⟨ip, raw, Or.inr ht⟩
  | advance j draw =>
    cases hj : s.tasks[j]? with
    | none =>
      rw [step_advance_none hj] at h
      exact Or.inl h
    | some t =>
      obtain ⟨t₁, hmoves, htasks⟩ := step_advance np H verify mac cfg now draw hj
      rw [htasks, List.getElem?_set] at h
      split_ifs at h with hk hlen
      · cases h
        subst hk
        exact Or.inr (Or.inr ⟨draw, t, rfl, hj, hmoves⟩)
      · exact Or.inl h
  | call i op => exact Or.inl h

/-- What is shown beyond the answer of a store is shown by a step of a task. -/
theorem reply_step {o : Reply} (h : ((service np H verify mac cfg).step s e).2 = o)
    (hquiet : o ≠ .quiet) (hcalled : ∀ out, o ≠ .called out) :
    ∃ k draw t t', e.act = .advance k draw ∧ s.tasks[k]? = some t ∧
      Moves H mac cfg s e.now t ((service np H verify mac cfg).step s e).1.stores t' o := by
  subst h
  obtain ⟨now, act⟩ := e
  cases act with
  | register ip raw => exact absurd rfl hquiet
  | resolve ip raw => exact absurd rfl hquiet
  | advance k draw =>
    cases hk : s.tasks[k]? with
    | none =>
      rw [step_advance_none hk] at hquiet
      exact absurd rfl hquiet
    | some t =>
      obtain ⟨t', hmoves, -⟩ := step_advance np H verify mac cfg now draw hk
      exact ⟨k, draw, t, t', rfl, hk, hmoves⟩
  | call i op => exact absurd rfl (hcalled _)

theorem registered_step {pub body : Bytes} {r : RegisterResponse}
    (h : ((service np H verify mac cfg).step s e).2 = .registered pub r body) :
    ∃ k draw mid secret entry, e.act = .advance k draw ∧ r.mailboxID = mid.toList ∧
      s.tasks[k]? = some (.created pub mid secret r.shardURL entry) := by
  obtain ⟨k, draw, t, t', hact, hk, hmoves⟩ := reply_step h (by simp) (by simp)
  generalize ((service np H verify mac cfg).step s e).1.stores = stores at hmoves
  cases hmoves with
  | registered _ secret entry _ hid hurl =>
    subst hurl
    exact ⟨k, draw, _, secret, entry, hact, hid, hk⟩

theorem resolved_step {pub body : Bytes} {r : ResolveResponse}
    (h : ((service np H verify mac cfg).step s e).2 = .resolved pub r body) :
    ∃ k draw mid, e.act = .advance k draw ∧ r.mailboxID = mid.toList ∧
      s.tasks[k]? = some (.located pub mid r.shardURL) := by
  obtain ⟨k, draw, t, t', hact, hk, hmoves⟩ := reply_step h (by simp) (by simp)
  generalize ((service np H verify mac cfg).step s e).1.stores = stores at hmoves
  cases hmoves with
  | resolved _ _ hid hurl =>
    subst hurl
    exact ⟨k, draw, _, hact, hid, hk⟩

/-- A step that shows `created` is a `CreateMailbox` on the store the mailbox is placed on. -/
theorem created_step {pub : Bytes} {mid : ID} {secret : ByteArr 32}
    (h : ((service np H verify mac cfg).step s e).2 = .created pub mid secret) :
    ∃ ref, cfg.findShard (cfg.home H mid) = some ref ∧ mid = cfg.mailboxOf mac pub ∧
      ((service np H verify mac cfg).step s e).1.stores = Function.update s.stores ref.store
        (callStore H (s.stores ref.store) e.now (.createMailbox mid (H secret.toList))).1 := by
  obtain ⟨k, draw, t, t', hact, hk, hmoves⟩ := reply_step h (by simp) (by simp)
  generalize ((service np H verify mac cfg).step s e).1.stores = stores at hmoves ⊢
  cases hmoves with
  | created _ hid hfind => exact ⟨_, hfind, hid, rfl⟩

end

/-! ## The record of a mailbox -/

/-- What is left of a record comes from it, with its read secret, and an unexpired record is
left. -/
structure Kept (now : ℤ) (o o' : Option MailboxData) : Prop where
  before : ∀ {mb'}, o' = some mb' → ∃ mb, o = some mb ∧ mb'.readSecretHash = mb.readSecretHash
  after : ∀ {mb}, o = some mb → now < mb.expiresAt →
    ∃ mb', o' = some mb' ∧ mb'.readSecretHash = mb.readSecretHash

theorem Kept.refl (now : ℤ) (o : Option MailboxData) : Kept now o o :=
  ⟨fun h => ⟨_, h, rfl⟩, fun h _ => ⟨_, h, rfl⟩⟩

theorem kept_of_sameSecrets {s s' : MemStore} (h : SameSecrets s s') (now : ℤ) (mid : ID) :
    Kept now (s.mailboxes.lookup mid) (s'.mailboxes.lookup mid) := by
  have hmap := h mid
  constructor
  · intro mb' hmb'
    rw [hmb', Option.map_some] at hmap
    obtain ⟨mb, hmb, hsec⟩ := Option.map_eq_some_iff.mp hmap.symm
    exact ⟨mb, hmb, hsec.symm⟩
  · intro mb hmb _
    rw [hmb, Option.map_some] at hmap
    exact Option.map_eq_some_iff.mp hmap

theorem kept_sweep (s : MemStore) (now : ℤ) (mid : ID) :
    Kept now (s.mailboxes.lookup mid) ((sweep s now).1.mailboxes.lookup mid) := by
  rw [sweep_lookup_mailbox]
  cases hmb : s.mailboxes.lookup mid with
  | none => exact .refl now none
  | some mb =>
    rw [Option.bind_some]
    rcases sweepMailbox_eq s.transfers now mid mb with hk | ⟨hk, late, -⟩
    · rw [hk]
      exact ⟨fun h => ⟨mb, rfl, by cases h; rfl⟩, fun h _ => ⟨_, rfl, by cases h; rfl⟩⟩
    · rw [hk]
      refine ⟨nofun, fun h hl => ?_⟩
      cases h
      exact absurd hl (not_lt.mpr late)

/-- Calls other than `CreateMailbox`. -/
theorem kept_call (s : MemStore) (now : ℤ) {op : Op}
    (hop : ∀ mid hash, op ≠ .createMailbox mid hash) (mid : ID) :
    Kept now (s.mailboxes.lookup mid) ((callStore H s now op).1.mailboxes.lookup mid) := by
  by_cases hsweep : op = .sweep
  · subst hsweep
    exact kept_sweep s now mid
  · exact kept_of_sameSecrets (secrets_step H s now hop hsweep) now mid

theorem lookup_createMailbox (s : MemStore) (now : ℤ) (id : ID) (hash : Digest) :
    ∃ mb, (callStore H s now (.createMailbox id hash)).1.mailboxes.lookup id = some mb ∧
      mb.readSecretHash = hash := by
  simp only [callStore, withOutput_fst, createMailbox]
  split
  · exact ⟨_, by rw [lookup_setMailbox, if_pos rfl], rfl⟩
  · exact ⟨_, by rw [lookup_setMailbox, if_pos rfl], rfl⟩

theorem lookup_createMailbox_ne (s : MemStore) (now : ℤ) {mid id : ID} (hne : mid ≠ id)
    (hash : Digest) : (callStore H s now (.createMailbox id hash)).1.mailboxes.lookup mid =
      s.mailboxes.lookup mid := by
  simp only [callStore, withOutput_fst, createMailbox]
  split <;> rw [lookup_setMailbox, if_neg hne]

section

variable {s : State} {e : Event}

theorem Moves.kept {now : ℤ} {t t' : Task} {stores : ℕ → MemStore} {o : Reply} {mid : ID}
    (h : Moves H mac cfg s now t stores t' o) (hnot : ∀ pub secret, o ≠ .created pub mid secret)
    (i : ℕ) : Kept now ((s.stores i).mailboxes.lookup mid) ((stores i).mailboxes.lookup mid) := by
  cases h with
  | @created req entry id ref secret hid hfind =>
    have hne : mid ≠ id := fun h => hnot req.clientPub secret (by rw [h])
    by_cases hi : i = ref.store
    · subst hi
      rw [Function.update_self, lookup_createMailbox_ne _ now hne]
      exact .refl now _
    · rw [Function.update_of_ne hi]
      exact .refl now _
  | _ => exact .refl now _

/-- Unless a register creates the mailbox, its records are kept. -/
theorem kept_step (he : e.Allowed) {mid : ID}
    (hnot : ∀ pub secret, ((service np H verify mac cfg).step s e).2 ≠ .created pub mid secret)
    (i : ℕ) : Kept e.now ((s.stores i).mailboxes.lookup mid)
      ((((service np H verify mac cfg).step s e).1.stores i).mailboxes.lookup mid) := by
  obtain ⟨now, act⟩ := e
  cases act with
  | register ip raw => exact .refl now _
  | resolve ip raw => exact .refl now _
  | advance k draw =>
    cases hk : s.tasks[k]? with
    | none =>
      rw [step_advance_none hk]
      exact .refl now _
    | some t =>
      obtain ⟨t', hmoves, -⟩ := step_advance np H verify mac cfg now draw hk
      exact hmoves.kept hnot i
  | call j op =>
    change Kept now _ ((Function.update s.stores j (callStore H (s.stores j) now op).1 i
      ).mailboxes.lookup mid)
    by_cases hij : i = j
    · subst hij
      rw [Function.update_self]
      exact kept_call _ now (fun mid hash hop => he i mid hash (by rw [hop])) mid
    · rw [Function.update_of_ne hij]
      exact .refl now _

end

/-! ## Where mailboxes are -/

section

variable (H mac cfg)

/-- A task works on the mailbox of its key. A resolve ends with the owner, or with a URL that
leads to the store of the owner. -/
def Task.Placed : Task → Prop
  | .created pub mid _ primary _ => mid = cfg.mailboxOf mac pub ∧ primary = cfg.home H mid
  | .probing pub mid primary _ => mid = cfg.mailboxOf mac pub ∧ primary = cfg.home H mid
  | .located pub mid url => mid = cfg.mailboxOf mac pub ∧
    (url = cfg.home H mid ∨ ∃ ref ref', cfg.findShard url = some ref ∧
      cfg.findShard (cfg.home H mid) = some ref' ∧ ref'.store = ref.store)
  | _ => True

/-- Every mailbox is on the store of its owner, and so are the tasks. -/
structure Placed (s : State) : Prop where
  stores : ∀ i mid mb, (s.stores i).mailboxes.lookup mid = some mb →
    ∃ ref, cfg.findShard (cfg.home H mid) = some ref ∧ ref.store = i
  tasks : ∀ (k : ℕ) (t : Task), s.tasks[k]? = some t → t.Placed H mac cfg

end

theorem mailboxExists_eq_true {s : MemStore} {now : ℤ} {mid : ID} :
    mailboxExists s now mid = true ↔
      ∃ mb, s.mailboxes.lookup mid = some mb ∧ now < mb.expiresAt := by
  unfold mailboxExists
  cases h : s.mailboxes.lookup mid with
  | none => simp
  | some mb => simp

section

variable {s : State} {e : Event}

theorem Moves.placed {now : ℤ} {t t' : Task} {stores : ℕ → MemStore} {o : Reply}
    (h : Moves H mac cfg s now t stores t' o) (hs : Placed H mac cfg s)
    (ht : t.Placed H mac cfg) : t'.Placed H mac cfg := by
  cases h with
  | created secret hid hfind => exact ⟨hid, rfl⟩
  | began ip raw pub entry others hid => exact ⟨hid, rfl⟩
  | missed pub primary left hex => exact ht
  | found pub primary left hfind hex =>
    obtain ⟨mb, hmb, -⟩ := mailboxExists_eq_true.mp hex
    obtain ⟨ref', hhome, hstore⟩ := hs.stores _ _ mb hmb
    exact ⟨ht.1, Or.inr ⟨_, ref', hfind, hhome, hstore⟩⟩
  | guessed pub mid primary => exact ⟨ht.1, Or.inl ht.2⟩
  | _ => trivial

theorem placed_step (he : e.Allowed) (hs : Placed H mac cfg s) :
    Placed H mac cfg ((service np H verify mac cfg).step s e).1 := by
  constructor
  · intro i mid mb hmb
    by_cases hcreated : ∃ pub secret,
        ((service np H verify mac cfg).step s e).2 = .created pub mid secret
    · obtain ⟨pub, secret, hreply⟩ := hcreated
      obtain ⟨ref, hfind, -, hstores⟩ := created_step hreply
      rw [hstores] at hmb
      by_cases hi : i = ref.store
      · exact ⟨ref, hfind, hi.symm⟩
      · rw [Function.update_of_ne hi] at hmb
        exact hs.stores i mid mb hmb
    · have hnot := fun pub secret h => hcreated ⟨pub, secret, h⟩
      obtain ⟨mb₀, hmb₀, -⟩ := (kept_step he hnot i).before hmb
      exact hs.stores i mid mb₀ hmb₀
  · intro k t' ht'
    rcases task_step ht' with ht | ⟨ip, raw, rfl | rfl⟩ | ⟨draw, t, -, ht, hmoves⟩
    · exact hs.tasks k t' ht
    · trivial
    · trivial
    · exact hmoves.placed hs (hs.tasks k t ht)

end

theorem placed_start : Placed H mac cfg start :=
  ⟨fun _ _ _ h => absurd h (GoMap.lookup_empty_ne_some _ _), fun _ _ h => by cases h⟩

theorem placed_run_from {s : State} (hs : Placed H mac cfg s) {es : List Event}
    (hes : ∀ e ∈ es, e.Allowed) :
    Placed H mac cfg ((service np H verify mac cfg).run s es) :=
  Machine.along_induction (fun _ _ he hs => placed_step he hs) (Machine.along_of_forall hes) hs

variable (np H verify mac cfg) in
/-- After every run the mailboxes are where they belong. -/
theorem placed_run {es : List Event} (hes : ∀ e ∈ es, e.Allowed) :
    Placed H mac cfg ((service np H verify mac cfg).run start es) :=
  placed_run_from placed_start hes

/-! ## While a mailbox stands -/

/-- The secret a step issues for the mailbox `mid`. -/
def issued (mid : ID) : Reply → Option (ByteArr 32)
  | .created _ id secret => if id = mid then some secret else none
  | _ => none

/-- The secret of the last `CreateMailbox` of the mailbox `mid`. -/
def lastIssued (mid : ID) (trace : List (Event × Reply)) : Option (ByteArr 32) :=
  (trace.filterMap fun eo => issued mid eo.2).getLast?

section

variable (H mac cfg)

/-- The record of the mailbox of `pub`, where it is placed. -/
def recordOf (s : State) (pub : Bytes) : Option MailboxData := do
  let ref ← cfg.findShard (cfg.home H (cfg.mailboxOf mac pub))
  (s.stores ref.store).mailboxes.lookup (cfg.mailboxOf mac pub)

/-- The mailbox of `pub` has not expired at `now`. A mailbox that is not there has not expired
either. -/
def Unexpired (pub : Bytes) (s : State) (now : ℤ) : Prop :=
  ∀ mb, recordOf H mac cfg s pub = some mb → now < mb.expiresAt

instance (pub : Bytes) (s : State) (now : ℤ) : Decidable (Unexpired H mac cfg pub s now) :=
  decidable_of_iff ((recordOf H mac cfg s pub).all fun mb => now < mb.expiresAt)
    (by simp [Unexpired, Option.all_eq_true])

/-- A resolve of `pub` that has not gone past the owner. -/
def Task.AtOwner (pub : Bytes) : Task → Prop
  | .probing pub' _ primary left => pub' = pub → ∃ others, left = primary :: others
  | .located pub' mid url => pub' = pub → url = cfg.home H mid
  | _ => True

/-- The mailbox of `pub` is there with the read secret `secret`, and no resolve from the `n`-th
task on has gone past its owner. -/
structure Standing (pub : Bytes) (n : ℕ) (secret : ByteArr 32) (s : State) : Prop where
  record : ∃ mb, recordOf H mac cfg s pub = some mb ∧ mb.readSecretHash = H secret.toList
  tasks : ∀ (k : ℕ) (t : Task), n ≤ k → s.tasks[k]? = some t → t.AtOwner H cfg pub

end

theorem recordOf_eq_some {s : State} {pub : Bytes} {mb : MailboxData} :
    recordOf H mac cfg s pub = some mb ↔
      ∃ ref, cfg.findShard (cfg.home H (cfg.mailboxOf mac pub)) = some ref ∧
        (s.stores ref.store).mailboxes.lookup (cfg.mailboxOf mac pub) = some mb := by
  unfold recordOf
  rw [Option.bind_eq_bind, Option.bind_eq_some_iff]

section

variable {s : State} {e : Event} {pub : Bytes} {n : ℕ} {secret : ByteArr 32}

theorem Moves.atOwner {now : ℤ} {t t' : Task} {stores : ℕ → MemStore} {o : Reply}
    (h : Moves H mac cfg s now t stores t' o) (hplaced : t.Placed H mac cfg)
    {mb : MailboxData} (hmb : recordOf H mac cfg s pub = some mb) (hl : now < mb.expiresAt)
    (ht : t.AtOwner H cfg pub) : t'.AtOwner H cfg pub := by
  obtain ⟨ref, hfind, hlookup⟩ := recordOf_eq_some.mp hmb
  cases h with
  | began ip raw pub' entry others hid => exact fun _ => ⟨others, rfl⟩
  | missed pub' primary left hex =>
    intro hpub
    -- the owner has the mailbox, so it is not missed there
    subst hpub
    obtain ⟨rfl, rfl⟩ := hplaced
    obtain ⟨others, hleft⟩ := ht rfl
    obtain ⟨rfl, -⟩ := List.cons.inj hleft
    have hmiss := hex ref hfind
    rw [mailboxExists_eq_true.mpr ⟨mb, hlookup, hl⟩] at hmiss
    cases hmiss
  | found pub' primary left hfind' hex =>
    intro hpub
    obtain ⟨others, hleft⟩ := ht hpub
    obtain ⟨rfl, -⟩ := List.cons.inj hleft
    exact hplaced.2
  | guessed pub' mid primary =>
    intro hpub
    obtain ⟨others, hleft⟩ := ht hpub
    cases hleft
  | _ => trivial

theorem recordOf_created {pub' : Bytes}
    (h : ((service np H verify mac cfg).step s e).2 =
      .created pub' (cfg.mailboxOf mac pub) secret) :
    ∃ mb, recordOf H mac cfg ((service np H verify mac cfg).step s e).1 pub = some mb ∧
      mb.readSecretHash = H secret.toList := by
  obtain ⟨ref, hfind, -, hstores⟩ := created_step h
  obtain ⟨mb, hlookup, hsec⟩ := lookup_createMailbox (H := H) (s.stores ref.store) e.now
    (cfg.mailboxOf mac pub) (H secret.toList)
  refine ⟨mb, recordOf_eq_some.mpr ⟨ref, hfind, ?_⟩, hsec⟩
  rw [hstores, Function.update_self, hlookup]

/-- One step while the mailbox has not expired. -/
theorem standing_step (he : e.Allowed) (hp : Placed H mac cfg s)
    (hs : Standing H mac cfg pub n secret s) (hl : Unexpired H mac cfg pub s e.now) :
    Standing H mac cfg pub n
      ((issued (cfg.mailboxOf mac pub) ((service np H verify mac cfg).step s e).2).getD secret)
      ((service np H verify mac cfg).step s e).1 := by
  obtain ⟨mb, hmb, hsec⟩ := hs.record
  constructor
  · by_cases hcreated : ∃ pub' secret', ((service np H verify mac cfg).step s e).2 =
        .created pub' (cfg.mailboxOf mac pub) secret'
    · obtain ⟨pub', secret', hreply⟩ := hcreated
      rw [hreply, issued, if_pos rfl]
      exact recordOf_created hreply
    · have hnot := fun pub' secret' h => hcreated ⟨pub', secret', h⟩
      have hnone : issued (cfg.mailboxOf mac pub)
          ((service np H verify mac cfg).step s e).2 = none := by
        unfold issued
        split
        · next pub' id secret' hreply =>
          refine if_neg ?_
          rintro rfl
          exact hnot pub' secret' hreply
        · rfl
      obtain ⟨ref, hfind, hlookup⟩ := recordOf_eq_some.mp hmb
      obtain ⟨mb', hmb', hsec'⟩ := (kept_step he hnot ref.store).after hlookup (hl mb hmb)
      rw [hnone]
      exact ⟨mb', recordOf_eq_some.mpr ⟨ref, hfind, hmb'⟩, hsec'.trans hsec⟩
  · intro k t' hk ht'
    rcases task_step ht' with ht | ⟨ip, raw, rfl | rfl⟩ | ⟨draw, t, -, ht, hmoves⟩
    · exact hs.tasks k t' hk ht
    · trivial
    · trivial
    · exact hmoves.atOwner (hp.tasks k t ht) hmb (hl mb hmb) (hs.tasks k t hk ht)

end

theorem lastIssued_cons (mid : ID) (e : Event) (o : Reply) (trace : List (Event × Reply))
    (secret : ByteArr 32) : (lastIssued mid ((e, o) :: trace)).getD secret =
      (lastIssued mid trace).getD ((issued mid o).getD secret) := by
  unfold lastIssued
  rw [List.filterMap_cons]
  cases issued mid o with
  | none => rfl
  | some secret' => rw [List.getLast?_cons]; rfl

/-- A run while the mailbox has not expired. -/
theorem standing_run {pub : Bytes} {n : ℕ} : ∀ {es : List Event} {s : State}
    {secret : ByteArr 32}, (∀ e ∈ es, e.Allowed) → Placed H mac cfg s →
    Standing H mac cfg pub n secret s →
    (service np H verify mac cfg).Along (fun s e => Unexpired H mac cfg pub s e.now) s es →
    Standing H mac cfg pub n
      ((lastIssued (cfg.mailboxOf mac pub)
        ((service np H verify mac cfg).trace s es)).getD secret)
      ((service np H verify mac cfg).run s es)
  | [], _, _, _, _, hs, _ => hs
  | e :: es, s, secret, hes, hp, hs, hl => by
    have he := hes e List.mem_cons_self
    rw [Machine.trace_cons, lastIssued_cons]
    exact standing_run (fun e' he' => hes e' (.tail e he')) (placed_step he hp)
      (standing_step he hp hs hl.1) hl.2

/-! ## What is answered -/

section

variable {s : State} {e : Event} {pub body : Bytes}

theorem registered_placed {r : RegisterResponse} (hp : Placed H mac cfg s)
    (h : ((service np H verify mac cfg).step s e).2 = .registered pub r body) :
    r.mailboxID = (cfg.mailboxOf mac pub).toList ∧
      r.shardURL = cfg.home H (cfg.mailboxOf mac pub) := by
  obtain ⟨k, draw, mid, secret, entry, -, hid, htask⟩ := registered_step h
  obtain ⟨rfl, hurl⟩ := hp.tasks k _ htask
  exact ⟨hid, hurl⟩

/-- A resolve answers the owner if no other URL leads to its store, or if it arrived after the
mailbox was created. -/
theorem resolved_placed {r : ResolveResponse} {n k : ℕ} {secret : ByteArr 32} {now : ℤ}
    {draw : Option (ByteArr 32)} (hp : Placed H mac cfg s)
    (hs : Standing H mac cfg pub n secret s)
    (hn : n ≤ k ∨ cfg.Sole (cfg.home H (cfg.mailboxOf mac pub)))
    (h : ((service np H verify mac cfg).step s ⟨now, .advance k draw⟩).2 =
      .resolved pub r body) :
    r.mailboxID = (cfg.mailboxOf mac pub).toList ∧
      r.shardURL = cfg.home H (cfg.mailboxOf mac pub) := by
  obtain ⟨k', draw', mid, hact, hid, htask⟩ := resolved_step h
  cases hact
  obtain ⟨rfl, hurl⟩ := hp.tasks k _ htask
  refine ⟨hid, ?_⟩
  rcases hn with hn | hsole
  · exact hs.tasks k _ hn htask rfl
  · rcases hurl with hurl | ⟨ref, ref', hfind, hhome, hstore⟩
    · exact hurl
    · exact hsole _ ref ref' hfind hhome hstore.symm

end

/-- The step that brought a register past `CreateMailbox`. -/
theorem exists_created {k : ℕ} {pub primary : Bytes} {mid : ID} {secret : ByteArr 32} {entry : ℤ}
    (es : List Event)
    (h : ((service np H verify mac cfg).run start es).tasks[k]? =
      some (.created pub mid secret primary entry)) :
    ∃ pre e post s₁, es = pre ++ e :: post ∧ (∃ draw, e.act = .advance k draw) ∧
      (service np H verify mac cfg).step ((service np H verify mac cfg).run start pre) e =
        (s₁, .created pub mid secret) := by
  induction es using List.reverseRecOn with
  | nil => cases h
  | append_singleton es e ih =>
    rw [Machine.run_concat] at h
    rcases task_step h with ht | ⟨ip, raw, ht | ht⟩ | ⟨draw, t, hact, -, hmoves⟩
    · obtain ⟨pre, e', post, s₁, rfl, hact, hstep⟩ := ih ht
      exact ⟨pre, e', post ++ [e], s₁, by simp, hact, hstep⟩
    · cases ht
    · cases ht
    · generalize hstep : (service np H verify mac cfg).step
        ((service np H verify mac cfg).run start es) e = r at hmoves
      obtain ⟨s₁, o⟩ := r
      refine ⟨es, e, [], s₁, rfl, ⟨draw, hact⟩, hstep.trans ?_⟩
      generalize s₁.stores = stores at hmoves
      cases hmoves with
      | created _ hid hfind => rfl

/-! ## Agreement -/

/-- The secret a register of `pub` issues. -/
def issuedTo (pub : Bytes) : Reply → Option (ByteArr 32)
  | .created pub' _ secret => if pub' = pub then some secret else none
  | _ => none

/-- The secret of the register of `pub` whose `CreateMailbox` ran last. -/
def lastIssuedTo (pub : Bytes) (trace : List (Event × Reply)) : Option (ByteArr 32) :=
  (trace.filterMap fun eo => issuedTo pub eo.2).getLast?

/-- If no other key shares the mailbox, its last secret is the last of the key. -/
theorem lastIssued_eq_lastIssuedTo {es : List Event} {pub : Bytes}
    (h : ∀ e pub' secret, (e, Reply.created pub' (cfg.mailboxOf mac pub) secret) ∈
      (service np H verify mac cfg).trace start es → pub' = pub) :
    lastIssued (cfg.mailboxOf mac pub) ((service np H verify mac cfg).trace start es) =
      lastIssuedTo pub ((service np H verify mac cfg).trace start es) := by
  unfold lastIssued lastIssuedTo
  refine congrArg List.getLast? (List.filterMap_congr fun eo heo => ?_)
  obtain ⟨e, o⟩ := eo
  cases o with
  | created pub' mid secret =>
    obtain ⟨pre, post, -, hreply⟩ := Machine.mem_trace.mp heo
    obtain ⟨-, -, hid, -⟩ := created_step hreply.symm
    simp only [issued, issuedTo]
    by_cases hpub : pub' = pub
    · rw [if_pos hpub, if_pos (by rw [hid, hpub])]
    · rw [if_neg hpub, if_neg]
      intro hmid
      rw [hmid] at heo
      exact hpub (h e pub' secret heo)
  | _ => rfl

section

variable (np H verify mac cfg)

/-- What the answer `r` to a register of `pub` promises. `trace` is the whole run and `later`
the part since the register created the mailbox, `n` is the number of tasks then, and `s` is the
state at the end. -/
structure Agreement (pub : Bytes) (r : RegisterResponse) (n : ℕ)
    (trace later : List (Event × Reply)) (s : State) : Prop where
  mailbox : r.mailboxID = (cfg.mailboxOf mac pub).toList
  registers : ∀ e r' body, (e, Reply.registered pub r' body) ∈ trace →
    r'.mailboxID = r.mailboxID ∧ r'.shardURL = r.shardURL
  resolves : ∀ now k draw r' body,
    (⟨now, .advance k draw⟩, Reply.resolved pub r' body) ∈ later →
      n ≤ k ∨ cfg.Sole r.shardURL → r'.mailboxID = r.mailboxID ∧ r'.shardURL = r.shardURL
  stands : ∃ ref, cfg.findShard r.shardURL = some ref ∧
    (∀ now, Unexpired H mac cfg pub s now →
      mailboxExists (s.stores ref.store) now (cfg.mailboxOf mac pub) = true) ∧
    ∃ secret, lastIssued (cfg.mailboxOf mac pub) trace = some secret ∧
      checkReadSecret H (s.stores ref.store) (cfg.mailboxOf mac pub) secret.toList = true ∧
      ((∀ e pub' secret', (e, Reply.created pub' (cfg.mailboxOf mac pub) secret') ∈ trace →
        pub' = pub) → lastIssuedTo pub trace = some secret)

end

theorem checkReadSecret_of_hash {s : MemStore} {mid : ID} {mb : MailboxData}
    {secret : ByteArr 32} (h : s.mailboxes.lookup mid = some mb)
    (hsec : mb.readSecretHash = H secret.toList) :
    checkReadSecret H s mid secret.toList = true := by
  simp [checkReadSecret, h, hsec]

theorem lastIssued_append (mid : ID) (tr tr' : List (Event × Reply)) {secret : ByteArr 32}
    (h : lastIssued mid tr = some secret) :
    lastIssued mid (tr ++ tr') = some ((lastIssued mid tr').getD secret) := by
  unfold lastIssued at *
  rw [List.filterMap_append, List.getLast?_append, h]
  cases (tr'.filterMap fun eo => issued mid eo.2).getLast? <;> rfl

theorem lastIssued_concat (tr : List (Event × Reply)) (e : Event) (pub : Bytes) (mid : ID)
    (secret : ByteArr 32) :
    lastIssued mid (tr ++ [(e, .created pub mid secret)]) = some secret := by
  unfold lastIssued
  rw [List.filterMap_append]
  simp [issued]

/-- The mailbox stands right after its `CreateMailbox`. -/
theorem standing_created {s s₁ : State} {e : Event} {pub : Bytes} {secret : ByteArr 32}
    (h : (service np H verify mac cfg).step s e =
      (s₁, .created pub (cfg.mailboxOf mac pub) secret)) :
    Standing H mac cfg pub s₁.tasks.length secret s₁ := by
  have hrecord := recordOf_created (congrArg Prod.snd h)
  rw [h] at hrecord
  refine ⟨hrecord, fun k t hk ht => ?_⟩
  rw [List.getElem?_eq_none hk] at ht
  cases ht

section

variable {pre post : List Event} {e : Event} {pub : Bytes} {s₁ : State} {secret : ByteArr 32}

theorem placed_created (hes : ∀ x ∈ pre ++ e :: post, x.Allowed)
    (hcreated : (service np H verify mac cfg).step
      ((service np H verify mac cfg).run start pre) e =
        (s₁, .created pub (cfg.mailboxOf mac pub) secret)) : Placed H mac cfg s₁ := by
  have hpre : ∀ x ∈ pre, x.Allowed := fun x hx => hes x (List.mem_append_left _ hx)
  have he : e.Allowed := hes e (List.mem_append_right _ List.mem_cons_self)
  have hstep : Placed H mac cfg ((service np H verify mac cfg).step _ e).1 :=
    placed_step he (placed_run np H verify mac cfg hpre)
  rwa [hcreated] at hstep

theorem lastIssued_created
    (hcreated : (service np H verify mac cfg).step
      ((service np H verify mac cfg).run start pre) e =
        (s₁, .created pub (cfg.mailboxOf mac pub) secret)) :
    lastIssued (cfg.mailboxOf mac pub)
        ((service np H verify mac cfg).trace start (pre ++ e :: post)) =
      some ((lastIssued (cfg.mailboxOf mac pub)
        ((service np H verify mac cfg).trace s₁ post)).getD secret) := by
  have htrace : (service np H verify mac cfg).trace start (pre ++ e :: post) =
      ((service np H verify mac cfg).trace start pre ++
        [(e, .created pub (cfg.mailboxOf mac pub) secret)]) ++
      (service np H verify mac cfg).trace s₁ post := by
    rw [Machine.trace_append, Machine.trace_cons, hcreated, List.append_assoc]
    rfl
  rw [htrace]
  exact lastIssued_append _ _ _ (lastIssued_concat _ e pub (cfg.mailboxOf mac pub) secret)

/-- All that is answered since the mailbox was created. -/
theorem resolves_created (hp : Placed H mac cfg s₁) (hpost : ∀ x ∈ post, x.Allowed)
    (hs : Standing H mac cfg pub s₁.tasks.length secret s₁)
    (hl : (service np H verify mac cfg).Along (fun s e => Unexpired H mac cfg pub s e.now) s₁ post)
    {now : ℤ} {k : ℕ} {draw : Option (ByteArr 32)} {r : ResolveResponse} {body : Bytes}
    (h : (⟨now, .advance k draw⟩, Reply.resolved pub r body) ∈
      (service np H verify mac cfg).trace s₁ post)
    (hk : s₁.tasks.length ≤ k ∨ cfg.Sole (cfg.home H (cfg.mailboxOf mac pub))) :
    r.mailboxID = (cfg.mailboxOf mac pub).toList ∧
      r.shardURL = cfg.home H (cfg.mailboxOf mac pub) := by
  obtain ⟨before, after, rfl, hreply⟩ := Machine.mem_trace.mp h
  have hbefore : ∀ y ∈ before, y.Allowed := fun y hy => hpost y (List.mem_append_left _ hy)
  have hstanding := standing_run hbefore hp hs ((Machine.along_append _ _ _ _).mp hl).1
  exact resolved_placed (placed_run_from hp hbefore) hstanding hk hreply.symm

theorem agreement_of_created {r : RegisterResponse} (hes : ∀ x ∈ pre ++ e :: post, x.Allowed)
    (hcreated : (service np H verify mac cfg).step
      ((service np H verify mac cfg).run start pre) e =
        (s₁, .created pub (cfg.mailboxOf mac pub) secret))
    (hl : (service np H verify mac cfg).Along (fun s e => Unexpired H mac cfg pub s e.now) s₁ post)
    (hid : r.mailboxID = (cfg.mailboxOf mac pub).toList)
    (hurl : r.shardURL = cfg.home H (cfg.mailboxOf mac pub)) :
    Agreement H mac cfg pub r s₁.tasks.length
      ((service np H verify mac cfg).trace start (pre ++ e :: post))
      ((service np H verify mac cfg).trace s₁ post)
      ((service np H verify mac cfg).run start (pre ++ e :: post)) := by
  have hpost : ∀ x ∈ post, x.Allowed := fun x hx => hes x (List.mem_append_right _ (.tail e hx))
  have hplaced := placed_created hes hcreated
  have hstanding := standing_created hcreated
  refine ⟨hid, fun x r' body hx => ?_, fun now k draw r' body hx hk => ?_, ?_⟩
  · obtain ⟨before, after, hsplit, hreply⟩ := Machine.mem_trace.mp hx
    have hbefore : ∀ y ∈ before, y.Allowed := fun y hy =>
      hes y (hsplit ▸ List.mem_append_left _ hy)
    rw [hid, hurl]
    exact registered_placed (placed_run np H verify mac cfg hbefore) hreply.symm
  · rw [hid, hurl]
    exact resolves_created hplaced hpost hstanding hl hx (hurl ▸ hk)
  · obtain ⟨mb, hmb, hsec⟩ := (standing_run hpost hplaced hstanding hl).record
    obtain ⟨ref, hfind, hlookup⟩ := recordOf_eq_some.mp hmb
    have hlast : lastIssued (cfg.mailboxOf mac pub) (Machine.trace _ start (pre ++ e :: post)) =
        some _ := lastIssued_created hcreated
    have hrun : (service np H verify mac cfg).run start (pre ++ e :: post) =
        (service np H verify mac cfg).run s₁ post := by
      rw [Machine.run_append, Machine.run_cons, hcreated]
    rw [hrun]
    refine ⟨ref, hurl ▸ hfind, fun now hnow => ?_, _, hlast, ?_, fun hkeys => ?_⟩
    · exact mailboxExists_eq_true.mpr ⟨mb, hlookup, hnow mb hmb⟩
    · exact checkReadSecret_of_hash hlookup hsec
    · rw [← lastIssued_eq_lastIssuedTo hkeys]
      exact hlast

end

section

variable (np H verify mac cfg)

/-- The run `es` is split at the `CreateMailbox` of the `k`-th task, a register of `pub`. -/
structure CreatedAt (es : List Event) (k : ℕ) (pub : Bytes) (pre : List Event) (e : Event)
    (post : List Event) (s₁ : State) (secret : ByteArr 32) : Prop where
  split : es = pre ++ e :: post
  act : ∃ draw, e.act = .advance k draw
  step : (service np H verify mac cfg).step ((service np H verify mac cfg).run start pre) e =
    (s₁, .created pub (cfg.mailboxOf mac pub) secret)

/-- A register that has been answered has created its mailbox, and as long as the mailbox has not
expired since then, registers and resolves agree with the answer. -/
theorem register_resolve_agree (es : List Event) (hes : ∀ e ∈ es, e.Allowed) (now : ℤ) (k : ℕ)
    (draw : Option (ByteArr 32)) (pub body : Bytes) (r : RegisterResponse)
    (h : (⟨now, .advance k draw⟩, Reply.registered pub r body) ∈
      (service np H verify mac cfg).trace start es) :
    (∃ pre e post s₁ secret, CreatedAt np H verify mac cfg es k pub pre e post s₁ secret) ∧
    ∀ pre e post s₁ secret, CreatedAt np H verify mac cfg es k pub pre e post s₁ secret →
      (service np H verify mac cfg).Along (fun s e => Unexpired H mac cfg pub s e.now) s₁ post →
      Agreement H mac cfg pub r s₁.tasks.length ((service np H verify mac cfg).trace start es)
        ((service np H verify mac cfg).trace s₁ post)
        ((service np H verify mac cfg).run start es) := by
  obtain ⟨before, after, hsplit, hreply⟩ := Machine.mem_trace.mp h
  have hbefore : ∀ x ∈ before, x.Allowed := fun x hx =>
    hes x (hsplit ▸ List.mem_append_left _ hx)
  obtain ⟨hid, hurl⟩ := registered_placed (placed_run np H verify mac cfg hbefore) hreply.symm
  constructor
  · obtain ⟨k', draw', mid, secret, entry, hact, -, htask⟩ := registered_step hreply.symm
    cases hact
    obtain ⟨pre, e, post, s₁, rfl, hadvance, hcreated⟩ := exists_created before htask
    obtain ⟨-, -, rfl, -⟩ := created_step (congrArg Prod.snd hcreated)
    refine ⟨pre, e, post ++ ⟨now, .advance k draw⟩ :: after, s₁, secret, ?_, hadvance, hcreated⟩
    rw [hsplit, List.append_assoc, List.cons_append]
  · rintro pre e post s₁ secret ⟨rfl, -, hcreated⟩ hl
    exact agreement_of_created hes hcreated hl hid hurl

end

/-! ## Two shards -/

def sampleMac (_ message : Bytes) : Digest :=
  copyArr 32 message

/-- The URLs `a` and `b`, with the stores they lead to. -/
def sampleConfig (a b : ℕ) : Config where
  secret := [1]
  shards := [⟨ascii "a", a⟩, ⟨ascii "b", b⟩]
  version := 1
  maxRegistersPerIP := 0
  maxResolvesPerIP := 0

/-- Keys of one mailbox id. -/
def sampleKey (x : UInt8) : Bytes :=
  List.replicate 8 1 ++ List.replicate 24 x

/-- The steps of a register, as the `k`-th task. -/
def registerSteps (k : ℕ) (pub : Bytes) (secret : ByteArr 32) : List Event :=
  [⟨0, .register [] ((marshalRegister NanoPack.reference
      ⟨pub, 0, List.replicate 16 3, List.replicate 64 0⟩).toOption.getD [])⟩,
    ⟨0, .advance k none⟩, ⟨0, .advance k none⟩, ⟨0, .advance k (some secret)⟩,
    ⟨0, .advance k none⟩]

def resolveRequest (pub : Bytes) : Event :=
  ⟨0, .resolve [] ((marshalResolve NanoPack.reference ⟨pub⟩).toOption.getD [])⟩

/-- A resolve asks the owner, its key registers, and the resolve asks the other URL and
answers. -/
def overlappingRun : List Event :=
  [resolveRequest (sampleKey 2), ⟨0, .advance 0 none⟩, ⟨0, .advance 0 none⟩] ++
    registerSteps 1 (sampleKey 2) (copyArr 32 [1]) ++
    [⟨0, .advance 0 none⟩, ⟨0, .advance 0 none⟩, ⟨0, .advance 0 none⟩]

/-- Two keys with one mailbox id register one after the other. -/
def collidingRun : List Event :=
  registerSteps 0 (sampleKey 2) (copyArr 32 [1]) ++
    registerSteps 1 (sampleKey 3) (copyArr 32 [2])

/-- The key, the mailbox id and the URL of an answer. -/
inductive Answer
  | register (pub mailboxID shardURL : Bytes)
  | resolve (pub mailboxID shardURL : Bytes)
deriving DecidableEq

def answerOf : Reply → Option Answer
  | .registered pub r _ => some (.register pub r.mailboxID r.shardURL)
  | .resolved pub r _ => some (.resolve pub r.mailboxID r.shardURL)
  | _ => none

def answers (trace : List (Event × Reply)) : List Answer :=
  trace.filterMap fun eo => answerOf eo.2

theorem registered_of_answerOf {o : Reply} {pub mid url : Bytes}
    (h : answerOf o = some (.register pub mid url)) :
    ∃ r body, o = .registered pub r body ∧ r.shardURL = url := by
  cases o with
  | registered pub' r body =>
    cases h
    exact ⟨r, body, rfl, rfl⟩
  | _ => cases h

theorem resolved_of_answerOf {o : Reply} {pub mid url : Bytes}
    (h : answerOf o = some (.resolve pub mid url)) :
    ∃ r body, o = .resolved pub r body ∧ r.shardURL = url := by
  cases o with
  | resolved pub' r body =>
    cases h
    exact ⟨r, body, rfl, rfl⟩
  | _ => cases h

theorem created_of_issuedTo {s : State} {e : Event} {pub : Bytes} {secret : ByteArr 32}
    (h : issuedTo pub ((service np H verify mac cfg).step s e).2 = some secret) :
    ((service np H verify mac cfg).step s e).2 =
      .created pub (cfg.mailboxOf mac pub) secret := by
  cases hreply : ((service np H verify mac cfg).step s e).2 with
  | created pub' mid secret' =>
    rw [hreply, issuedTo] at h
    split_ifs at h with hpub
    cases h
    subst hpub
    obtain ⟨-, -, rfl, -⟩ := created_step hreply
    rfl
  | _ =>
    rw [hreply] at h
    cases h

/-- The router over the two shards. -/
abbrev sampleService (a b : ℕ) : Machine State Event Reply :=
  service NanoPack.reference sampleHash acceptAll sampleMac (sampleConfig a b)

/-- With a store for each URL, no other URL leads to the store of `b`. -/
theorem sampleConfig_sole : (sampleConfig 0 1).Sole (ascii "b") := by
  intro u ref ref' hu hb hstore
  obtain ⟨hmem, rfl⟩ := Config.findShard_eq_some hu
  obtain rfl : ref' = ⟨ascii "b", 1⟩ := (Option.some.inj hb).symm
  obtain rfl | rfl : ref = ⟨ascii "a", 0⟩ ∨ ref = ⟨ascii "b", 1⟩ := by
    simpa [sampleConfig] using hmem
  · cases hstore
  · rfl

/-- There the register agrees with the resolve that it overlaps and that answers after it. -/
theorem register_resolve_agree_overlappingRun : ∃ r s₁ r' body, r.shardURL = ascii "b" ∧
    Agreement sampleHash sampleMac (sampleConfig 0 1) (sampleKey 2) r (State.tasks s₁).length
      ((sampleService 0 1).trace start overlappingRun)
      ((sampleService 0 1).trace s₁ (overlappingRun.drop 7))
      ((sampleService 0 1).run start overlappingRun) ∧
    (⟨0, .advance 0 none⟩, Reply.resolved (sampleKey 2) r' body) ∈
      (sampleService 0 1).trace s₁ (overlappingRun.drop 7) ∧
    r'.mailboxID = r.mailboxID ∧ r'.shardURL = r.shardURL := by
  have hsplit : overlappingRun = overlappingRun.take 7 ++ ⟨0, .advance 1 none⟩ ::
      overlappingRun.drop 8 := rfl
  obtain ⟨r, body, hreply, hurl⟩ := registered_of_answerOf
    (show answerOf ((sampleService 0 1).step ((sampleService 0 1).run start
        (overlappingRun.take 7)) ⟨0, .advance 1 none⟩).2 =
      some (.register (sampleKey 2) (hexEncode (List.replicate 8 1)) (ascii "b"))
      by decide +kernel)
  have hcreated := created_of_issuedTo
    (show issuedTo (sampleKey 2) ((sampleService 0 1).step ((sampleService 0 1).run start
        (overlappingRun.take 6)) ⟨0, .advance 1 (some (copyArr 32 [1]))⟩).2 =
      some (copyArr 32 [1]) by decide +kernel)
  have hallowed : ∀ e ∈ overlappingRun, e.Allowed := by
    intro e he i mid hash
    simp only [overlappingRun, registerSteps, resolveRequest, List.cons_append, List.nil_append,
      List.mem_cons, List.not_mem_nil, or_false] at he
    rcases he with rfl | rfl | rfl | rfl | rfl | rfl | rfl | rfl | rfl | rfl | rfl <;> nofun
  have h := register_resolve_agree NanoPack.reference sampleHash acceptAll sampleMac
    (sampleConfig 0 1) overlappingRun hallowed 0 1 none (sampleKey 2) body r
    (Machine.mem_trace.mpr ⟨_, _, hsplit, hreply.symm⟩)
  have hagree := h.2 (overlappingRun.take 6) ⟨0, .advance 1 (some (copyArr 32 [1]))⟩
    (overlappingRun.drop 7) _ (copyArr 32 [1]) ⟨rfl, ⟨_, rfl⟩, Prod.ext rfl hcreated⟩
    ⟨by decide +kernel, by decide +kernel, by decide +kernel, by decide +kernel, trivial⟩
  obtain ⟨r', body', hreply', -⟩ := resolved_of_answerOf
    (show answerOf ((sampleService 0 1).step ((sampleService 0 1).run start
        (overlappingRun.take 10)) ⟨0, .advance 0 none⟩).2 =
      some (.resolve (sampleKey 2) (hexEncode (List.replicate 8 1)) (ascii "b"))
      by decide +kernel)
  have hlater := Machine.mem_trace.mpr ⟨(overlappingRun.drop 7).take 3, [], rfl, hreply'.symm⟩
  exact ⟨r, _, r', body', hurl, hagree, hlater,
    hagree.resolves _ _ _ _ _ hlater (.inr (hurl ▸ sampleConfig_sole))⟩

/-- There are keys with one mailbox id, whatever `mac` is. -/
theorem exists_mailboxOf_eq (cfg : Config) (mac : Bytes → Bytes → Digest) :
    ∃ pub pub' : Bytes, pub.length = 32 ∧ pub'.length = 32 ∧ pub ≠ pub' ∧
      cfg.mailboxOf mac pub = cfg.mailboxOf mac pub' := by
  have hlt : ∀ mid : ID, beNat mid.toList < 256 ^ 16 := fun mid => by
    have h := beNat_lt mid.toList
    rwa [mid.toList_length] at h
  have hread : ∀ mid : ID, beBytes 16 (beNat mid.toList) = mid.toList := fun mid => by
    have h := beBytes_beNat mid.toList
    rwa [mid.toList_length] at h
  obtain ⟨i, j, hne, heq⟩ := Fintype.exists_ne_map_eq_of_card_lt
    (fun i : Fin (256 ^ 16 + 1) => (⟨beNat (cfg.mailboxOf mac (beBytes 32 i)).toList, hlt _⟩ :
      Fin (256 ^ 16))) (by simp)
  refine ⟨beBytes 32 i, beBytes 32 j, length_beBytes 32 i, length_beBytes 32 j, fun h => ?_, ?_⟩
  · have hnat := congrArg beNat h
    rw [beNat_beBytes_of_lt (by have := i.2; omega), beNat_beBytes_of_lt (by have := j.2; omega)]
      at hnat
    exact hne (Fin.ext hnat)
  · have hbytes := congrArg (beBytes 16) (Fin.mk.inj heq)
    rw [hread, hread] at hbytes
    exact List.Vector.eq _ _ hbytes

/-- With one store under two URLs a resolve answers another URL than the register before it, and
with two keys of one mailbox id the store refuses the secret of the first. There are such keys
whatever `mac` is. -/
theorem register_resolve_disagree :
    answers ((sampleService 0 0).trace start overlappingRun) =
      [.register (sampleKey 2) (hexEncode (List.replicate 8 1)) (ascii "b"),
        .resolve (sampleKey 2) (hexEncode (List.replicate 8 1)) (ascii "a")] ∧
    mailboxExists (((sampleService 0 0).run start overlappingRun).stores 0) 0
      ((sampleConfig 0 0).mailboxOf sampleMac (sampleKey 2)) = true ∧
    answers ((sampleService 0 1).trace start collidingRun) =
      [.register (sampleKey 2) (hexEncode (List.replicate 8 1)) (ascii "b"),
        .register (sampleKey 3) (hexEncode (List.replicate 8 1)) (ascii "b")] ∧
    lastIssuedTo (sampleKey 2) ((sampleService 0 1).trace start collidingRun) =
      some (copyArr 32 [1]) ∧
    checkReadSecret sampleHash (((sampleService 0 1).run start collidingRun).stores 1)
      ((sampleConfig 0 1).mailboxOf sampleMac (sampleKey 2)) (copyArr 32 [1]).toList = false ∧
    ∀ (cfg : Config) (mac : Bytes → Bytes → Digest), ∃ pub pub' : Bytes, pub.length = 32 ∧
      pub'.length = 32 ∧ pub ≠ pub' ∧ cfg.mailboxOf mac pub = cfg.mailboxOf mac pub' :=
  ⟨by decide +kernel, by decide +kernel, by decide +kernel, by decide +kernel,
    by decide +kernel, exists_mailboxOf_eq⟩

end FileRelay.Router
