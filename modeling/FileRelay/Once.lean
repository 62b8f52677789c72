import FileRelay.Provenance
import FileRelay.Replay

/-!
# A signed request takes effect once

A shard verifies a signed request against the clock reading its handler started with, and tests its
nonce against the replay cache at a later one. A key that passes is held for three times the skew
(`passed_apart`), the relay never sweeps a store, and two readings that accept one signed request
are at most twice the skew apart. So of all copies of a signed request that arrive in a run, one at
most gets to a store, as long as handlers come to their replay test within the skew (`Prompt`).

Replay caches are not shared between shards. A message still is accepted once in the whole
deployment, because only the shard that registers a mailbox has it. The router has a cache of its
own, which it tests at the reading its handler started with, and a registration creates its mailbox
once. `effects_once` puts the three together.
-/

namespace FileRelay

open Pool (started history answers turns)

/-! ## The clock -/

/-- The clock of a run never goes back, and stays where `int64` arithmetic is exact. -/
structure RelayClock (es : List RelayEvent) : Prop where
  mono : (es.filterMap Pool.Event.env).Pairwise fun a b => a.now ≤ b.now
  reading : ∀ env ∈ es.filterMap Pool.Event.env, ClockReading env.now

namespace RelayClock

variable {es pre post : List RelayEvent} {k k' : ℕ} {env env' : Env}

theorem le (h : RelayClock es) (hes : es = pre ++ .advance k env :: post)
    (hpre : .advance k' env' ∈ pre) : env'.now ≤ env.now := by
  have hmono := h.mono
  rw [hes, List.filterMap_append, List.pairwise_append] at hmono
  refine hmono.2.2 env' (List.mem_filterMap.mpr ⟨_, hpre, rfl⟩) env ?_
  exact List.mem_filterMap.mpr ⟨_, List.mem_cons_self, rfl⟩

theorem reading_of_mem (h : RelayClock es) (hmem : .advance k env ∈ es) : ClockReading env.now :=
  h.reading env (List.mem_filterMap.mpr ⟨_, hmem, rfl⟩)

end RelayClock

/-- The call of the store a signed request is for. -/
def Request.effect : Request → StoreCall
  | .send m => .sendMessage m
  | .create t => .createTransfer t
  | .complete t => .completeTransfer t

theorem Request.final_effect (q : Request) : q.effect.final = true := by
  cases q <;> rfl

namespace Deployment

variable {d : Deployment} {es pre : List RelayEvent} {k k' i : ℕ} {key : Digest} {env env' : Env}

/-! ## The replay cache -/

/-- A step before `t` keeps a key that is held until `t`. -/
theorem held_step {t : ℤ} (s : Pool Relay RelayCall RelayCall.Answer Response) {e : RelayEvent}
    (hnow : ∀ k env, e = .advance k env → env.now < t)
    (h : ReplayGate.Held (s.object.stores i).replay key t) :
    ReplayGate.Held ((d.relay.pool.step s e).1.object.stores i).replay key t := by
  cases hx : storeStep i (e, (d.relay.pool.step s e).2) with
  | none => rwa [(d.projects_store i).quiet s e hx]
  | some x =>
    have hmade := congrArg Prod.fst ((d.projects_store i).made s e x hx)
    obtain ⟨k, k', env, c, a, resp, he, rfl⟩ := storeStep_eq_some.mp hx
    have hlt := hnow k env (congrArg Prod.fst he)
    dsimp only at hmade
    rw [← hmade, store_step, step_replay]
    cases c with
    | checkAndMarkReplay key' =>
      change ReplayGate.Held (markReplay _ key' env.now).1 key t
      rw [markReplay_eq_test]
      exact ReplayGate.held_test h hlt key'
    | _ => exact h

theorem held_run {t : ℤ} {s : Pool Relay RelayCall RelayCall.Answer Response} (es : List RelayEvent)
    (hnow : ∀ k env, .advance k env ∈ es → env.now < t)
    (h : ReplayGate.Held (s.object.stores i).replay key t) :
    ReplayGate.Held ((d.relay.pool.run s es).object.stores i).replay key t := by
  have hok : d.relay.pool.Along (fun _ e => ∀ k env, e = .advance k env → env.now < t) s es :=
    Machine.along_of_forall fun e he k env heq => hnow k env (heq ▸ he)
  exact Machine.along_induction (P := fun s => ReplayGate.Held (s.object.stores i).replay key t)
    (fun s e hok hs => held_step s hok hs) hok h

/-- The step after `pre` is one of task `k`, at which it passes the replay test of store `i`. -/
abbrev Passes (d : Deployment) (es pre : List RelayEvent) (k : ℕ) (env : Env) (i : ℕ)
    (key : Digest) : Prop :=
  d.CallsAt es pre k env (.store i (.checkAndMarkReplay key)) false

/-- Two tests of one key that pass are a window apart. -/
theorem passed_apart {pre' mid : List RelayEvent} (hclock : RelayClock es)
    (hp : d.Passes es pre k env i key) (hp' : d.Passes es pre' k' env' i key)
    (hmid : pre' = pre ++ .advance k env :: mid) : env.now + replayWindow ≤ env'.now := by
  by_contra hlt
  push Not at hlt
  have hheld : ReplayGate.Held
      ((d.relay.pool.step (d.run pre) (.advance k env)).1.object.stores i).replay key
        (env.now + replayWindow) := by
    have hpass : (markReplay ((d.run pre).object.stores i).replay key env.now).2 = false :=
      hp.served.1.symm
    rw [hp.served.2, ← replayExpiry_eq (hclock.reading_of_mem hp.mem)]
    simp only [serveCall, Function.update_self]
    change ReplayGate.Held (markReplay _ key env.now).1 key _
    rw [markReplay_eq_test] at hpass ⊢
    exact ReplayGate.held_of_test hpass
  have hrun : d.run pre' =
      d.relay.pool.run (d.relay.pool.step (d.run pre) (.advance k env)).1 mid := by
    rw [hmid, run, Machine.run_append, Machine.run_cons]
    rfl
  have hlater := held_run (d := d) mid (fun j env'' hmem => ?_) hheld
  · rw [← hrun] at hlater
    have htest : markReplay ((d.run pre').object.stores i).replay key env'.now =
        (((d.run pre').object.stores i).replay, true) := by
      rw [markReplay_eq_test]
      exact ReplayGate.test_of_held hlater hlt
    exact Bool.false_ne_true (hp'.served.1.trans (congrArg Prod.snd htest))
  · obtain ⟨post, hes⟩ := hp'.place
    have hpre' : .advance j env'' ∈ pre' := by simp [hmid, hmem]
    exact lt_of_le_of_lt (hclock.le hes hpre') hlt

/-! ## Effects -/

/-- The reading a handler started with is not past its later calls. -/
theorem reading_of_clocked (hclock : RelayClock es) {c : RelayCall} {a : c.Answer}
    (h : d.CallsAt es pre k env c a) {now : ℤ} {h' : History}
    (hh : history k (d.trace pre) = clocked now :: h') : ClockReading now ∧ now ≤ env.now := by
  obtain ⟨env', hmem, rfl⟩ := clocked_of_history hh
  obtain ⟨post, hes⟩ := h.place
  refine ⟨hclock.reading_of_mem (k := k) ?_, hclock.le hes hmem⟩
  rw [hes]
  exact List.mem_append_left _ hmem

/-- Every handler comes to its replay test less than the skew after its clock reading. -/
structure Prompt (d : Deployment) (es : List RelayEvent) : Prop where
  shard : ∀ {pre k env i key now}, d.Passes es pre k env i key →
    history k (d.trace pre) = [clocked now] → env.now < now + maxClockSkewMillis
  router : ∀ {pre k env pub nonce now}, d.CallsAt es pre k env (.checkReplay pub nonce now) false →
    env.now < now + maxClockSkewMillis

/-- Handlers are prompt in a run that is shorter than the skew. -/
theorem prompt_of_within {t : ℤ} (h : ∀ env ∈ es.filterMap Pool.Event.env,
    t ≤ env.now ∧ env.now < t + maxClockSkewMillis) : d.Prompt es := by
  have hprompt : ∀ {pre k env now h'} {c : RelayCall} {a : c.Answer}, d.CallsAt es pre k env c a →
      history k (d.trace pre) = clocked now :: h' → env.now < now + maxClockSkewMillis := by
    intro pre k env now h' c a hat hh
    obtain ⟨env', hmem, rfl⟩ := clocked_of_history hh
    obtain ⟨post, rfl⟩ := hat.place
    have hread := h env' (List.mem_filterMap.mpr ⟨_, List.mem_append_left _ hmem, rfl⟩)
    have hlast := h env (List.mem_filterMap.mpr ⟨_, hat.mem, rfl⟩)
    omega
  refine ⟨fun hpass hh => hprompt hpass hh, fun hat => ?_⟩
  obtain ⟨x, -, -, q, -, -, -, -, hh⟩ := hat.entitled
  exact hprompt hat hh

/-- The handler of a signed request that gets to the store has read the clock and passed the replay
test. -/
theorem entitled_effect {x : Host × HTTPRequest} {h : History} {q : Request}
    (hent : d.Entitled x h (.store i q.effect)) : ∃ now h',
      h = clocked now :: unseen i (q.replayKey d.H) :: h' ∧ q.auth d.H d.verify now = .ok () := by
  cases q with
  | send m =>
    obtain ⟨-, -, now, hadm⟩ := hent
    exact ⟨now, _, hadm.calls, hadm.signed⟩
  | create t =>
    obtain ⟨-, -, now, hadm⟩ := hent
    exact ⟨now, _, hadm.calls, hadm.signed⟩
  | complete t =>
    obtain ⟨-, -, h₀, now, tv, hadm, hh, -⟩ := hent
    exact ⟨now, _, hh.trans (congrArg (· ++ _) hadm.calls), hadm.signed⟩

/-- What is behind the effect of a signed request : its handler read the clock as `now`, which its
timestamp agrees with, and passed the replay test within the skew. -/
structure Backed (d : Deployment) (es : List RelayEvent) (k i : ℕ) (q : Request) (now : ℤ)
    (pre : List RelayEvent) (env : Env) : Prop where
  signed : q.auth d.H d.verify now = .ok ()
  passes : d.Passes es pre k env i (q.replayKey d.H)
  reading : ClockReading now
  after : now ≤ env.now
  prompt : env.now < now + maxClockSkewMillis

theorem backed_of_calls (hclock : RelayClock es) (hprompt : d.Prompt es) {q : Request}
    {a : q.effect.Answer} (h : d.CallsAt es pre k env (.store i q.effect) a) :
    ∃ now pre' env', d.Backed es k i q now pre' env' := by
  obtain ⟨x, -, hent⟩ := h.entitled
  obtain ⟨now, h', hhist, hauth⟩ := entitled_effect hent
  -- The replay test and, before it, the reading of the clock.
  obtain ⟨pre₁, env₁, htest, hhist₁⟩ := calls_of_history (h := [clocked now]) hhist
  obtain ⟨post, rfl⟩ := h.place
  have hpass : d.Passes (pre ++ .advance k env :: post) pre₁ k env₁ i (q.replayKey d.H) :=
    htest.mono _
  obtain ⟨hreading, hle⟩ := reading_of_clocked hclock hpass hhist₁
  exact ⟨now, pre₁, env₁, hauth, hpass, hreading, hle, hprompt.shard hpass hhist₁⟩

/-- Two handlers do not both get a copy of one signed request to a store. -/
theorem backed_unique (hclock : RelayClock es) {q q' : Request} (hsigned : q'.signed = q.signed)
    {now now' : ℤ} {pre' : List RelayEvent} (h : d.Backed es k i q now pre env)
    (h' : d.Backed es k' i q' now' pre' env') : k = k' := by
  have hnarrow := shardPolicy_narrow d.H d.verify q
  have hkey : q'.replayKey d.H = q.replayKey d.H := hnarrow.key_eq q' hsigned
  have hpass' := hkey ▸ h'.passes
  have hwindow := replayWindow_eq
  have hspread := hnarrow.spread_le q q' now now' rfl hsigned h.reading h'.reading
    (decide_eq_true h.signed) (decide_eq_true h'.signed)
  have hspread' := hnarrow.spread_le q' q now' now hsigned rfl h'.reading h.reading
    (decide_eq_true h'.signed) (decide_eq_true h.signed)
  obtain ⟨post, hes⟩ := h.passes.place
  obtain ⟨post', hes'⟩ := h'.passes.place
  have := h.after
  have := h'.after
  have := h.prompt
  have := h'.prompt
  rcases places hes hes' with rfl | ⟨mid, hmid⟩ | ⟨mid, hmid⟩
  · have heq := List.append_cancel_left (hes.symm.trans hes')
    injection heq with heq
    injection heq
  · have := passed_apart hclock h.passes hpass' hmid
    omega
  · have := passed_apart hclock hpass' h.passes hmid
    omega

/-- A message is accepted by the shard that registers its mailbox. -/
theorem home_of_accepted {m : SendMessage} {r : ID × ℕ}
    (h : d.CallsAt es pre k env (.store i (.sendMessage m)) (Except.ok r)) :
    d.HomeOf (copyArr 16 m.mailboxID) i := by
  have hres : (sendMessage ((d.run pre).object.stores i) env.now m env.id).2 = .ok r :=
    h.served.1.symm
  have hout := sendMessage_outcome ((d.run pre).object.stores i) env.now m env.id
  generalize sendMessage ((d.run pre).object.stores i) env.now m env.id = res at hout hres
  rcases hout with ⟨e⟩ | ⟨e, -, -⟩ | ⟨-, hmb, -, -, -⟩
  · cases hres
  · cases hres
  · exact (mailbox_authentic hmb).1

theorem homeOf_unique {mid : ID} {i' : ℕ} (h : d.HomeOf mid i) (h' : d.HomeOf mid i') :
    i = i' := by
  obtain ⟨ref, href, rfl⟩ := h
  obtain ⟨ref', href', rfl⟩ := h'
  rw [Option.some.inj (href.symm.trans href')]

/-! ## Registrations -/

/-- The step after `pre` creates the mailbox of the registration `q`. -/
def RegistersAt (d : Deployment) (es pre : List RelayEvent) (k : ℕ) (env : Env) (q : Register) :
    Prop :=
  ∃ i hash b r, (started pre)[k]? = some (.router, r) ∧ r.Asks d.np (.register q) ∧
    d.CallsAt es pre k env (.store i (.createMailbox (d.mailboxOf q.clientPub) hash)) b

/-- The step after `pre` is one of task `k`, at which it passes the replay test of the router. -/
abbrev PassesRouter (d : Deployment) (es pre : List RelayEvent) (k : ℕ) (env : Env) (q : Register)
    (now : ℤ) : Prop :=
  d.CallsAt es pre k env (.checkReplay q.clientPub q.nonce now) false

/-- A handler tests against the reading it started with. -/
theorem reading_of_checkReplay (hclock : RelayClock es) {pub nonce : Bytes} {now : ℤ} {b : Bool}
    (h : d.CallsAt es pre k env (.checkReplay pub nonce now) b) :
    ClockReading now ∧ now ≤ env.now := by
  obtain ⟨x, -, -, q, -, -, -, -, hhist⟩ := h.entitled
  exact reading_of_clocked hclock h hhist

/-- A step keeps a key that the router holds until `t`, unless it tests one at `t` or later. -/
theorem held_router_step {t : ℤ} (s : Pool Relay RelayCall RelayCall.Answer Response)
    (e : RelayEvent)
    (hnow : ∀ pub nonce now b,
      (d.relay.pool.step s e).2.call = some ⟨.checkReplay pub nonce now, b⟩ → now < t)
    (h : ReplayGate.Held s.object.replay key t) :
    ReplayGate.Held (d.relay.pool.step s e).1.object.replay key t := by
  rcases d.relay.step_cases s e with ⟨r, rfl⟩ | ⟨k, env, c, next, rfl, hk⟩ | ⟨k, env, rfl, -, hs⟩
  · exact h
  · rw [d.relay.step_call hk] at hnow ⊢
    cases c with
    | checkReplay pub nonce now =>
      change ReplayGate.Held (markReplay _ (replayKey d.H domainRegister pub nonce) now).1 key t
      rw [markReplay_eq_test]
      exact ReplayGate.held_test h (hnow pub nonce now _ rfl) _
    | _ => exact h
  · rwa [hs]

theorem held_of_passesRouter (hclock : RelayClock es) {q : Register} {now : ℤ}
    (hp : d.PassesRouter es pre k env q now) : ReplayGate.Held
      (d.relay.pool.step (d.run pre) (.advance k env)).1.object.replay
        (replayKey d.H domainRegister q.clientPub q.nonce) (now + replayWindow) := by
  have hpass : (markReplay (d.run pre).object.replay
      (replayKey d.H domainRegister q.clientPub q.nonce) now).2 = false := hp.served.1.symm
  rw [hp.served.2, ← replayExpiry_eq (reading_of_checkReplay hclock hp).1]
  change ReplayGate.Held (markReplay _ _ now).1 _ _
  rw [markReplay_eq_test] at hpass ⊢
  exact ReplayGate.held_of_test hpass

/-- Two tests of one registration that pass are a window apart: the later one is made no sooner
than a window after the reading of the earlier one. -/
theorem passed_router_apart {pre' mid : List RelayEvent} (hclock : RelayClock es) {q q' : Register}
    {now now' : ℤ} (hpub : q'.clientPub = q.clientPub) (hnonce : q'.nonce = q.nonce)
    (hp : d.PassesRouter es pre k env q now) (hp' : d.PassesRouter es pre' k' env' q' now')
    (hmid : pre' = pre ++ .advance k env :: mid) : now + replayWindow ≤ env'.now := by
  by_contra hlt
  push Not at hlt
  obtain ⟨post', hes'⟩ := hp'.place
  have hrun : ∀ mid', d.run (pre ++ .advance k env :: mid') =
      d.relay.pool.run (d.relay.pool.step (d.run pre) (.advance k env)).1 mid' := by
    intro mid'
    rw [run, Machine.run_append, Machine.run_cons]
    rfl
  have hlater : ReplayGate.Held (d.run pre').object.replay
      (replayKey d.H domainRegister q.clientPub q.nonce) (now + replayWindow) := by
    rw [hmid, hrun]
    refine Machine.along_induction (P := fun s => ReplayGate.Held s.object.replay
      (replayKey d.H domainRegister q.clientPub q.nonce) (now + replayWindow))
      (fun s e hok hs => held_router_step s e hok hs)
      (Machine.along_of_places fun p e rest hplace pub nonce now'' b hcall => ?_)
      (held_of_passesRouter hclock hp)
    -- A test in between is made at a reading that is not past the later test.
    rw [← hrun] at hcall
    obtain ⟨k'', env'', c, next, rfl, -, -⟩ := d.relay.call_step hcall
    have hat : d.CallsAt es (pre ++ .advance k env :: p) k'' env'' (.checkReplay pub nonce now'')
        b := ⟨⟨rest ++ .advance k' env' :: post', by simp [hes', hmid, hplace]⟩, hcall⟩
    have hle := (reading_of_checkReplay hclock hat).2
    have hmem : .advance k'' env'' ∈ pre' := by simp [hmid, hplace]
    have := hclock.le hes' hmem
    omega
  have hle' := (reading_of_checkReplay hclock hp').2
  have hpass := hp'.served.1
  simp only [serveCall, checkReplay, hpub, hnonce] at hpass
  have htest : markReplay (d.run pre').object.replay
      (replayKey d.H domainRegister q.clientPub q.nonce) now' =
        ((d.run pre').object.replay, true) := by
    rw [markReplay_eq_test]
    exact ReplayGate.test_of_held hlater (by omega)
  exact Bool.false_ne_true (hpass.trans (congrArg Prod.snd htest))

/-- A registration has passed the replay test of the router. -/
theorem passes_of_registersAt {q : Register} (h : d.RegistersAt es pre k env q) :
    ∃ now pre' env', authRegister d.verify q now = .ok () ∧
      d.PassesRouter es pre' k env' q now := by
  obtain ⟨i, hash, b, r, hr, hasks, hat⟩ := h
  obtain ⟨x, hx, hhost, q', now, secret, hreg, -, -, -⟩ := hat.entitled
  obtain rfl := Option.some.inj (hr.symm.trans hx)
  obtain rfl : q = q' := Except.ok.inj (hasks.decodes.symm.trans hreg.asks.decodes)
  obtain ⟨post, rfl⟩ := hat.place
  obtain ⟨pre', env', hpass, -⟩ := calls_of_history hreg.calls
  exact ⟨now, pre', env', hreg.signed, hpass.mono _⟩

/-! ## At most once -/

/-- The copies of a signed request get to a store at one step at most, those of a message are
accepted at one step at most in the whole deployment, and those of a registration create their
mailbox at one step at most. -/
structure EffectsOnce (d : Deployment) (es : List RelayEvent) : Prop where
  shard : ∀ {q q' : Request} {pre pre' k k' env env' i a a'}, q'.signed = q.signed →
    d.CallsAt es pre k env (.store i q.effect) a →
    d.CallsAt es pre' k' env' (.store i q'.effect) a' → pre = pre'
  message : ∀ {m m' : SendMessage} {pre pre' k k' env env' i i' r r'},
    (Request.send m').signed = (Request.send m).signed →
    d.CallsAt es pre k env (.store i (.sendMessage m)) (Except.ok r) →
    d.CallsAt es pre' k' env' (.store i' (.sendMessage m')) (Except.ok r') → pre = pre'
  register : ∀ {q q' : Register} {pre pre' k k' env env'}, q'.signed = q.signed →
    d.RegistersAt es pre k env q → d.RegistersAt es pre' k' env' q' → pre = pre'

theorem shard_once (hclock : RelayClock es) (hprompt : d.Prompt es) {q q' : Request}
    {pre' : List RelayEvent} {a : q.effect.Answer} {a' : q'.effect.Answer}
    (hsigned : q'.signed = q.signed) (h : d.CallsAt es pre k env (.store i q.effect) a)
    (h' : d.CallsAt es pre' k' env' (.store i q'.effect) a') : pre = pre' := by
  obtain ⟨now, p, e, hb⟩ := backed_of_calls hclock hprompt h
  obtain ⟨now', p', e', hb'⟩ := backed_of_calls hclock hprompt h'
  obtain rfl := backed_unique hclock hsigned hb hb'
  exact h.final_unique h' q.final_effect q'.final_effect

theorem register_once (hclock : RelayClock es) (hprompt : d.Prompt es) {q q' : Register}
    {pre' : List RelayEvent} (hsigned : q'.signed = q.signed) (h : d.RegistersAt es pre k env q)
    (h' : d.RegistersAt es pre' k' env' q') : pre = pre' := by
  obtain ⟨now, p, e, hauth, hp⟩ := passes_of_registersAt h
  obtain ⟨now', p', e', hauth', hp'⟩ := passes_of_registersAt h'
  have hpub : q'.clientPub = q.clientPub :=
    show q'.signed.clientPub = q.signed.clientPub by rw [hsigned]
  have hnonce : q'.nonce = q.nonce :=
    show q'.signed.nonce = q.signed.nonce by rw [hsigned]
  have hnarrow := routerPolicy_narrow d.H d.verify q
  have hread := (reading_of_checkReplay hclock hp)
  have hread' := (reading_of_checkReplay hclock hp')
  have hspread := hnarrow.spread_le q q' now now' rfl hsigned hread.1 hread'.1
    (decide_eq_true hauth) (decide_eq_true hauth')
  have hspread' := hnarrow.spread_le q' q now' now hsigned rfl hread'.1 hread.1
    (decide_eq_true hauth') (decide_eq_true hauth)
  have hwindow := replayWindow_eq
  have hlate := hprompt.router hp
  have hlate' := hprompt.router hp'
  obtain ⟨post, hes⟩ := hp.place
  obtain ⟨post', hes'⟩ := hp'.place
  have hk : k = k' := by
    rcases places hes hes' with rfl | ⟨mid, hmid⟩ | ⟨mid, hmid⟩
    · have heq := List.append_cancel_left (hes.symm.trans hes')
      injection heq with heq
      injection heq
    · have := passed_router_apart hclock hpub hnonce hp hp' hmid
      omega
    · have := passed_router_apart hclock hpub.symm hnonce.symm hp' hp hmid
      omega
  subst hk
  obtain ⟨i, hash, b, r, -, -, hat⟩ := h
  obtain ⟨i', hash', b', r', -, -, hat'⟩ := h'
  exact hat.final_unique hat' rfl rfl

/-- In every run whose clock does not go back and whose handlers are prompt, a signed request takes
effect once. -/
theorem effects_once (d : Deployment) (es : List RelayEvent) (hclock : RelayClock es)
    (hprompt : d.Prompt es) : d.EffectsOnce es where
  shard := shard_once hclock hprompt
  message {m m' pre pre' k k' env env' i i' r r'} hsigned h h' := by
    have hmid : copyArr 16 m'.mailboxID = copyArr 16 m.mailboxID := by
      injection hsigned with hsigned
      exact congrArg (fun m => copyArr 16 m.mailboxID) hsigned
    obtain rfl := homeOf_unique (home_of_accepted h) (hmid ▸ home_of_accepted h')
    exact shard_once (q := .send m) hclock hprompt hsigned h h'
  register := register_once hclock hprompt

/-- A registration and then a message for its mailbox, each of them delivered twice and served in
turns. -/
def deliveredTwice : List RelayEvent :=
  let register := samplePost .register (marshalRegister NanoPack.reference sampleRegister)
  let send := samplePost .send (marshalSendMessage NanoPack.reference sampleMessage)
  let turns (k : ℕ) : List RelayEvent :=
    (List.replicate 6 [.advance k sampleEnv, .advance (k + 1) sampleEnv]).flatten
  [.start (.router, register), .start (.router, register)] ++ turns 0 ++
    [.start (.shard 0, send), .start (.shard 0, send)] ++ turns 2

/-- The second copies are refused as replays, and the message is queued once. -/
theorem effects_once_deliveredTwice :
    let mid := sampleDeployment.mailboxOf sampleRegister.clientPub
    sampleDeployment.EffectsOnce deliveredTwice ∧
      ((List.range 4).map fun k =>
        (answers k (sampleDeployment.trace deliveredTwice)).map Response.status) =
          [[200], [409], [200], [409]] ∧
      ((((sampleDeployment.run deliveredTwice).object.stores 0).mailboxes.lookup mid).map
        fun mb => mb.messages.length) = some 1 := by
  intro mid
  have henv : ∀ env ∈ deliveredTwice.filterMap Pool.Event.env, env.now = 100000 := by
    simp [deliveredTwice, Pool.Event.env, sampleEnv]
  refine ⟨effects_once _ _ ⟨?_, fun env h => ?_⟩ (prompt_of_within (t := 100000) fun env h => ?_),
    by decide +kernel, by decide +kernel⟩
  · exact List.Pairwise.imp_of_mem (fun ha hb _ => (henv _ ha).trans_le (henv _ hb).ge)
      (List.pairwise_of_forall fun _ _ => trivial)
  · rw [henv env h]
    exact ⟨by decide, by decide⟩
  · rw [henv env h]
    decide

end Deployment

end FileRelay
