import FileRelay.Auth
import FileRelay.ReplayGate
import FileRelay.Steps

/-!
# Replay protection of the shard and of the router

`shard` runs any number of request handlers over one store : a handler reads the clock
when it starts, verifies its decoded request against that reading, and then calls
`CheckAndMarkReplay`, which reads the clock again. In between time passes and other calls
go to the store, `Sweep` among them. `router` does the same with the register handlers and
the router's own cache, whose `checkReplay` uses the reading of the handler.

Both are the handlers of `ReplayGate` (`shard_simulates`, `router_simulates`), the replay
window is three times the skew, and the skew test keeps the readings of one request within
twice the skew. So a signed request passes at most once as long as every handler gets to
its replay test less than one skew after it started (`signed_request_passes_once`). A
handler that takes longer to read its body lets a request pass twice
(`slow_body_passes_twice`).
-/

namespace FileRelay

variable (H : Bytes → Digest) (verify : Verifier)

/-! ## The shard -/

/-- The store, the clock, and for each handler started its reading until it is done. -/
structure ShardState where
  store : MemStore
  clock : ℤ
  inflight : List (Option ℤ)

inductive ShardEvent
  | tick (d : ℕ)
  | enter
  | finish (handler : ℕ) (r : Request)
  | call (op : Op)

inductive ShardOutput
  | quiet
  | refused (e : ProtocolError)
  | replayed (r : Request)
  | passed (r : Request) (entry : ℤ)
  | called (out : Output)

/-- A handler that started at `entry` has read and decoded its body. -/
def shardAnswer (s : ShardState) (entry : ℤ) (r : Request) : ShardState × ShardOutput :=
  match r.auth H verify entry with
  | .error e => (s, .refused e)
  | .ok () =>
    let t := checkAndMarkReplay s.store s.clock (r.replayKey H)
    ({ s with store := t.1 }, if t.2 then .replayed r else .passed r entry)

def shardStep (s : ShardState) : ShardEvent → ShardState × ShardOutput
  | .tick d => ({ s with clock := s.clock + d }, .quiet)
  | .enter => ({ s with inflight := s.inflight ++ [some s.clock] }, .quiet)
  | .finish handler r =>
    match s.inflight[handler]? with
    | some (some entry) =>
      shardAnswer H verify { s with inflight := s.inflight.set handler none } entry r
    | _ => (s, .quiet)
  | .call op =>
    let t := callStore H s.store s.clock op
    ({ s with store := t.1 }, .called t.2)

/-- The shard as a machine. -/
def shard : Machine ShardState ShardEvent ShardOutput where
  step := shardStep H verify

/-! ## The router -/

/-- The cache of the router's handler, the clock, and the handlers under way. -/
structure RouterState where
  replay : GoMap Digest ℤ
  clock : ℤ
  inflight : List (Option ℤ)

inductive RouterEvent
  | tick (d : ℕ)
  | enter
  | finish (handler : ℕ) (r : Register)

inductive RouterOutput
  | quiet
  | refused (e : ProtocolError)
  | replayed (r : Register)
  | passed (r : Register) (entry : ℤ)

/-- `checkReplay`. -/
def checkReplay (replay : GoMap Digest ℤ) (pub nonce : Bytes) (now : ℤ) : GoMap Digest ℤ × Bool :=
  markReplay replay (replayKey H domainRegister pub nonce) now

def routerAnswer (s : RouterState) (entry : ℤ) (r : Register) : RouterState × RouterOutput :=
  match authRegister verify r entry with
  | .error e => (s, .refused e)
  | .ok () =>
    let t := checkReplay H s.replay r.clientPub r.nonce entry
    ({ s with replay := t.1 }, if t.2 then .replayed r else .passed r entry)

def routerStep (s : RouterState) : RouterEvent → RouterState × RouterOutput
  | .tick d => ({ s with clock := s.clock + d }, .quiet)
  | .enter => ({ s with inflight := s.inflight ++ [some s.clock] }, .quiet)
  | .finish handler r =>
    match s.inflight[handler]? with
    | some (some entry) =>
      routerAnswer H verify { s with inflight := s.inflight.set handler none } entry r
    | _ => (s, .quiet)

/-- The router as a machine. -/
def router : Machine RouterState RouterEvent RouterOutput where
  step := routerStep H verify

/-! ## Both are replay gates -/

/-- The replay window in milliseconds. -/
def replayWindow : ℤ :=
  replayWindowSeconds * 1000

/-- How long a key tested at `now` is kept. -/
def replayExpiry (now : ℤ) : ℤ :=
  deadline now replayWindowSeconds

theorem markReplay_eq_test (replay : GoMap Digest ℤ) (key : Digest) (now : ℤ) :
    markReplay replay key now = ReplayGate.test replayExpiry replay key now :=
  rfl

/-- At the readings of a clock the expiry of a key does not wrap. -/
theorem replayExpiry_eq {now : ℤ} (h : ClockReading now) :
    replayExpiry now = now + replayWindow := by
  obtain ⟨h0, h1⟩ := h
  refine deadline_of_fits ?_ ?_ <;> unfold replayWindowSeconds <;> omega

/-- The shard tests at a new reading. -/
def shardPolicy : ReplayGate.Policy Request Digest where
  expiry := replayExpiry
  key := Request.replayKey H
  accepts r entry := decide (r.auth H verify entry = .ok ())
  testTime _ clock := clock

/-- The router tests at the handler's reading. -/
def routerPolicy : ReplayGate.Policy Register Digest where
  expiry := replayExpiry
  key r := replayKey H domainRegister r.clientPub r.nonce
  accepts r entry := decide (authRegister verify r entry = .ok ())
  testTime entry _ := entry

def ShardState.gate (s : ShardState) : ReplayGate.State Digest :=
  ⟨s.store.replay, s.clock, s.inflight⟩

/-- A call to the store, as the cache sees it. -/
def ShardEvent.gate : ShardEvent → ReplayGate.Event Request Digest
  | .tick d => .tick d
  | .enter => .enter
  | .finish handler r => .finish handler r
  | .call (.checkAndMarkReplay key) => .probe key
  | .call .sweep => .sweep
  | .call _ => .tick 0

def ShardOutput.gate : ShardOutput → ReplayGate.Output Request
  | .refused _ => .refused
  | .replayed r => .replayed r
  | .passed r entry => .passed r entry
  | _ => .quiet

def RouterState.gate (s : RouterState) : ReplayGate.State Digest :=
  ⟨s.replay, s.clock, s.inflight⟩

def RouterEvent.gate : RouterEvent → ReplayGate.Event Register Digest
  | .tick d => .tick d
  | .enter => .enter
  | .finish handler r => .finish handler r

def RouterOutput.gate : RouterOutput → ReplayGate.Output Register
  | .quiet => .quiet
  | .refused _ => .refused
  | .replayed r => .replayed r
  | .passed r entry => .passed r entry

theorem shardAnswer_gate (s : ShardState) (entry : ℤ) (r : Request) :
    (shardPolicy H verify).answer s.gate entry r =
      ((shardAnswer H verify s entry r).1.gate, (shardAnswer H verify s entry r).2.gate) := by
  unfold ReplayGate.Policy.answer shardAnswer
  rcases h : r.auth H verify entry with e | ⟨⟩
  · have hacc : ¬(shardPolicy H verify).accepts r entry = true := by simp [shardPolicy, h]
    rw [if_neg hacc]
    rfl
  · have hacc : (shardPolicy H verify).accepts r entry = true := by simp [shardPolicy, h]
    rw [if_pos hacc]
    refine Prod.ext rfl ?_
    change (if (markReplay s.store.replay (r.replayKey H) s.clock).2 = true then
        ReplayGate.Output.replayed r else .passed r entry) =
      ShardOutput.gate (if (markReplay s.store.replay (r.replayKey H) s.clock).2 = true then
        .replayed r else .passed r entry)
    split_ifs <;> rfl

theorem call_gate (s : ShardState) (op : Op) :
    (shardPolicy H verify).step s.gate (ShardEvent.call op).gate =
      ((shardStep H verify s (.call op)).1.gate, .quiet) := by
  have hr := step_replay H s.store s.clock op
  have hstate : (shardStep H verify s (.call op)).1.gate =
      ⟨(callStore H s.store s.clock op).1.replay, s.clock, s.inflight⟩ := rfl
  rw [hstate, hr]
  cases op <;> simp only [ShardEvent.gate, ReplayGate.Policy.step, ShardState.gate, Nat.cast_zero,
    add_zero] <;> rfl

/-- The shard's handlers are a replay gate. -/
theorem shard_simulates : Machine.Simulates (shard H verify) (shardPolicy H verify).gate
    ShardState.gate ShardEvent.gate ShardOutput.gate := by
  have hstep : ∀ s e, (shardPolicy H verify).step s.gate e.gate =
      ((shardStep H verify s e).1.gate, (shardStep H verify s e).2.gate) := by
    intro s e
    cases e with
    | tick d => rfl
    | enter => rfl
    | finish handler r =>
      simp only [ShardEvent.gate, ReplayGate.Policy.step, shardStep]
      change (match s.inflight[handler]? with | some (some entry) => _ | _ => _) = _
      rcases s.inflight[handler]? with _ | _ | entry
      · rfl
      · rfl
      · exact shardAnswer_gate H verify { s with inflight := s.inflight.set handler none } entry r
    | call op => exact call_gate H verify s op
  exact ⟨fun s e => congrArg Prod.fst (hstep s e), fun s e => congrArg Prod.snd (hstep s e)⟩

theorem routerAnswer_gate (s : RouterState) (entry : ℤ) (r : Register) :
    (routerPolicy H verify).answer s.gate entry r =
      ((routerAnswer H verify s entry r).1.gate, (routerAnswer H verify s entry r).2.gate) := by
  unfold ReplayGate.Policy.answer routerAnswer
  rcases h : authRegister verify r entry with e | ⟨⟩
  · have hacc : ¬(routerPolicy H verify).accepts r entry = true := by simp [routerPolicy, h]
    rw [if_neg hacc]
    rfl
  · have hacc : (routerPolicy H verify).accepts r entry = true := by simp [routerPolicy, h]
    rw [if_pos hacc]
    refine Prod.ext rfl ?_
    change (if (checkReplay H s.replay r.clientPub r.nonce entry).2 = true then
        ReplayGate.Output.replayed r else .passed r entry) =
      RouterOutput.gate (if (checkReplay H s.replay r.clientPub r.nonce entry).2 = true then
        .replayed r else .passed r entry)
    split_ifs <;> rfl

/-- The router's handlers are a replay gate. -/
theorem router_simulates : Machine.Simulates (router H verify) (routerPolicy H verify).gate
    RouterState.gate RouterEvent.gate RouterOutput.gate := by
  have hstep : ∀ s e, (routerPolicy H verify).step s.gate e.gate =
      ((routerStep H verify s e).1.gate, (routerStep H verify s e).2.gate) := by
    intro s e
    cases e with
    | tick d => rfl
    | enter => rfl
    | finish handler r =>
      simp only [RouterEvent.gate, ReplayGate.Policy.step, routerStep]
      change (match s.inflight[handler]? with | some (some entry) => _ | _ => _) = _
      rcases s.inflight[handler]? with _ | _ | entry
      · rfl
      · rfl
      · exact routerAnswer_gate H verify { s with inflight := s.inflight.set handler none } entry r
  exact ⟨fun s e => congrArg Prod.fst (hstep s e), fun s e => congrArg Prod.snd (hstep s e)⟩

/-! ## At most one pass -/

/-- The window is three times the skew : two for the readings, one for the body. -/
theorem replayWindow_eq : replayWindow = 2 * maxClockSkewMillis + maxClockSkewMillis := by
  decide

theorem shardPolicy_narrow (q : Request) :
    ReplayGate.Narrow (shardPolicy H verify) (fun r => r.signed = q.signed) (q.replayKey H)
      ClockReading (2 * maxClockSkewMillis) maxClockSkewMillis where
  key_eq r hr := by
    change r.replayKey H = q.replayKey H
    rw [← r.replayKey_signed, ← q.replayKey_signed, hr]
  spread_le r r' e e' hr hr' he he' ha ha' := by
    have hts : r'.timestamp = r.timestamp := by
      rw [← r.timestamp_signed, ← r'.timestamp_signed, hr, hr']
    have hs := Request.checkSkew_of_auth H verify (of_decide_eq_true ha)
    have hs' := Request.checkSkew_of_auth H verify (of_decide_eq_true ha')
    rw [hts] at hs'
    exact checkSkew_spread he he' hs hs'
  testTime_le _ clock _ := le_refl clock
  covers entry clock _ hclock hle := by
    change entry + _ ≤ replayExpiry clock
    rw [replayExpiry_eq hclock, replayWindow_eq]
    omega

theorem routerPolicy_narrow (q : Register) :
    ReplayGate.Narrow (routerPolicy H verify) (fun r => r.signed = q.signed)
      (replayKey H domainRegister q.clientPub q.nonce) ClockReading (2 * maxClockSkewMillis)
      maxClockSkewMillis where
  key_eq r hr := by
    change replayKey H domainRegister r.signed.clientPub r.signed.nonce = _
    rw [hr]
    rfl
  spread_le r r' e e' hr hr' he he' ha ha' := by
    have hts : r'.signed.timestamp = r.signed.timestamp := by rw [hr, hr']
    have hs := checkSkew_of_authRegister verify (of_decide_eq_true ha)
    have hs' := checkSkew_of_authRegister verify (of_decide_eq_true ha')
    exact checkSkew_spread he he' hs (hts ▸ hs')
  testTime_le _ _ h := h
  covers entry _ hentry _ _ := by
    change entry + _ ≤ replayExpiry entry
    rw [replayExpiry_eq hentry, replayWindow_eq]

/-- The readings of the handlers that passed a delivery of the signed request `q`. -/
def shardPasses (q : Request) (trace : List (ShardEvent × ShardOutput)) : List ℤ :=
  trace.filterMap fun eo =>
    match eo.2 with
    | .passed r entry => if r.signed = q.signed then some entry else none
    | _ => none

/-- The readings of the handlers that passed a delivery of the registration `q`. -/
def routerPasses (q : Register) (trace : List (RouterEvent × RouterOutput)) : List ℤ :=
  trace.filterMap fun eo =>
    match eo.2 with
    | .passed r entry => if r.signed = q.signed then some entry else none
    | _ => none

/-- A handler gets to its replay test less than the skew after it started. -/
def ShardPrompt (s : ShardState) (e : ShardEvent) : Prop :=
  ClockReading s.clock ∧
  match e with
  | .finish handler _ =>
    ∀ entry, s.inflight[handler]? = some (some entry) → s.clock < entry + maxClockSkewMillis
  | _ => True

/-- The same for the router. -/
def RouterPrompt (s : RouterState) (e : RouterEvent) : Prop :=
  ClockReading s.clock ∧
  match e with
  | .finish handler _ =>
    ∀ entry, s.inflight[handler]? = some (some entry) → s.clock < entry + maxClockSkewMillis
  | _ => True

theorem passes_shard (q : Request) (tr : List (ShardEvent × ShardOutput)) :
    ReplayGate.passes (fun r : Request => r.signed = q.signed)
      (tr.map fun eo => (eo.1.gate, eo.2.gate)) = shardPasses q tr := by
  unfold ReplayGate.passes shardPasses
  rw [List.filterMap_map]
  refine List.filterMap_congr fun eo _ => ?_
  obtain ⟨e, out⟩ := eo
  cases out <;> rfl

theorem passes_router (q : Register) (tr : List (RouterEvent × RouterOutput)) :
    ReplayGate.passes (fun r : Register => r.signed = q.signed)
      (tr.map fun eo => (eo.1.gate, eo.2.gate)) = routerPasses q tr := by
  unfold ReplayGate.passes routerPasses
  rw [List.filterMap_map]
  refine List.filterMap_congr fun eo _ => ?_
  obtain ⟨e, out⟩ := eo
  cases out <;> rfl

theorem ShardPrompt.gate (s : ShardState) (e : ShardEvent) (h : ShardPrompt s e) :
    ReplayGate.Prompt ClockReading maxClockSkewMillis s.gate e.gate := by
  refine ⟨h.1, ?_⟩
  rcases e with d | _ | ⟨handler, r⟩ | op
  · trivial
  · trivial
  · exact h.2
  · cases op <;> trivial

theorem RouterPrompt.gate (s : RouterState) (e : RouterEvent) (h : RouterPrompt s e) :
    ReplayGate.Prompt ClockReading maxClockSkewMillis s.gate e.gate := by
  refine ⟨h.1, ?_⟩
  rcases e with d | _ | ⟨handler, r⟩
  · trivial
  · trivial
  · exact h.2

/-- A signed request passes the replay test of the shard at most once, and a registration
that of the router, in every run in which each handler gets to its replay test less than
the skew after it started. -/
theorem signed_request_passes_once (H : Bytes → Digest) (verify : Verifier) :
    (∀ (s : ShardState) (es : List ShardEvent) (q : Request), s.inflight = [] →
      (shard H verify).Along ShardPrompt s es →
        (shardPasses q ((shard H verify).trace s es)).length ≤ 1) ∧
    (∀ (s : RouterState) (es : List RouterEvent) (q : Register), s.inflight = [] →
      (router H verify).Along RouterPrompt s es →
        (routerPasses q ((router H verify).trace s es)).length ≤ 1) := by
  refine ⟨fun s es q hs hok => ?_, fun s es q hs hok => ?_⟩
  · have hgate := (shard_simulates H verify).along ShardPrompt.gate hok
    rw [← passes_shard, ← (shard_simulates H verify).trace]
    exact ReplayGate.passes_le_one (shardPolicy_narrow H verify q) hs _ hgate
  · have hgate := (router_simulates H verify).along RouterPrompt.gate hok
    rw [← passes_router, ← (router_simulates H verify).trace]
    exact ReplayGate.passes_le_one (routerPolicy_narrow H verify q) hs _ hgate

/-! ### A slow body -/

/-- A stand-in for a digest that tells the sample keys apart. -/
def replaySampleHash (b : Bytes) : Digest := copyArr 32 (b.drop 13)

/-- A stand-in for a signature scheme. -/
def acceptAll : Verifier := fun _ _ _ => true

def replaySampleSend : SendMessage where
  mailboxID := List.replicate 16 1
  envelope := [1]
  senderPub := List.replicate 32 2
  timestamp := 100000
  nonce := List.replicate 16 3
  signature := List.replicate 64 0
  ttlHintSec := 0
  burn := 1

def replaySampleRegister (pub : UInt8) (timestamp : UInt64) : Register where
  clientPub := List.replicate 32 pub
  timestamp := timestamp
  nonce := List.replicate 16 3
  signature := List.replicate 64 0

/-- Two deliveries a minute apart whose bodies are read within 29 seconds. -/
def promptSend : List ShardEvent :=
  [.enter, .finish 0 (.send replaySampleSend), .tick 60000, .enter, .tick 29999,
    .finish 1 (.send replaySampleSend)]

def promptRegister : List RouterEvent :=
  [.enter, .finish 0 (replaySampleRegister 2 100000), .tick 60000, .enter, .tick 29999,
    .finish 1 (replaySampleRegister 2 100000)]

theorem signed_request_passes_once_prompt :
    (shardPasses (.send replaySampleSend)
        ((shard replaySampleHash acceptAll).trace ⟨newMemStore, 70000, []⟩ promptSend)).length ≤ 1 ∧
    (routerPasses (replaySampleRegister 2 100000)
        ((router replaySampleHash acceptAll).trace ⟨∅, 70000, []⟩ promptRegister)).length ≤ 1 := by
  have reading : ∀ t : ℤ, 0 ≤ t → t < 2 ^ 62 → ClockReading t := fun _ h0 h1 => ⟨h0, h1⟩
  refine ⟨(signed_request_passes_once replaySampleHash acceptAll).1 _ _ _ rfl ?_,
    (signed_request_passes_once replaySampleHash acceptAll).2 _ _ _ rfl ?_⟩
  · refine ⟨⟨reading _ ?_ ?_, trivial⟩, ⟨reading _ ?_ ?_, fun entry h => ?_⟩,
      ⟨reading _ ?_ ?_, trivial⟩, ⟨reading _ ?_ ?_, trivial⟩, ⟨reading _ ?_ ?_, trivial⟩,
      ⟨reading _ ?_ ?_, fun entry h => ?_⟩, trivial⟩
    all_goals first
      | decide +kernel
      | (obtain rfl := Option.some.inj (Option.some.inj h); decide +kernel)
  · refine ⟨⟨reading _ ?_ ?_, trivial⟩, ⟨reading _ ?_ ?_, fun entry h => ?_⟩,
      ⟨reading _ ?_ ?_, trivial⟩, ⟨reading _ ?_ ?_, trivial⟩, ⟨reading _ ?_ ?_, trivial⟩,
      ⟨reading _ ?_ ?_, fun entry h => ?_⟩, trivial⟩
    all_goals first
      | decide +kernel
      | (obtain rfl := Option.some.inj (Option.some.inj h); decide +kernel)

/-- Two deliveries, the second of which starts within the skew and takes 30 seconds to
read its body. -/
def slowSend : List ShardEvent :=
  [.enter, .finish 0 (.send replaySampleSend), .tick 60000, .enter, .tick 30000,
    .finish 1 (.send replaySampleSend)]

/-- Two deliveries, between whose tests another registration prunes the cache. -/
def slowRegister : List RouterEvent :=
  [.enter, .finish 0 (replaySampleRegister 2 100000), .tick 60000, .enter, .tick 30000, .enter,
    .finish 2 (replaySampleRegister 5 160000), .finish 1 (replaySampleRegister 2 100000)]

/-- A handler that takes 30 seconds to read its body lets a request pass a second time, on
the shard and on the router. -/
theorem slow_body_passes_twice :
    shardPasses (.send replaySampleSend)
        ((shard replaySampleHash acceptAll).trace ⟨newMemStore, 70000, []⟩ slowSend) =
      [70000, 130000] ∧
    routerPasses (replaySampleRegister 2 100000)
        ((router replaySampleHash acceptAll).trace ⟨∅, 70000, []⟩ slowRegister) =
      [70000, 130000] := by
  decide +kernel

end FileRelay
