import FileRelay.GoMap
import FileRelay.Machine
import Mathlib.Tactic.Linarith

/-!
# Replay caches with a window

A server answers requests in handlers. A handler reads the clock when it starts, gets its
request some time later, accepts or refuses it against the reading it started with, and
then tests the key of the request against a cache : a key that is in the cache and not
out of date is a replay, any other is put into it until the `expiry` of the time of the
test. Keys that are out of date are dropped along the way.

`passes_le_one` : if any two readings that accept one request are at most `spread` apart,
if every handler tests its key less than `delay` after its reading, and if the expiry is
`spread + delay` after the reading at least, then one request passes the test at most once,
however the handlers and the pruning are interleaved. It does not matter whether the test
uses the handler's first reading or a new one. Nothing else is asked of the expiry, which
may be computed in a fixed width as long as it is right at the readings a clock gives.
-/

set_option linter.unusedSectionVars false

namespace ReplayGate

variable {ρ κ : Type} [DecidableEq κ]

/-! ## The cache -/

/-- Drop the keys that are out of date. -/
def prune (cache : GoMap κ ℤ) (now : ℤ) : GoMap κ ℤ :=
  cache.collect fun _ exp => if exp ≤ now then none else some exp

/-- Test a key, with `true` for a replay. A key that is no replay is put into the cache. -/
def test (expiry : ℤ → ℤ) (cache : GoMap κ ℤ) (key : κ) (now : ℤ) : GoMap κ ℤ × Bool :=
  let fresh := ((prune cache now).insert key (expiry now), false)
  match cache.lookup key with
  | some exp => if now < exp then (cache, true) else fresh
  | none => fresh

/-- The cache holds the key until `d` at least. -/
def Held (cache : GoMap κ ℤ) (key : κ) (d : ℤ) : Prop :=
  ∃ exp, cache.lookup key = some exp ∧ d ≤ exp

theorem held_prune {cache : GoMap κ ℤ} {key : κ} {d now : ℤ} (h : Held cache key d)
    (hnow : now < d) : Held (prune cache now) key d := by
  obtain ⟨exp, hl, hd⟩ := h
  refine ⟨exp, ?_, hd⟩
  unfold prune
  rw [GoMap.lookup_collect, hl, Option.bind_some, if_neg (by omega)]

/-- A held key is a replay. -/
theorem test_of_held {expiry : ℤ → ℤ} {cache : GoMap κ ℤ} {key : κ} {d now : ℤ}
    (h : Held cache key d) (hnow : now < d) : test expiry cache key now = (cache, true) := by
  obtain ⟨exp, hl, hd⟩ := h
  unfold test
  rw [hl]
  exact if_pos (by omega)

/-- A key that passes is held until its expiry. -/
theorem held_of_test {expiry : ℤ → ℤ} {cache : GoMap κ ℤ} {key : κ} {now : ℤ}
    (h : (test expiry cache key now).2 = false) :
    Held (test expiry cache key now).1 key (expiry now) := by
  have hfresh : Held ((prune cache now).insert key (expiry now)) key (expiry now) :=
    ⟨expiry now, Finmap.lookup_insert _, le_refl _⟩
  unfold test at h ⊢
  split at h
  · split_ifs at h with hlt
    simp only [hlt, if_false]
    exact hfresh
  · exact hfresh

/-- Testing any key keeps the keys that are still in date. -/
theorem held_test {expiry : ℤ → ℤ} {cache : GoMap κ ℤ} {key : κ} {d now : ℤ}
    (h : Held cache key d) (hnow : now < d) (key' : κ) :
    Held (test expiry cache key' now).1 key d := by
  by_cases hk : key = key'
  · subst hk
    rw [test_of_held h hnow]
    exact h
  · have hfresh : Held ((prune cache now).insert key' (expiry now)) key d := by
      obtain ⟨exp, hl, hd⟩ := held_prune h hnow
      exact ⟨exp, by rw [GoMap.lookup_insert_eq, if_neg hk, hl], hd⟩
    unfold test
    split
    · split_ifs
      · exact h
      · exact hfresh
    · exact hfresh

/-! ## The handlers -/

/-- What a server does with a request. -/
structure Policy (ρ κ : Type) where
  /-- How long a key tested at a time is kept. -/
  expiry : ℤ → ℤ
  key : ρ → κ
  accepts : ρ → ℤ → Bool
  /-- The time of the test, from the handler's reading and the present one. -/
  testTime : ℤ → ℤ → ℤ

/-- The cache, the clock, and for each handler started its reading until it is done. -/
structure State (κ : Type) where
  cache : GoMap κ ℤ
  clock : ℤ
  inflight : List (Option ℤ)

inductive Event (ρ κ : Type)
  | tick (d : ℕ)
  | enter
  | finish (handler : ℕ) (r : ρ)
  | probe (key : κ)
  | sweep

inductive Output (ρ : Type)
  | quiet
  | refused
  | replayed (r : ρ)
  | passed (r : ρ) (entry : ℤ)

/-- A handler that started at `entry` has got its request. -/
def Policy.answer (p : Policy ρ κ) (s : State κ) (entry : ℤ) (r : ρ) : State κ × Output ρ :=
  if p.accepts r entry then
    let t := test p.expiry s.cache (p.key r) (p.testTime entry s.clock)
    ({ s with cache := t.1 }, if t.2 then .replayed r else .passed r entry)
  else (s, .refused)

/-- One event. `probe` and `sweep` are what others do to the cache. -/
def Policy.step (p : Policy ρ κ) (s : State κ) : Event ρ κ → State κ × Output ρ
  | .tick d => ({ s with clock := s.clock + d }, .quiet)
  | .enter => ({ s with inflight := s.inflight ++ [some s.clock] }, .quiet)
  | .finish handler r =>
    match s.inflight[handler]? with
    | some (some entry) => p.answer { s with inflight := s.inflight.set handler none } entry r
    | _ => (s, .quiet)
  | .probe key => ({ s with cache := (test p.expiry s.cache key s.clock).1 }, .quiet)
  | .sweep => ({ s with cache := prune s.cache s.clock }, .quiet)

/-- The server as a machine. -/
def Policy.gate (p : Policy ρ κ) : Machine (State κ) (Event ρ κ) (Output ρ) where
  step := p.step

/-- The reading of the handler that passed the request, if the request is in `same`. -/
def passOf (same : ρ → Prop) [DecidablePred same] : Output ρ → Option ℤ
  | .passed r entry => if same r then some entry else none
  | _ => none

/-- The readings of the handlers that passed a request in `same`. -/
def passes (same : ρ → Prop) [DecidablePred same] (trace : List (Event ρ κ × Output ρ)) : List ℤ :=
  trace.filterMap fun eo => passOf same eo.2

/-- A step at a valid clock reading, and less than `delay` after the handler's own. -/
def Prompt (valid : ℤ → Prop) (delay : ℤ) (s : State κ) (e : Event ρ κ) : Prop :=
  valid s.clock ∧
  match e with
  | .finish handler _ =>
    ∀ entry, s.inflight[handler]? = some (some entry) → s.clock < entry + delay
  | _ => True

/-- A key is kept for longer than what separates two tests of one request. -/
structure Narrow (p : Policy ρ κ) (same : ρ → Prop) (key : κ) (valid : ℤ → Prop)
    (spread delay : ℤ) : Prop where
  key_eq : ∀ r, same r → p.key r = key
  spread_le : ∀ r r' e e', same r → same r' → valid e → valid e' → p.accepts r e = true →
    p.accepts r' e' = true → e' ≤ e + spread
  testTime_le : ∀ entry clock, entry ≤ clock → p.testTime entry clock ≤ clock
  covers : ∀ entry clock, valid entry → valid clock → entry ≤ clock →
    entry + (spread + delay) ≤ p.expiry (p.testTime entry clock)

/-! ## At most one pass -/

/-- The key is held until `d`, or `d` is past. -/
def HeldOrPast (cache : GoMap κ ℤ) (clock : ℤ) (key : κ) (d : ℤ) : Prop :=
  Held cache key d ∨ d ≤ clock

theorem HeldOrPast.test {expiry : ℤ → ℤ} {cache : GoMap κ ℤ} {clock now d : ℤ} {key : κ}
    (h : HeldOrPast cache clock key d) (hnow : now ≤ clock) (key' : κ) :
    HeldOrPast (test expiry cache key' now).1 clock key d := by
  rcases h with h | h
  · by_cases hd : now < d
    · exact Or.inl (held_test h hd key')
    · exact Or.inr (by omega)
  · exact Or.inr h

theorem HeldOrPast.prune {cache : GoMap κ ℤ} {clock d : ℤ} {key : κ}
    (h : HeldOrPast cache clock key d) : HeldOrPast (prune cache clock) clock key d := by
  rcases h with h | h
  · by_cases hd : clock < d
    · exact Or.inl (held_prune h hd)
    · exact Or.inr (by omega)
  · exact Or.inr h

/-- What holds after every run : handlers started at valid readings, and at most one of
them has passed the request, whose key is still held as long as it matters. -/
structure Inv (p : Policy ρ κ) (same : ρ → Prop) (key : κ) (valid : ℤ → Prop)
    (window : ℤ) (s : State κ) (ps : List ℤ) : Prop where
  inflight : ∀ entry, some entry ∈ s.inflight → valid entry ∧ entry ≤ s.clock
  passed : ps = [] ∨ ∃ entry r, ps = [entry] ∧ same r ∧ valid entry ∧ p.accepts r entry = true ∧
    HeldOrPast s.cache s.clock key (entry + window)

variable {p : Policy ρ κ} {same : ρ → Prop} {key : κ} {valid : ℤ → Prop}
  {spread delay window : ℤ}

/-- An event that passes nothing and keeps the keys in date keeps the invariant. -/
theorem Inv.quiet {s s' : State κ} {ps : List ℤ} (inv : Inv p same key valid window s ps)
    (hin : ∀ entry, some entry ∈ s'.inflight → valid entry ∧ entry ≤ s'.clock)
    (hheld : ∀ d, HeldOrPast s.cache s.clock key d → HeldOrPast s'.cache s'.clock key d) :
    Inv p same key valid window s' ps := by
  refine ⟨hin, ?_⟩
  rcases inv.passed with h | ⟨entry, r, hps, hr, hv, ha, hd⟩
  · exact Or.inl h
  · exact Or.inr ⟨entry, r, hps, hr, hv, ha, hheld _ hd⟩

theorem Inv.append_nil {s : State κ} {ps : List ℤ} (inv : Inv p same key valid window s ps) :
    Inv p same key valid window s (ps ++ []) := by
  rw [List.append_nil]
  exact inv

variable [DecidablePred same]

theorem Inv.answer {s : State κ} {ps : List ℤ} (inv : Inv p same key valid (spread + delay) s ps)
    (narrow : Narrow p same key valid spread delay) {entry : ℤ} (hvalid : valid entry)
    (hnow : valid s.clock) (hle : entry ≤ s.clock) (hclock : s.clock < entry + delay) (r : ρ) :
    Inv p same key valid (spread + delay) (p.answer s entry r).1
      (ps ++ (passOf same (p.answer s entry r).2).toList) := by
  have htime := narrow.testTime_le entry s.clock hle
  have hkeep : ∀ k d, HeldOrPast s.cache s.clock key d →
      HeldOrPast (test p.expiry s.cache k (p.testTime entry s.clock)).1 s.clock key d :=
    fun k d hd => hd.test htime k
  unfold Policy.answer
  by_cases hacc : p.accepts r entry = true
  · rw [if_pos hacc]
    dsimp only
    by_cases hsame : same r
    · rw [narrow.key_eq r hsame]
      rcases inv.passed with rfl | ⟨entry', r', rfl, hr', hv', ha', hd⟩
      · cases ht : (test p.expiry s.cache key (p.testTime entry s.clock)).2 with
        | true => exact inv.quiet inv.inflight (hkeep key)
        | false =>
          refine ⟨inv.inflight, Or.inr ⟨entry, r, ?_, hsame, hvalid, hacc, Or.inl ?_⟩⟩
          · simp [passOf, hsame]
          · obtain ⟨exp, hl, hexp⟩ := held_of_test ht
            exact ⟨exp, hl, (narrow.covers entry s.clock hvalid hnow hle).trans hexp⟩
      · -- the request has passed before, and its key is still held
        have hspread := narrow.spread_le r' r entry' entry hr' hsame hv' hvalid ha' hacc
        have hheld : Held s.cache key (entry' + (spread + delay)) := by
          rcases hd with hd | hd
          · exact hd
          · omega
        rw [test_of_held hheld (by omega)]
        exact ⟨inv.inflight, Or.inr ⟨entry', r', rfl, hr', hv', ha', Or.inl hheld⟩⟩
    · have hpass : passOf same (if (test p.expiry s.cache (p.key r)
          (p.testTime entry s.clock)).2 = true then Output.replayed r else .passed r entry) =
          none := by
        split_ifs
        · rfl
        · exact if_neg hsame
      rw [hpass, Option.toList_none, List.append_nil]
      exact inv.quiet inv.inflight (hkeep _)
  · rw [if_neg hacc]
    exact inv.append_nil

/-- One event. -/
theorem Inv.step {s : State κ} {ps : List ℤ} (inv : Inv p same key valid (spread + delay) s ps)
    (narrow : Narrow p same key valid spread delay) {e : Event ρ κ} (hok : Prompt valid delay s e) :
    Inv p same key valid (spread + delay) (p.step s e).1
      (ps ++ (passOf same (p.step s e).2).toList) := by
  cases e with
  | tick d =>
    refine (inv.quiet (fun entry he => ?_) fun d' hd => ?_).append_nil
    · obtain ⟨hv, hle⟩ := inv.inflight entry he
      refine ⟨hv, hle.trans ?_⟩
      change s.clock ≤ s.clock + d
      omega
    · rcases hd with hd | hd
      · exact Or.inl hd
      · refine Or.inr (hd.trans ?_)
        change s.clock ≤ s.clock + d
        omega
  | enter =>
    have hin : ∀ entry, some entry ∈ s.inflight ++ [some s.clock] →
        valid entry ∧ entry ≤ s.clock := by
      intro entry he
      rcases List.mem_append.mp he with he | he
      · exact inv.inflight entry he
      · obtain rfl := Option.some.inj (List.mem_singleton.mp he)
        exact ⟨hok.1, le_refl _⟩
    have hinv : Inv p same key valid (spread + delay) (p.step s .enter).1 ps :=
      inv.quiet hin fun d hd => hd
    exact hinv.append_nil
  | finish handler r =>
    rcases hh : s.inflight[handler]? with _ | _ | entry
    · simp only [Policy.step, hh]
      exact inv.append_nil
    · simp only [Policy.step, hh]
      exact inv.append_nil
    · obtain ⟨hvalid, hle⟩ := inv.inflight entry (List.mem_of_getElem? hh)
      have hset : Inv p same key valid (spread + delay)
          { s with inflight := s.inflight.set handler none } ps := by
        refine inv.quiet (fun e' he' => ?_) fun d hd => hd
        rcases List.mem_or_eq_of_mem_set he' with he' | he'
        · exact inv.inflight e' he'
        · cases he'
      simpa only [Policy.step, hh] using hset.answer narrow hvalid hok.1 hle (hok.2 entry hh) r
  | probe k =>
    have hinv : Inv p same key valid (spread + delay) (p.step s (.probe k)).1 ps :=
      inv.quiet inv.inflight fun d hd => hd.test (le_refl _) k
    exact hinv.append_nil
  | sweep =>
    have hinv : Inv p same key valid (spread + delay) (p.step s .sweep).1 ps :=
      inv.quiet inv.inflight fun d hd => hd.prune
    exact hinv.append_nil

theorem passes_concat (tr : List (Event ρ κ × Output ρ)) (e : Event ρ κ) (o : Output ρ) :
    passes same (tr ++ [(e, o)]) = passes same tr ++ (passOf same o).toList := by
  unfold passes
  rw [List.filterMap_append]
  refine congrArg _ ?_
  cases h : passOf same o <;> simp [h]

/-- One request passes at most once in every run of prompt steps. -/
theorem passes_le_one (narrow : Narrow p same key valid spread delay) {s : State κ}
    (hs : s.inflight = []) (es : List (Event ρ κ))
    (hok : p.gate.Along (Prompt valid delay) s es) :
    (passes same (p.gate.trace s es)).length ≤ 1 := by
  have hinv : p.gate.Along (Prompt valid delay) s es →
      Inv p same key valid (spread + delay) (p.gate.run s es)
        (passes same (p.gate.trace s es)) := by
    refine Machine.history_induction
      (P := fun es s' tr => p.gate.Along (Prompt valid delay) s es →
        Inv p same key valid (spread + delay) s' (passes same tr))
      (fun _ => ?_) (fun es e ih hok => ?_) es
    · refine ⟨fun entry he => ?_, Or.inl rfl⟩
      rw [hs] at he
      cases he
    · obtain ⟨hes, he⟩ := (Machine.along_concat _ _ _ _).mp hok
      have hstep := (ih hes).step narrow he
      rw [← passes_concat] at hstep
      exact hstep
  rcases (hinv hok).passed with h | ⟨entry, r, h, -⟩
  · rw [h]
    exact Nat.zero_le _
  · rw [h]
    exact le_refl _

end ReplayGate
