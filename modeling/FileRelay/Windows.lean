import FileRelay.FixedWindow
import FileRelay.ShardHandlers

/-!
# Rate limits

`allow` of the shard and `allowRL` of the router keep one fixed window for every key. The
calls on one key are a limiter of their own (`answers_eq`) : the others neither see nor change
its window.

`rate_limits` is the law of both for calls on a key whose clock never goes back : at most `max`
calls are admitted in a window, and at most `2 * max` in any minute. It stops at the end of
the clock, where the end of the window wraps around (`window_end_wraps`).
-/

namespace FileRelay

open FixedWindow (Slot Answer openings admitted)

/-- `allowRL` of the router, under its lock. -/
def allowRL (table : Buckets) (key : Bytes) (now max : ℤ) : Buckets × Bool :=
  takeSlot table key now max

/-- The arguments of a call of `allow`. -/
structure LimiterCall where
  key : Bytes
  now : ℤ
  max : ℤ
deriving DecidableEq, Repr

/-- `!ok || now >= w.resetAt`. -/
def opensWindow (buckets : Buckets) (key : Bytes) (now : ℤ) : Bool :=
  match buckets.lookup key with
  | none => true
  | some w => decide (w.resetAt ≤ now)

variable (take : Buckets → Bytes → ℤ → ℤ → Buckets × Bool)

/-- The limiter, with the calls that open a window marked in the trace. -/
def limiter : Machine Buckets LimiterCall Answer where
  step buckets c :=
    let r := take buckets c.key c.now c.max
    (r.1, ⟨opensWindow buckets c.key c.now, r.2⟩)

/-- What the calls on a key did, in a new limiter. -/
def answers (key : Bytes) (calls : List LimiterCall) : List (ℤ × Answer) :=
  (((limiter take).trace ∅ calls).filter fun c => c.1.key = key).map fun c => (c.1.now, c.2)

/-- The law of a limiter for the calls on a key. -/
structure LimiterLaw (key : Bytes) (max : ℤ) (calls : List LimiterCall) : Prop where
  /-- A window admits at most `max` calls. -/
  bounded : ∀ s ∈ openings (answers take key calls),
    (admitted s (s + 60000) (answers take key calls) : ℤ) ≤ max
  /-- Windows do not overlap. -/
  disjoint : (openings (answers take key calls)).Pairwise fun s s' => s + 60000 ≤ s'
  /-- Any minute admits at most `2 * max` calls. -/
  sliding : ∀ a, (admitted a (a + 60000) (answers take key calls) : ℤ) ≤ 2 * max
  /-- A call is refused only if the current window has admitted `max` calls. -/
  refused : ∀ pre c post, calls = pre ++ c :: post → c.key = key →
    (take ((limiter take).run ∅ pre) key c.now c.max).2 = false →
    ∃ s ∈ openings (answers take key pre), s ≤ c.now ∧ c.now < s + 60000 ∧
      (admitted s (s + 60000) (answers take key pre) : ℤ) = max
  /-- The calls on other keys do not matter. -/
  unaffected : ∀ calls' : List LimiterCall,
    (calls'.filter fun c => c.key = key) = (calls.filter fun c => c.key = key) →
    answers take key calls' = answers take key calls

/-! ## One key -/

/-- What the two limiters have in common. -/
structure PerKey : Prop where
  own : ∀ buckets key now max, 0 < max → take buckets key now max = takeSlot buckets key now max
  other : ∀ (buckets : Buckets) (key key' : Bytes) (now max : ℤ), key ≠ key' →
    (take buckets key' now max).1.lookup key = buckets.lookup key

theorem takeSlot_other (buckets : Buckets) (key key' : Bytes) (now max : ℤ) (h : key ≠ key') :
    (takeSlot buckets key' now max).1.lookup key = buckets.lookup key := by
  unfold takeSlot
  cases buckets.lookup key' with
  | none => exact Finmap.lookup_insert_of_ne _ h
  | some w =>
    dsimp only
    split_ifs
    · exact Finmap.lookup_insert_of_ne _ h
    · rfl
    · exact Finmap.lookup_insert_of_ne _ h

theorem perKey_allowRL : PerKey allowRL where
  own _ _ _ _ _ := rfl
  other := takeSlot_other

theorem perKey_allow : PerKey allow where
  own _ _ _ _ hmax := if_neg (not_le.mpr hmax)
  other buckets key key' now max h := by
    unfold allow
    split_ifs
    · rfl
    · exact takeSlot_other buckets key key' now max h

/-- The window of a key. -/
def slotOf (key : Bytes) (buckets : Buckets) : Option Slot :=
  (buckets.lookup key).map fun w => ⟨w.count, w.resetAt⟩

/-- The end of a window opened at this time is within `int64`. -/
def FitsClock (now : ℤ) : Prop :=
  -2 ^ 63 ≤ now ∧ now + 60000 < 2 ^ 63

theorem toInt64_windowEnd {now : ℤ} (h : FitsClock now) : toInt64 (now + 60000) = now + 60000 := by
  obtain ⟨hlo, hhi⟩ := h
  exact toInt64_of_fits (by omega) hhi

/-- A call on the key is a call of its own limiter. -/
theorem takeSlot_own (buckets : Buckets) (key : Bytes) (now max : ℤ) (hnow : FitsClock now) :
    slotOf key (takeSlot buckets key now max).1 =
        ((FixedWindow.limiter 60000 max).step (slotOf key buckets) now).1 ∧
      ⟨opensWindow buckets key now, (takeSlot buckets key now max).2⟩ =
        ((FixedWindow.limiter 60000 max).step (slotOf key buckets) now).2 := by
  have hend := toInt64_windowEnd hnow
  unfold takeSlot opensWindow slotOf FixedWindow.limiter
  rcases hlookup : buckets.lookup key with _ | w
  · simp [hend]
  · dsimp only [Option.map_some]
    by_cases hreset : w.resetAt ≤ now
    · simp [hreset, hend]
    · by_cases hfull : max ≤ w.count
      · simp [hreset, hfull, hlookup]
      · simp [hreset, hfull]

section Runs

variable {take} {key : Bytes} {max : ℤ}

/-- The calls on the key have one bound, and their windows end within `int64`. -/
def KeyCalls (key : Bytes) (max : ℤ) (calls : List LimiterCall) : Prop :=
  ∀ c ∈ calls, c.key = key → c.max = max ∧ FitsClock c.now

/-- The times of the calls on the key. -/
def keyTimes (key : Bytes) (calls : List LimiterCall) : List ℤ :=
  (calls.filter fun c => c.key = key).map LimiterCall.now

theorem slotOf_step_own (h : PerKey take) (hmax : 0 < max) (buckets : Buckets) {c : LimiterCall}
    (hkey : c.key = key) (hc : c.max = max ∧ FitsClock c.now) :
    slotOf key ((limiter take).step buckets c).1 =
        ((FixedWindow.limiter 60000 max).step (slotOf key buckets) c.now).1 ∧
      ((limiter take).step buckets c).2 =
        ((FixedWindow.limiter 60000 max).step (slotOf key buckets) c.now).2 := by
  subst hkey
  obtain ⟨rfl, hnow⟩ := hc
  have hown := h.own buckets c.key c.now c.max hmax
  have hslot := takeSlot_own buckets c.key c.now c.max hnow
  dsimp only [limiter]
  rw [hown]
  exact hslot

theorem slotOf_step_other (h : PerKey take) (buckets : Buckets) {c : LimiterCall}
    (hkey : c.key ≠ key) : slotOf key ((limiter take).step buckets c).1 = slotOf key buckets := by
  unfold slotOf
  rw [show ((limiter take).step buckets c).1.lookup key = buckets.lookup key from
    h.other buckets key c.key c.now c.max hkey.symm]

/-- A run seen from the key : its window and its answers are those of its own limiter. -/
theorem run_key (h : PerKey take) (hmax : 0 < max) : ∀ {calls : List LimiterCall}
    (buckets : Buckets), KeyCalls key max calls →
    slotOf key ((limiter take).run buckets calls) =
        (FixedWindow.limiter 60000 max).run (slotOf key buckets) (keyTimes key calls) ∧
      ((((limiter take).trace buckets calls).filter fun c => c.1.key = key).map
          fun c => (c.1.now, c.2)) =
        (FixedWindow.limiter 60000 max).trace (slotOf key buckets) (keyTimes key calls)
  | [], _, _ => ⟨rfl, rfl⟩
  | c :: calls, buckets, hcalls => by
    have hrest : KeyCalls key max calls := fun c' hc' => hcalls c' (List.mem_cons_of_mem c hc')
    obtain ⟨hrun, htrace⟩ := run_key h hmax ((limiter take).step buckets c).1 hrest
    by_cases hkey : c.key = key
    · obtain ⟨hslot, hanswer⟩ :=
        slotOf_step_own h hmax buckets hkey (hcalls c List.mem_cons_self hkey)
      rw [hslot] at hrun htrace
      have htimes : keyTimes key (c :: calls) = c.now :: keyTimes key calls := by
        simp [keyTimes, hkey]
      rw [htimes, Machine.run_cons, Machine.run_cons, Machine.trace_cons, Machine.trace_cons,
        List.filter_cons_of_pos (by simpa using hkey), List.map_cons, htrace, hanswer]
      exact ⟨hrun, rfl⟩
    · rw [slotOf_step_other h buckets hkey] at hrun htrace
      have htimes : keyTimes key (c :: calls) = keyTimes key calls := by
        simp [keyTimes, hkey]
      rw [htimes, Machine.run_cons, Machine.trace_cons,
        List.filter_cons_of_neg (by simpa using hkey)]
      exact ⟨hrun, htrace⟩

theorem answers_eq (h : PerKey take) (hmax : 0 < max) {calls : List LimiterCall}
    (hcalls : KeyCalls key max calls) :
    answers take key calls = (FixedWindow.limiter 60000 max).trace none (keyTimes key calls) :=
  (run_key h hmax ∅ hcalls).2

theorem keyCalls_of_filter {calls calls' : List LimiterCall} (hcalls : KeyCalls key max calls)
    (h : (calls'.filter fun c => c.key = key) = (calls.filter fun c => c.key = key)) :
    KeyCalls key max calls' := by
  intro c hc hkey
  have hmem : c ∈ calls'.filter fun c => c.key = key :=
    List.mem_filter.mpr ⟨hc, by simpa using hkey⟩
  rw [h] at hmem
  exact hcalls c (List.mem_filter.mp hmem).1 hkey

theorem minute_pos : (0 : ℤ) < 60000 := by
  decide

/-- A limiter that keeps its keys apart obeys the law. -/
theorem limiterLaw_of_perKey (h : PerKey take) (hmax : 0 < max) {calls : List LimiterCall}
    (hcalls : KeyCalls key max calls) (hclock : (keyTimes key calls).Pairwise (· ≤ ·)) :
    LimiterLaw take key max calls := by
  have hanswers := answers_eq h hmax hcalls
  have hledger := FixedWindow.ledger_run minute_pos hmax hclock
  rw [← hanswers] at hledger
  refine ⟨hledger.bounded, hledger.separated, hledger.sliding hmax, ?_, ?_⟩
  · rintro pre c post rfl rfl hrefused
    have hpre : KeyCalls c.key max pre := fun c' hc' => hcalls c' (List.mem_append_left _ hc')
    obtain ⟨hslot, hanswer⟩ := run_key h hmax ∅ hpre
    have hown := hcalls c (List.mem_append_right _ List.mem_cons_self) rfl
    have htimes : keyTimes c.key (pre ++ c :: post) =
        keyTimes c.key pre ++ c.now :: keyTimes c.key post := by
      simp [keyTimes]
    rw [htimes] at hclock
    obtain ⟨hsorted, -, hlater⟩ := List.pairwise_append.mp hclock
    have hledger := FixedWindow.ledger_run minute_pos hmax hsorted
    have hstep := (slotOf_step_own h hmax ((limiter take).run ∅ pre) rfl hown).2
    rw [hslot] at hstep
    have hfalse := congrArg Answer.admitted hstep
    rw [show ((limiter take).step ((limiter take).run ∅ pre) c).2.admitted = false from hrefused]
      at hfalse
    rw [answers_eq h hmax hpre]
    exact hledger.refused (fun s hs => hlater s (FixedWindow.openings_subset hs) c.now
      List.mem_cons_self) hfalse.symm
  · intro calls' hfilter
    rw [answers_eq h hmax (keyCalls_of_filter hcalls hfilter), hanswers, keyTimes, keyTimes,
      hfilter]

end Runs

/-- For every key, every positive bound and every list of calls on any keys in which the times
of the calls on this key never go back, and lie a minute before the end of the clock, both
limiters obey the law. -/
theorem rate_limits (key : Bytes) (max : ℤ) (hmax : 0 < max) (calls : List LimiterCall)
    (hcalls : ∀ c ∈ calls, c.key = key → c.max = max ∧ -2 ^ 63 ≤ c.now ∧ c.now + 60000 < 2 ^ 63)
    (hclock : ((calls.filter fun c => c.key = key).map LimiterCall.now).Pairwise (· ≤ ·)) :
    LimiterLaw allow key max calls ∧ LimiterLaw allowRL key max calls :=
  ⟨limiterLaw_of_perKey perKey_allow hmax hcalls hclock,
    limiterLaw_of_perKey perKey_allowRL hmax hcalls hclock⟩

/-- Three calls on a key with one slot, and one on another whose clock goes back. -/
def sampleCalls : List LimiterCall :=
  [⟨[1], 0, 1⟩, ⟨[1], 59999, 1⟩, ⟨[2], -5, 9⟩, ⟨[1], 60000, 1⟩]

theorem sampleCalls_limited :
    answers allow [1] sampleCalls =
        [(0, ⟨true, true⟩), (59999, ⟨false, false⟩), (60000, ⟨true, true⟩)] ∧
      LimiterLaw allow [1] 1 sampleCalls :=
  ⟨by decide +kernel, (rate_limits [1] 1 (by decide) sampleCalls (by decide) (by decide)).1⟩

/-- In the last minute of the clock the end of a window wraps around to the past, and every
call opens a window of its own. -/
theorem window_end_wraps :
    2 ^ 63 - 1 ∈ openings (answers allow [1] [⟨[1], 2 ^ 63 - 1, 1⟩, ⟨[1], 2 ^ 63 - 1, 1⟩]) ∧
      admitted (2 ^ 63 - 1) (2 ^ 63 - 1 + 60000)
        (answers allow [1] [⟨[1], 2 ^ 63 - 1, 1⟩, ⟨[1], 2 ^ 63 - 1, 1⟩]) = 2 := by
  decide +kernel

end FileRelay
