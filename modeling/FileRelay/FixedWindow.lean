import FileRelay.Machine
import Mathlib.Data.List.Pairwise
import Mathlib.Tactic.Linarith

/-!
# Fixed windows

A limiter that keeps one count and one reset time. The first call, and every call from the
reset time on, opens a window of length `len`; the others are counted in it, and refused from
the `max`-th on. A call is answered with what it did (`Answer`), so that the windows and the
admitted calls are read off the trace.

`ledger_run` is what holds after every list of calls whose times never go back : windows do
not overlap, and each admits at most `max` calls. `Ledger.sliding` follows for every other
interval of the same length, which meets at most two windows.
-/

namespace FixedWindow

/-- The window : how many calls it admitted, and its end. -/
structure Slot where
  count : ℕ
  resetAt : ℤ
deriving DecidableEq, Repr

/-- What a call did. -/
structure Answer where
  opened : Bool
  admitted : Bool
deriving DecidableEq, Repr

/-- The limiter. -/
def limiter (len max : ℤ) : Machine (Option Slot) ℤ Answer where
  step
    | none, now => (some ⟨1, now + len⟩, ⟨true, true⟩)
    | some w, now =>
      if w.resetAt ≤ now then (some ⟨1, now + len⟩, ⟨true, true⟩)
      else if max ≤ w.count then (some w, ⟨false, false⟩)
      else (some ⟨w.count + 1, w.resetAt⟩, ⟨false, true⟩)

/-- The starts of the windows. -/
def openings (tr : List (ℤ × Answer)) : List ℤ :=
  (tr.filter fun c => c.2.opened).map Prod.fst

/-- The call was admitted at a time from `a` to before `b`. -/
def AdmittedIn (a b : ℤ) (c : ℤ × Answer) : Prop :=
  c.2.admitted = true ∧ a ≤ c.1 ∧ c.1 < b

instance (a b : ℤ) (c : ℤ × Answer) : Decidable (AdmittedIn a b c) :=
  inferInstanceAs (Decidable (_ ∧ _))

/-- How many calls were admitted from `a` to before `b`. -/
def admitted (a b : ℤ) (tr : List (ℤ × Answer)) : ℕ :=
  tr.countP fun c => AdmittedIn a b c

/-! ## One more call -/

section Concat

variable (tr : List (ℤ × Answer)) (now : ℤ) (adm : Bool)

theorem openings_concat_opened :
    openings (tr ++ [(now, ⟨true, adm⟩)]) = openings tr ++ [now] := by
  simp [openings]

theorem openings_concat : openings (tr ++ [(now, ⟨false, adm⟩)]) = openings tr := by
  simp [openings]

theorem admitted_concat (a b : ℤ) (c : ℤ × Answer) :
    admitted a b (tr ++ [c]) = admitted a b tr + if AdmittedIn a b c then 1 else 0 := by
  simp [admitted, List.countP_append, List.countP_cons]

variable {tr}

theorem admitted_concat_of_not {a b : ℤ} {c : ℤ × Answer} (h : ¬AdmittedIn a b c) :
    admitted a b (tr ++ [c]) = admitted a b tr := by
  rw [admitted_concat, if_neg h, Nat.add_zero]

theorem admitted_concat_of {a b : ℤ} {c : ℤ × Answer} (h : AdmittedIn a b c) :
    admitted a b (tr ++ [c]) = admitted a b tr + 1 := by
  rw [admitted_concat, if_pos h]

theorem admitted_eq_zero {a b : ℤ} (h : ∀ c ∈ tr, ¬AdmittedIn a b c) : admitted a b tr = 0 :=
  List.countP_eq_zero.mpr fun c hc hin => h c hc (of_decide_eq_true hin)

/-- Calls that lie in one of two intervals are counted there. -/
theorem admitted_le_add {a b a₁ b₁ a₂ b₂ : ℤ} : ∀ {tr : List (ℤ × Answer)},
    (∀ c ∈ tr, AdmittedIn a b c → AdmittedIn a₁ b₁ c ∨ AdmittedIn a₂ b₂ c) →
    admitted a b tr ≤ admitted a₁ b₁ tr + admitted a₂ b₂ tr
  | [], _ => Nat.le_refl 0
  | c :: tr, h => by
    have ih := admitted_le_add fun c' hc' => h c' (List.mem_cons_of_mem c hc')
    have hc := h c List.mem_cons_self
    unfold admitted at ih ⊢
    simp only [List.countP_cons, decide_eq_true_eq]
    by_cases hin : AdmittedIn a b c
    · rcases hc hin with h₁ | h₂
      · rw [if_pos hin, if_pos h₁]
        omega
      · rw [if_pos hin, if_pos h₂]
        omega
    · rw [if_neg hin]
      omega

end Concat

/-! ## The ledger -/

/-- What the slot and the calls so far have to do with each other. -/
structure Ledger (len max : ℤ) (w : Option Slot) (tr : List (ℤ × Answer)) : Prop where
  /-- Windows do not overlap. -/
  separated : (openings tr).Pairwise fun s s' => s + len ≤ s'
  /-- A window admits at most `max` calls. -/
  bounded : ∀ s ∈ openings tr, (admitted s (s + len) tr : ℤ) ≤ max
  /-- Every admitted call lies in a window. -/
  covered : ∀ c ∈ tr, c.2.admitted = true → ∃ s ∈ openings tr, AdmittedIn s (s + len) c
  /-- Without a slot there was no call. -/
  fresh : w = none → openings tr = []
  /-- The slot is the last window. -/
  mem_openings : ∀ v, w = some v → v.resetAt - len ∈ openings tr
  last : ∀ v, w = some v → ∀ s ∈ openings tr, s + len = v.resetAt ∨ s + len ≤ v.resetAt - len
  count_eq : ∀ v, w = some v → v.count = admitted (v.resetAt - len) v.resetAt tr

variable {len max now : ℤ} {w : Option Slot} {tr : List (ℤ × Answer)}

theorem ledger_nil (len max : ℤ) : Ledger len max none [] where
  separated := List.Pairwise.nil
  bounded := nofun
  covered := nofun
  fresh _ := rfl
  mem_openings := nofun
  last := nofun
  count_eq := nofun

/-- A call from the end of the windows on opens the next one. -/
theorem Ledger.opens (h : Ledger len max w tr) (hlen : 0 < len) (hmax : 0 < max)
    (hend : ∀ s ∈ openings tr, s + len ≤ now) :
    Ledger len max (some ⟨1, now + len⟩) (tr ++ [(now, ⟨true, true⟩)]) := by
  have hself : AdmittedIn now (now + len) (now, ⟨true, true⟩) :=
    ⟨rfl, le_refl now, lt_add_of_pos_right now hlen⟩
  have hnone : admitted now (now + len) tr = 0 := by
    refine admitted_eq_zero fun c hc hin => ?_
    obtain ⟨s, hs, hcover⟩ := h.covered c hc hin.1
    have := hend s hs
    have := hcover.2.2
    have := hin.2.1
    omega
  have hone : admitted now (now + len) (tr ++ [(now, ⟨true, true⟩)]) = 1 := by
    rw [admitted_concat_of hself, hnone]
  have hold : ∀ s ∈ openings tr, ¬AdmittedIn s (s + len) (now, ⟨true, true⟩) := fun s hs hin =>
    absurd hin.2.2 (not_lt.mpr (hend s hs))
  have hopen := openings_concat_opened tr now true
  refine ⟨?_, ?_, ?_, nofun, ?_, ?_, ?_⟩
  · rw [hopen]
    refine List.pairwise_append.mpr ⟨h.separated, List.pairwise_singleton _ _, ?_⟩
    intro s hs s' hs'
    rw [List.mem_singleton.mp hs']
    exact hend s hs
  · intro s hs
    rw [hopen] at hs
    rcases List.mem_append.mp hs with hs | hs
    · rw [admitted_concat_of_not (hold s hs)]
      exact h.bounded s hs
    · rw [List.mem_singleton.mp hs, hone]
      exact hmax
  · intro c hc hadm
    rw [hopen]
    rcases List.mem_append.mp hc with hc | hc
    · obtain ⟨s, hs, hcover⟩ := h.covered c hc hadm
      exact ⟨s, List.mem_append_left _ hs, hcover⟩
    · rw [List.mem_singleton.mp hc]
      exact ⟨now, List.mem_append_right _ (List.mem_singleton_self now), hself⟩
  · rintro v ⟨⟩
    rw [hopen, add_sub_cancel_right]
    exact List.mem_append_right _ (List.mem_singleton_self now)
  · rintro v ⟨⟩ s hs
    rw [hopen] at hs
    rcases List.mem_append.mp hs with hs | hs
    · right
      rw [add_sub_cancel_right]
      exact hend s hs
    · left
      rw [List.mem_singleton.mp hs]
  · rintro v ⟨⟩
    rw [add_sub_cancel_right, hone]

/-- A refused call leaves the ledger. -/
theorem Ledger.refuses (h : Ledger len max w tr) :
    Ledger len max w (tr ++ [(now, ⟨false, false⟩)]) := by
  have hopen := openings_concat tr now false
  have hcount : ∀ a b, admitted a b (tr ++ [(now, ⟨false, false⟩)]) = admitted a b tr :=
    fun a b => admitted_concat_of_not fun hin => absurd hin.1 (by simp)
  refine ⟨?_, ?_, ?_, ?_, ?_, ?_, ?_⟩
  · rw [hopen]
    exact h.separated
  · intro s hs
    rw [hopen] at hs
    rw [hcount]
    exact h.bounded s hs
  · intro c hc hadm
    rw [hopen]
    rcases List.mem_append.mp hc with hc | hc
    · exact h.covered c hc hadm
    · rw [List.mem_singleton.mp hc] at hadm
      cases hadm
  · rw [hopen]
    exact h.fresh
  · rw [hopen]
    exact h.mem_openings
  · rw [hopen]
    exact h.last
  · intro v hv
    rw [hcount]
    exact h.count_eq v hv

/-- A call within the last window is counted in it and in no other. -/
theorem Ledger.counts {v : Slot} (h : Ledger len max (some v) tr)
    (hstart : v.resetAt - len ≤ now) (hend : now < v.resetAt) (hroom : (v.count : ℤ) < max) :
    Ledger len max (some ⟨v.count + 1, v.resetAt⟩) (tr ++ [(now, ⟨false, true⟩)]) := by
  have hself : AdmittedIn (v.resetAt - len) v.resetAt (now, ⟨false, true⟩) :=
    ⟨rfl, hstart, hend⟩
  have hcount : admitted (v.resetAt - len) v.resetAt (tr ++ [(now, ⟨false, true⟩)]) =
      v.count + 1 := by
    rw [admitted_concat_of hself, h.count_eq v rfl]
  have hopen := openings_concat tr now true
  refine ⟨?_, ?_, ?_, nofun, ?_, ?_, ?_⟩
  · rw [hopen]
    exact h.separated
  · intro s hs
    rw [hopen] at hs
    rcases h.last v rfl s hs with hlast | hbefore
    · have hs' : s = v.resetAt - len := by omega
      rw [hlast, hs', hcount]
      omega
    · have hout : ¬AdmittedIn s (s + len) (now, ⟨false, true⟩) := fun hin =>
        absurd hin.2.2 (not_lt.mpr (hbefore.trans hstart))
      rw [admitted_concat_of_not hout]
      exact h.bounded s hs
  · intro c hc hadm
    rw [hopen]
    rcases List.mem_append.mp hc with hc | hc
    · exact h.covered c hc hadm
    · rw [List.mem_singleton.mp hc]
      refine ⟨v.resetAt - len, h.mem_openings v rfl, ?_⟩
      rw [sub_add_cancel]
      exact hself
  · rintro u ⟨⟩
    rw [hopen]
    exact h.mem_openings v rfl
  · rintro u ⟨⟩
    rw [hopen]
    exact h.last v rfl
  · rintro u ⟨⟩
    exact hcount.symm

/-- One call, at a time that is not before the windows. -/
theorem Ledger.step (h : Ledger len max w tr) (hlen : 0 < len) (hmax : 0 < max)
    (hnow : ∀ s ∈ openings tr, s ≤ now) :
    Ledger len max ((limiter len max).step w now).1
      (tr ++ [(now, ((limiter len max).step w now).2)]) := by
  cases w with
  | none =>
    refine h.opens hlen hmax fun s hs => ?_
    rw [h.fresh rfl] at hs
    cases hs
  | some v =>
    dsimp only [limiter]
    split_ifs with hreset hfull
    · refine h.opens hlen hmax fun s hs => ?_
      rcases h.last v rfl s hs with hlast | hbefore <;> omega
    · exact h.refuses
    · exact h.counts (hnow _ (h.mem_openings v rfl)) (not_le.mp hreset) (not_le.mp hfull)

/-! ## Runs -/

theorem fst_mem_of_mem_trace {ts : List ℤ} {c : ℤ × Answer}
    (h : c ∈ (limiter len max).trace w ts) : c.1 ∈ ts := by
  obtain ⟨pre, post, rfl, -⟩ := Machine.mem_trace.mp h
  exact List.mem_append_right _ List.mem_cons_self

theorem openings_subset {ts : List ℤ} {s : ℤ}
    (h : s ∈ openings ((limiter len max).trace w ts)) : s ∈ ts := by
  obtain ⟨c, hc, rfl⟩ := List.mem_map.mp h
  exact fst_mem_of_mem_trace (List.mem_filter.mp hc).1

/-- The ledger holds after every run whose clock never goes back. -/
theorem ledger_run (hlen : 0 < len) (hmax : 0 < max) {ts : List ℤ} (hts : ts.Pairwise (· ≤ ·)) :
    Ledger len max ((limiter len max).run none ts) ((limiter len max).trace none ts) := by
  induction ts using List.reverseRecOn with
  | nil => exact ledger_nil len max
  | append_singleton ts now ih =>
    obtain ⟨hts, -, hlast⟩ := List.pairwise_append.mp hts
    rw [Machine.run_concat, Machine.trace_concat]
    exact (ih hts).step hlen hmax fun s hs =>
      hlast s (openings_subset hs) now (List.mem_singleton_self now)

/-- Two windows are the same or do not overlap. -/
theorem Ledger.apart (h : Ledger len max w tr) {s s' : ℤ} (hs : s ∈ openings tr)
    (hs' : s' ∈ openings tr) : s = s' ∨ s + len ≤ s' ∨ s' + len ≤ s := by
  let R : ℤ → ℤ → Prop := fun s s' => s = s' ∨ s + len ≤ s' ∨ s' + len ≤ s
  have hsymm : Std.Symm R := ⟨fun s s' hss' => by
    rcases hss' with rfl | hle | hle
    · exact .inl rfl
    · exact .inr (.inr hle)
    · exact .inr (.inl hle)⟩
  have hR : (openings tr).Pairwise R := h.separated.imp fun hle => .inr (.inl hle)
  exact hR.forall_of_forall (fun s _ => .inl rfl) hs hs'

/-- An interval as long as a window meets at most two windows. -/
theorem Ledger.sliding (h : Ledger len max w tr) (hmax : 0 < max) (a : ℤ) :
    (admitted a (a + len) tr : ℤ) ≤ 2 * max := by
  by_cases hnone : ∀ c ∈ tr, ¬AdmittedIn a (a + len) c
  · rw [admitted_eq_zero hnone]
    omega
  push Not at hnone
  obtain ⟨c, hc, hin⟩ := hnone
  obtain ⟨s, hs, hcover⟩ := h.covered c hc hin.1
  have hbound := h.bounded s hs
  -- The second window is that of a call outside the first, if there is one.
  obtain ⟨s', hs', htwo⟩ : ∃ s' ∈ openings tr, ∀ c ∈ tr, AdmittedIn a (a + len) c →
      AdmittedIn s (s + len) c ∨ AdmittedIn s' (s' + len) c := by
    by_cases hall : ∀ c ∈ tr, AdmittedIn a (a + len) c → AdmittedIn s (s + len) c
    · exact ⟨s, hs, fun c hc hin => .inl (hall c hc hin)⟩
    push Not at hall
    obtain ⟨c', hc', hin', hout'⟩ := hall
    obtain ⟨s', hs', hcover'⟩ := h.covered c' hc' hin'.1
    refine ⟨s', hs', fun d hd hind => ?_⟩
    obtain ⟨t, ht, hcovert⟩ := h.covered d hd hind.1
    have hne : s ≠ s' := by
      rintro rfl
      exact hout' hcover'
    have hst := h.apart hs ht
    have hst' := h.apart hs' ht
    have hss' := h.apart hs hs'
    have hor : t = s ∨ t = s' := by
      obtain ⟨-, h₁, h₂⟩ := hin
      obtain ⟨-, h₃, h₄⟩ := hcover
      obtain ⟨-, h₅, h₆⟩ := hin'
      obtain ⟨-, h₇, h₈⟩ := hcover'
      obtain ⟨-, h₉, h₁₀⟩ := hind
      obtain ⟨-, h₁₁, h₁₂⟩ := hcovert
      omega
    rcases hor with rfl | rfl
    · exact .inl hcovert
    · exact .inr hcovert
  have hbound' := h.bounded s' hs'
  have hle := admitted_le_add htwo
  omega

/-- A call is refused only in a window that has admitted `max` calls. -/
theorem Ledger.refused (h : Ledger len max w tr)
    (hnow : ∀ s ∈ openings tr, s ≤ now) (href : ((limiter len max).step w now).2.admitted = false) :
    ∃ s ∈ openings tr, s ≤ now ∧ now < s + len ∧ (admitted s (s + len) tr : ℤ) = max := by
  cases w with
  | none => cases href
  | some v =>
    dsimp only [limiter] at href
    split_ifs at href with hreset hfull
    have hmem := h.mem_openings v rfl
    have hbound := h.bounded _ hmem
    rw [sub_add_cancel, ← h.count_eq v rfl] at hbound
    refine ⟨v.resetAt - len, hmem, hnow _ hmem, ?_, ?_⟩
    · rw [sub_add_cancel]
      exact not_le.mp hreset
    · rw [sub_add_cancel, ← h.count_eq v rfl]
      exact le_antisymm hbound hfull

end FixedWindow
