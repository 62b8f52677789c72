import Mathlib.Data.Finmap
import Mathlib.Algebra.BigOperators.Group.Multiset.Basic
import Mathlib.Algebra.Order.BigOperators.Group.Multiset
import Mathlib.Algebra.GroupWithZero.Nat
import Mathlib.Algebra.Order.Group.Nat

/-!
# Unordered finite maps

Go's `map[K]V` is a finite map whose iteration order is unspecified. Mathlib's
`Finmap` is exactly that : two maps with the same lookups are equal. This file adds
the two things a `for k, v := range m` loop does with a map and Mathlib does not
state : rewriting or deleting every entry on its own (`collect`), and adding up a
number per entry (`sumBy`).

`lookup_collect` reads a rewritten map entry by entry. The `sumBy` lemmas follow the
map operations : `sumBy_insert_add` for an assignment, `sumBy_erase_add` for a
deletion.
-/

/-- A Go map from `κ` to `ν`. -/
abbrev GoMap (κ ν : Type*) := Finmap fun _ : κ => ν

namespace GoMap

variable {κ ν : Type*}

/-- An order in which `for k, v := range m` can visit the entries of `m`. -/
abbrev RangeOrder (m : GoMap κ ν) := {l : List (Σ _ : κ, ν) // (l : Multiset _) = m.entries}

/-! ## Rewriting every entry -/

/-- The entry `e` after `f`, or nothing if `f` deletes it. -/
def collectEntry (f : κ → ν → Option ν) (e : Σ _ : κ, ν) : Option (Σ _ : κ, ν) :=
  (f e.1 e.2).map fun v => ⟨e.1, v⟩

theorem keys_filterMap_sublist (f : κ → ν → Option ν) :
    ∀ l : List (Σ _ : κ, ν), List.Sublist (l.filterMap (collectEntry f)).keys l.keys
  | [] => by simp
  | e :: l => by
    cases h : f e.1 e.2 with
    | none =>
      simpa [List.filterMap_cons, collectEntry, h, List.keys] using
        (keys_filterMap_sublist f l).cons e.1
    | some v =>
      simpa [List.filterMap_cons, collectEntry, h, List.keys] using
        (keys_filterMap_sublist f l).cons_cons e.1

/-- `for k, v := range m` with an independent update of each entry : `f k v` is the
new value, or `none` to delete the key. -/
def collect (f : κ → ν → Option ν) (m : GoMap κ ν) : GoMap κ ν where
  entries := m.entries.filterMap (collectEntry f)
  nodupKeys := by
    obtain ⟨⟨l⟩, h⟩ := m
    exact List.Nodup.sublist (keys_filterMap_sublist f l) h

section Lookup

variable [DecidableEq κ]

theorem mem_entries_iff {m : GoMap κ ν} {k : κ} {v : ν} :
    (⟨k, v⟩ : Σ _ : κ, ν) ∈ m.entries ↔ m.lookup k = some v :=
  Finmap.lookup_eq_some_iff.symm

theorem lookup_empty_ne_some (k : κ) (v : ν) : (∅ : GoMap κ ν).lookup k ≠ some v := by
  rw [Finmap.lookup_empty]
  nofun

theorem lookup_collect (f : κ → ν → Option ν) (m : GoMap κ ν) (k : κ) :
    (collect f m).lookup k = (m.lookup k).bind (f k) := by
  ext v
  rw [← mem_entries_iff, Option.bind_eq_some_iff]
  constructor
  · intro h
    obtain ⟨⟨k', w⟩, hmem, hw⟩ := (Multiset.mem_filterMap _ _).1 h
    obtain ⟨v', hf, hv⟩ := Option.map_eq_some_iff.1 hw
    simp only [Sigma.mk.injEq, heq_eq_eq] at hv
    obtain ⟨rfl, rfl⟩ := hv
    exact ⟨w, mem_entries_iff.1 hmem, hf⟩
  · rintro ⟨w, hw, hf⟩
    exact (Multiset.mem_filterMap _ _).2
      ⟨⟨k, w⟩, mem_entries_iff.2 hw, by simp [collectEntry, hf]⟩

theorem insert_lookup_eq {m : GoMap κ ν} {k : κ} {v : ν} (h : m.lookup k = some v) :
    m.insert k v = m := by
  refine Finmap.ext_lookup fun x => ?_
  by_cases hx : x = k
  · subst hx
    rw [Finmap.lookup_insert, h]
  · rw [Finmap.lookup_insert_of_ne _ hx]

theorem insert_erase_eq (m : GoMap κ ν) (k : κ) (v : ν) :
    (m.erase k).insert k v = m.insert k v := by
  refine Finmap.ext_lookup fun x => ?_
  by_cases hx : x = k
  · subst hx
    rw [Finmap.lookup_insert, Finmap.lookup_insert]
  · rw [Finmap.lookup_insert_of_ne _ hx, Finmap.lookup_insert_of_ne _ hx,
      Finmap.lookup_erase_ne hx]

theorem erase_insert_eq (m : GoMap κ ν) (k : κ) (v : ν) : (m.insert k v).erase k = m.erase k := by
  refine Finmap.ext_lookup fun x => ?_
  by_cases hx : x = k
  · subst hx
    rw [Finmap.lookup_erase, Finmap.lookup_erase]
  · rw [Finmap.lookup_erase_ne hx, Finmap.lookup_erase_ne hx, Finmap.lookup_insert_of_ne _ hx]

theorem lookup_insert_eq (m : GoMap κ ν) (k x : κ) (v : ν) :
    (m.insert k v).lookup x = if x = k then some v else m.lookup x := by
  split_ifs with h
  · rw [h, Finmap.lookup_insert]
  · rw [Finmap.lookup_insert_of_ne _ h]

theorem lookup_erase_eq (m : GoMap κ ν) (k x : κ) :
    (m.erase k).lookup x = if x = k then none else m.lookup x := by
  split_ifs with h
  · rw [h, Finmap.lookup_erase]
  · rw [Finmap.lookup_erase_ne h]

end Lookup

/-! ## Adding up a number per entry -/

/-- `total := 0; for k, v := range m { total += f k v }`. -/
def sumBy (f : κ → ν → ℕ) (m : GoMap κ ν) : ℕ :=
  (m.entries.map fun e => f e.1 e.2).sum

@[simp] theorem sumBy_empty (f : κ → ν → ℕ) : sumBy f (∅ : GoMap κ ν) = 0 :=
  rfl

theorem sumBy_add (f g : κ → ν → ℕ) (m : GoMap κ ν) :
    sumBy (fun k v => f k v + g k v) m = sumBy f m + sumBy g m :=
  Multiset.sum_map_add

/-- A sum over a rewritten map counts each entry by what is left of it. -/
theorem sumBy_collect (f : κ → ν → ℕ) (c : κ → ν → Option ν) (m : GoMap κ ν) :
    sumBy f (collect c m) = sumBy (fun k v => (c k v).elim 0 (f k)) m := by
  change ((m.entries.filterMap (collectEntry c)).map fun e => f e.1 e.2).sum =
    (m.entries.map fun e => (c e.1 e.2).elim 0 (f e.1)).sum
  induction m.entries using Multiset.induction_on with
  | empty => rfl
  | cons e l ih =>
    rw [Multiset.map_cons, Multiset.sum_cons, ← ih]
    cases h : c e.1 e.2 with
    | none =>
      rw [Multiset.filterMap_cons_none _ _ (by rw [collectEntry, h]; rfl), Option.elim_none,
        Nat.zero_add]
    | some v =>
      rw [Multiset.filterMap_cons_some _ _ _ (by rw [collectEntry, h]; rfl), Multiset.map_cons,
        Multiset.sum_cons, Option.elim_some]

/-- `len(m)`. -/
def len (m : GoMap κ ν) : ℕ :=
  sumBy (fun _ _ => 1) m

variable [DecidableEq κ]

theorem sumBy_insert_of_notMem (f : κ → ν → ℕ) {m : GoMap κ ν} {k : κ} {v : ν} (h : k ∉ m) :
    sumBy f (m.insert k v) = f k v + sumBy f m := by
  rw [sumBy, Finmap.entries_insert_of_notMem h, Multiset.map_cons, Multiset.sum_cons, sumBy]

/-- An assignment counts the new value in place of whatever the key held. -/
theorem sumBy_insert (f : κ → ν → ℕ) (m : GoMap κ ν) (k : κ) (v : ν) :
    sumBy f (m.insert k v) = f k v + sumBy f (m.erase k) := by
  rw [← insert_erase_eq, sumBy_insert_of_notMem f Finmap.notMem_erase_self]

theorem sumBy_erase_add (f : κ → ν → ℕ) {m : GoMap κ ν} {k : κ} {v : ν}
    (h : m.lookup k = some v) : sumBy f m = f k v + sumBy f (m.erase k) := by
  rw [← sumBy_insert, insert_lookup_eq h]

theorem erase_of_lookup_none {m : GoMap κ ν} {k : κ} (h : m.lookup k = none) :
    m.erase k = m := by
  refine Finmap.ext_lookup fun x => ?_
  by_cases hx : x = k
  · subst hx
    rw [Finmap.lookup_erase, h]
  · rw [Finmap.lookup_erase_ne hx]

/-- Replacing a value changes the sum by the difference of the two values. -/
theorem sumBy_insert_add (f : κ → ν → ℕ) {m : GoMap κ ν} {k : κ} {v w : ν}
    (h : m.lookup k = some v) : sumBy f (m.insert k w) + f k v = sumBy f m + f k w := by
  rw [sumBy_insert, sumBy_erase_add f h]
  omega

/-- One entry never counts for more than the whole. -/
theorem le_sumBy (f : κ → ν → ℕ) {m : GoMap κ ν} {k : κ} {v : ν} (h : m.lookup k = some v) :
    f k v ≤ sumBy f m := by
  rw [sumBy_erase_add f h]
  exact Nat.le_add_right _ _

theorem sumBy_mono {f g : κ → ν → ℕ} {m : GoMap κ ν}
    (h : ∀ k v, m.lookup k = some v → f k v ≤ g k v) : sumBy f m ≤ sumBy g m :=
  Multiset.sum_map_le_sum_map _ _ fun e he => h e.1 e.2 (mem_entries_iff.1 he)

theorem sumBy_congr {f g : κ → ν → ℕ} {m : GoMap κ ν}
    (h : ∀ k v, m.lookup k = some v → f k v = g k v) : sumBy f m = sumBy g m :=
  Nat.le_antisymm (sumBy_mono fun k v hv => (h k v hv).le) (sumBy_mono fun k v hv => (h k v hv).ge)

theorem sumBy_eq_zero {f : κ → ν → ℕ} {m : GoMap κ ν}
    (h : ∀ k v, m.lookup k = some v → f k v = 0) : sumBy f m = 0 := by
  rw [sumBy_congr h]
  exact Multiset.sum_map_zero

/-- The entries of a map are those left and those deleted. -/
theorem len_collect_add (c : κ → ν → Option ν) (m : GoMap κ ν) :
    len m = len (collect c m) + sumBy (fun k v => if (c k v).isNone then 1 else 0) m := by
  unfold len
  rw [sumBy_collect, ← sumBy_add]
  refine sumBy_congr fun k v _ => ?_
  cases c k v <;> rfl

/-! ## Comparing two maps key by key -/

/-- What the key `k` counts for. -/
def valueAt (f : κ → ν → ℕ) (m : GoMap κ ν) (k : κ) : ℕ :=
  (m.lookup k).elim 0 (f k)

theorem sumBy_eq_valueAt_add (f : κ → ν → ℕ) (m : GoMap κ ν) (k : κ) :
    sumBy f m = valueAt f m k + sumBy f (m.erase k) := by
  unfold valueAt
  cases h : m.lookup k with
  | none => rw [erase_of_lookup_none h, Option.elim_none, Nat.zero_add]
  | some v => rw [sumBy_erase_add f h, Option.elim_some]

theorem valueAt_erase (f : κ → ν → ℕ) (m : GoMap κ ν) (k x : κ) :
    valueAt f (m.erase k) x = if x = k then 0 else valueAt f m x := by
  unfold valueAt
  rw [lookup_erase_eq]
  split_ifs <;> rfl

/-- A map is built by assigning new keys. -/
theorem insert_induction {P : GoMap κ ν → Prop} (empty : P ∅)
    (insert : ∀ (m : GoMap κ ν) k v, k ∉ m → P m → P (Finmap.insert k v m)) (m : GoMap κ ν) :
    P m := by
  refine Finmap.induction_on m fun l => ?_
  refine AList.insertRec (C := fun l => P l.toFinmap) empty (fun k v l hk ih => ?_) l
  rw [← Finmap.insert_toFinmap]
  exact insert _ k v hk ih

/-- If no key counts for more, the sum is not larger. -/
theorem sumBy_le_of_valueAt (f : κ → ν → ℕ) {m m' : GoMap κ ν}
    (h : ∀ k, valueAt f m' k ≤ valueAt f m k) : sumBy f m' ≤ sumBy f m := by
  revert m
  induction m' using insert_induction with
  | empty => exact fun _ => Nat.zero_le _
  | insert m' a v ha ih =>
    intro m h
    have hva : valueAt f (m'.insert a v) a = f a v := by
      rw [valueAt, Finmap.lookup_insert, Option.elim_some]
    rw [sumBy_insert_of_notMem f ha, sumBy_eq_valueAt_add f m a]
    refine Nat.add_le_add (hva ▸ h a) (ih fun k => ?_)
    rw [valueAt_erase]
    split_ifs with hk
    · rw [hk, valueAt, Finmap.lookup_eq_none.mpr ha, Option.elim_none]
    · have hk' := h k
      rwa [valueAt, Finmap.lookup_insert_of_ne _ hk] at hk'

/-- If one key counts for at most `d` more and the others for no more, so does the sum. -/
theorem sumBy_le_add_of_valueAt (f : κ → ν → ℕ) {m m' : GoMap κ ν} (k : κ) (d : ℕ)
    (hk : valueAt f m' k ≤ valueAt f m k + d) (h : ∀ x, x ≠ k → valueAt f m' x ≤ valueAt f m x) :
    sumBy f m' ≤ sumBy f m + d := by
  have hrest : sumBy f (m'.erase k) ≤ sumBy f (m.erase k) := by
    refine sumBy_le_of_valueAt f fun x => ?_
    rw [valueAt_erase, valueAt_erase]
    split_ifs with hx
    · exact Nat.le_refl _
    · exact h x hx
  rw [sumBy_eq_valueAt_add f m' k, sumBy_eq_valueAt_add f m k]
  omega

/-- If a key counts for more only when `p` picks it, with a bound on the difference, and `p`
picks at most one key, then so does the sum. -/
theorem sumBy_le_or_of_valueAt (f : κ → ν → ℕ) (m m' : GoMap κ ν) {p : κ → ℕ → Prop}
    (unique : ∀ k d k' d', p k d → p k' d' → k = k')
    (h : ∀ k, valueAt f m' k ≤ valueAt f m k ∨
      ∃ d, p k d ∧ valueAt f m' k ≤ valueAt f m k + d) :
    sumBy f m' ≤ sumBy f m ∨ ∃ k d, p k d ∧ sumBy f m' ≤ sumBy f m + d := by
  by_cases hp : ∃ k d, p k d ∧ valueAt f m' k ≤ valueAt f m k + d
  · obtain ⟨k, d, hk, hle⟩ := hp
    refine Or.inr ⟨k, d, hk, sumBy_le_add_of_valueAt f k d hle fun x hx => ?_⟩
    rcases h x with hle' | ⟨d', hx', -⟩
    · exact hle'
    · exact absurd (unique x d' k d hx' hk) hx
  · refine Or.inl (sumBy_le_of_valueAt f fun k => ?_)
    rcases h k with hle | hk
    · exact hle
    · exact absurd ⟨k, hk⟩ hp

/-- A map with keys below `n` counts for no more than `g` over those keys. -/
theorem sumBy_le_range {f : ℕ → ν → ℕ} {g : ℕ → ℕ} : ∀ {n : ℕ} {m : GoMap ℕ ν},
    (∀ k v, m.lookup k = some v → k < n ∧ f k v ≤ g k) →
      sumBy f m ≤ ((List.range n).map g).sum
  | 0, m, h => by
    rw [sumBy_eq_zero fun k v hv => absurd (h k v hv).1 (Nat.not_lt_zero k)]
    exact Nat.zero_le _
  | n + 1, m, h => by
    have hrest : sumBy f (m.erase n) ≤ ((List.range n).map g).sum := by
      refine sumBy_le_range fun k v hv => ?_
      rw [lookup_erase_eq] at hv
      split_ifs at hv with hk
      obtain ⟨hlt, hle⟩ := h k v hv
      exact ⟨by omega, hle⟩
    have hlast : valueAt f m n ≤ g n := by
      unfold valueAt
      cases hv : m.lookup n with
      | none => exact Nat.zero_le _
      | some v => exact (h n v hv).2
    rw [sumBy_eq_valueAt_add f m n, List.range_succ, List.map_append, List.sum_append,
      List.map_singleton, List.sum_singleton]
    omega

end GoMap
