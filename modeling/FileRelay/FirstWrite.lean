import FileRelay.GoMap

/-!
# Maps in which the first write stays

An entry is written unless its key is taken. Of a list of entries that never give two values to
one key, only the set counts : order and repetition do not (`writeAll_congr`).
-/

namespace FirstWrite

variable {κ ν : Type*} [DecidableEq κ]

/-- Write an entry unless its key is taken. -/
def write (m : GoMap κ ν) (e : κ × ν) : GoMap κ ν :=
  match m.lookup e.1 with
  | some _ => m
  | none => m.insert e.1 e.2

/-- Write the entries in order. -/
def writeAll (m : GoMap κ ν) (es : List (κ × ν)) : GoMap κ ν :=
  es.foldl write m

/-- No key is given two values. -/
def Consistent (es : List (κ × ν)) : Prop :=
  ∀ e ∈ es, ∀ e' ∈ es, e.1 = e'.1 → e.2 = e'.2

variable {m : GoMap κ ν} {e : κ × ν} {es es' : List (κ × ν)} {k : κ} {v : ν}

theorem write_taken (h : m.lookup e.1 = some v) : write m e = m := by
  unfold write
  rw [h]

theorem write_free (h : m.lookup e.1 = none) : write m e = m.insert e.1 e.2 := by
  unfold write
  rw [h]

@[simp] theorem writeAll_nil : writeAll m [] = m := rfl

@[simp] theorem writeAll_cons : writeAll m (e :: es) = writeAll (write m e) es := rfl

/-- What was there stays. -/
theorem lookup_write (h : m.lookup k = some v) : (write m e).lookup k = some v := by
  cases he : m.lookup e.1 with
  | some w => rwa [write_taken he]
  | none =>
    have hne : k ≠ e.1 := by
      rintro rfl
      rw [h] at he
      cases he
    rwa [write_free he, Finmap.lookup_insert_of_ne _ hne]

theorem lookup_writeAll_of_lookup : ∀ (es : List (κ × ν)) {m : GoMap κ ν},
    m.lookup k = some v → (writeAll m es).lookup k = some v
  | [], _, h => h
  | _ :: es, _, h => lookup_writeAll_of_lookup es (lookup_write h)

/-- A written key is taken afterwards. -/
theorem exists_lookup_write : ∃ v, (write m e).lookup e.1 = some v := by
  cases he : m.lookup e.1 with
  | some w => exact ⟨w, lookup_write he⟩
  | none => exact ⟨e.2, by rw [write_free he, Finmap.lookup_insert]⟩

omit [DecidableEq κ] in
theorem Consistent.tail (h : Consistent (e :: es)) : Consistent es :=
  fun a ha b hb => h a (List.mem_cons_of_mem e ha) b (List.mem_cons_of_mem e hb)

/-- The map after the writes, key by key. -/
theorem lookup_writeAll : ∀ {es : List (κ × ν)} {m : GoMap κ ν}, Consistent es →
    ((writeAll m es).lookup k = some v ↔
      m.lookup k = some v ∨ m.lookup k = none ∧ (k, v) ∈ es)
  | [], m, _ => by simp
  | e :: es, m, hcons => by
    rw [writeAll_cons, lookup_writeAll hcons.tail, List.mem_cons]
    cases he : m.lookup e.1 with
    | some w =>
      rw [write_taken he]
      have hne : m.lookup k = none → (k, v) ≠ e := by
        rintro hk rfl
        rw [hk] at he
        cases he
      tauto
    | none =>
      rw [write_free he, GoMap.lookup_insert_eq]
      by_cases hk : k = e.1
      · subst hk
        have hsame : (e.1, v) ∈ es → v = e.2 := fun hv =>
          (hcons e List.mem_cons_self _ (List.mem_cons_of_mem e hv) rfl).symm
        have hhead : (e.1, v) = e ↔ v = e.2 := by
          rw [Prod.ext_iff]
          exact and_iff_right rfl
        rw [if_pos rfl, he, hhead]
        simp only [Option.some.injEq, reduceCtorEq, false_and, or_false, false_or, true_and]
        exact ⟨fun h => .inl h.symm, fun h => (h.elim id hsame).symm⟩
      · have hhead : (k, v) ≠ e := fun h => hk (congrArg Prod.fst h)
        rw [if_neg hk]
        tauto

/-- Only the set of the entries counts. -/
theorem writeAll_congr (hcons : Consistent es) (hsame : ∀ e, e ∈ es' ↔ e ∈ es) :
    writeAll m es' = writeAll m es := by
  have hcons' : Consistent es' := fun a ha b hb =>
    hcons a ((hsame a).mp ha) b ((hsame b).mp hb)
  refine Finmap.ext_lookup fun k => Option.ext fun v => ?_
  rw [lookup_writeAll hcons', lookup_writeAll hcons, hsame]

/-- Writing adds to a sum. -/
theorem sumBy_le_writeAll (f : κ → ν → ℕ) (es : List (κ × ν)) :
    m.sumBy f ≤ (writeAll m es).sumBy f := by
  refine GoMap.sumBy_le_of_valueAt f fun k => ?_
  unfold GoMap.valueAt
  cases h : m.lookup k with
  | none => exact Nat.zero_le _
  | some v => rw [lookup_writeAll_of_lookup es h]

end FirstWrite
