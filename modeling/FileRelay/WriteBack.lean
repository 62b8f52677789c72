import FileRelay.GoMap

/-!
# A map in memory over a file

A program keeps a map in memory and a copy of it in a file. A write assigns the key and
overwrites the file with the map in memory. A read looks in memory, then in the file, and
remembers what it found there. A restart empties the memory and keeps the file.

The memory is always a part of the file and the file a part of what was written (`Inv`), so
a read answers from the file (`get_eq`). What was written can be read as long as the file
holds all of it (`Complete`), and `complete_put_iff` says when a write keeps it that way :
exactly when it finds every other key of the file in memory (`Keeps`).
-/

namespace WriteBack

variable {κ ν : Type*} [DecidableEq κ]

/-- The map in memory and the one in the file. -/
structure State (κ ν : Type*) where
  mem : GoMap κ ν
  file : GoMap κ ν

/-- Assign a key and save the memory. -/
def State.put (s : State κ ν) (k : κ) (v : ν) : State κ ν :=
  ⟨s.mem.insert k v, s.mem.insert k v⟩

/-- Look a key up in memory, then in the file. -/
def State.get (s : State κ ν) (k : κ) : State κ ν × Option ν :=
  match s.mem.lookup k with
  | some v => (s, some v)
  | none =>
    match s.file.lookup k with
    | some v => ({ s with mem := s.mem.insert k v }, some v)
    | none => (s, none)

/-- Start again with an empty memory. -/
def State.restart (s : State κ ν) : State κ ν :=
  { s with mem := ∅ }

/-- Both maps agree with what was written last to each key. -/
structure Inv (w : κ → Option ν) (s : State κ ν) : Prop where
  cached : ∀ k v, s.mem.lookup k = some v → s.file.lookup k = some v
  written : ∀ k v, s.file.lookup k = some v → w k = some v

/-- The file holds everything that was written. -/
def Complete (w : κ → Option ν) (s : State κ ν) : Prop :=
  ∀ k v, w k = some v → s.file.lookup k = some v

/-- The other keys of the file are in memory. -/
def Keeps (s : State κ ν) (k : κ) : Prop :=
  ∀ k', k' ≠ k → k' ∈ s.file → k' ∈ s.mem

/-! ## Reads and restarts -/

theorem get_eq {w : κ → Option ν} {s : State κ ν} (inv : Inv w s) (k : κ) :
    (s.get k).2 = s.file.lookup k := by
  unfold State.get
  rcases hm : s.mem.lookup k with _ | v
  · rcases hf : s.file.lookup k with _ | v <;> rfl
  · exact (inv.cached k v hm).symm

theorem file_get (s : State κ ν) (k : κ) : (s.get k).1.file = s.file := by
  unfold State.get
  split
  · rfl
  · split <;> rfl

theorem inv_get {w : κ → Option ν} {s : State κ ν} (inv : Inv w s) (k : κ) :
    Inv w (s.get k).1 := by
  refine ⟨fun k' v' h => ?_, fun k' v' h => inv.written k' v' (file_get s k ▸ h)⟩
  rw [file_get]
  unfold State.get at h
  rcases hm : s.mem.lookup k with _ | v
  · rcases hf : s.file.lookup k with _ | v
    · simp only [hm, hf] at h
      exact inv.cached k' v' h
    · simp only [hm, hf, GoMap.lookup_insert_eq] at h
      split_ifs at h with hk
      · rw [hk, hf, h]
      · exact inv.cached k' v' h
  · simp only [hm] at h
    exact inv.cached k' v' h

theorem inv_restart {w : κ → Option ν} {s : State κ ν} (inv : Inv w s) : Inv w s.restart := by
  refine ⟨fun k v h => ?_, inv.written⟩
  exact absurd h (GoMap.lookup_empty_ne_some _ _)

/-! ## Writes -/

theorem lookup_file_put (s : State κ ν) (k k' : κ) (v : ν) :
    (s.put k v).file.lookup k' = if k' = k then some v else s.mem.lookup k' :=
  GoMap.lookup_insert_eq ..

theorem inv_put {w : κ → Option ν} {s : State κ ν} (inv : Inv w s) (k : κ) (v : ν) :
    Inv (Function.update w k (some v)) (s.put k v) := by
  refine ⟨fun _ _ h => h, fun k' v' h => ?_⟩
  rw [lookup_file_put] at h
  by_cases hk : k' = k
  · rw [if_pos hk] at h
    rw [hk, Function.update_self, h]
  · rw [if_neg hk] at h
    rw [Function.update_of_ne hk]
    exact inv.written k' v' (inv.cached k' v' h)

/-- A write keeps what was written readable exactly when it forgets no key of the file. -/
theorem complete_put_iff {w : κ → Option ν} {s : State κ ν} (inv : Inv w s)
    (hc : Complete w s) (k : κ) (v : ν) :
    Complete (Function.update w k (some v)) (s.put k v) ↔ Keeps s k := by
  constructor
  · intro h k' hk hmem
    obtain ⟨v', hv'⟩ := Finmap.mem_iff.mp hmem
    have hput := h k' v' (by rw [Function.update_of_ne hk]; exact inv.written k' v' hv')
    rw [lookup_file_put, if_neg hk] at hput
    exact Finmap.mem_iff.mpr ⟨v', hput⟩
  · intro hkeep k' v' hw
    rw [lookup_file_put]
    by_cases hk : k' = k
    · rw [hk, Function.update_self] at hw
      rw [if_pos hk, hw]
    · rw [Function.update_of_ne hk] at hw
      have hfile := hc k' v' hw
      obtain ⟨v'', hv''⟩ := Finmap.mem_iff.mp (hkeep k' hk (Finmap.mem_iff.mpr ⟨v', hfile⟩))
      have hsame := inv.cached k' v'' hv''
      rw [hfile] at hsame
      rw [if_neg hk, hv'', hsame]

end WriteBack
