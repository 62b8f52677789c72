import Mathlib.Tactic.Common

/-!
# What a computation that may fail ends with

`Meets Q P x` is the postcondition of a computation in `Except` : its value meets `Q`, or its
error meets `P`. The rules follow the ways such a computation is put together : `bind`, `map`,
`mapError`, a condition, and a loop with an invariant (`meets_foldlM`).
-/

namespace Fallible

universe u v

variable {ε ε' : Type v} {α β : Type u}

/-- The computation ends with a value that meets `Q` or with an error that meets `P`. -/
def Meets (Q : α → Prop) (P : ε → Prop) : Except ε α → Prop
  | .ok a => Q a
  | .error e => P e

variable {Q R : α → Prop} {S : β → Prop} {P P' : ε → Prop} {x : Except ε α}

theorem meets_iff : Meets Q P x ↔ (∀ a, x = .ok a → Q a) ∧ ∀ e, x = .error e → P e := by
  cases x with
  | ok a => exact ⟨fun h => ⟨fun _ ha => Except.ok.inj ha ▸ h, nofun⟩, fun h => h.1 a rfl⟩
  | error e => exact ⟨fun h => ⟨nofun, fun _ he => Except.error.inj he ▸ h⟩, fun h => h.2 e rfl⟩

theorem bind_eq_ok_iff {f : α → Except ε β} {b : β} :
    (x >>= f) = .ok b ↔ ∃ a, x = .ok a ∧ f a = .ok b := by
  cases x with
  | ok a => exact ⟨fun h => ⟨a, rfl, h⟩, fun ⟨_, ha, h⟩ => Except.ok.inj ha ▸ h⟩
  | error e => exact ⟨nofun, fun ⟨_, ha, _⟩ => nomatch ha⟩

theorem mapError_eq_ok_iff {f : ε → ε'} {a : α} : x.mapError f = .ok a ↔ x = .ok a := by
  cases x with
  | ok a => exact ⟨fun h => congrArg Except.ok (Except.ok.inj h),
      fun h => congrArg Except.ok (Except.ok.inj h)⟩
  | error e => exact ⟨nofun, nofun⟩

theorem map_eq_ok_iff {f : α → β} {b : β} : x.map f = .ok b ↔ ∃ a, x = .ok a ∧ f a = b := by
  cases x with
  | ok a => exact ⟨fun h => ⟨a, rfl, Except.ok.inj h⟩,
      fun ⟨_, ha, h⟩ => congrArg Except.ok (Except.ok.inj ha ▸ h)⟩
  | error e => exact ⟨nofun, fun ⟨_, ha, _⟩ => nomatch ha⟩

theorem Meets.imp (h : Meets Q P x) (hQ : ∀ a, Q a → R a) (hP : ∀ e, P e → P' e) :
    Meets R P' x := by
  cases x with
  | ok a => exact hQ a h
  | error e => exact hP e h

theorem Meets.bind {f : α → Except ε β} (hx : Meets Q P x) (hf : ∀ a, Q a → Meets S P (f a)) :
    Meets S P (x >>= f) := by
  cases x with
  | ok a => exact hf a hx
  | error e => exact hx

theorem Meets.map {f : α → β} (h : Meets (fun a => S (f a)) P x) : Meets S P (x.map f) := by
  cases x with
  | ok a => exact h
  | error e => exact h

theorem Meets.mapError {P : ε' → Prop} {f : ε → ε'} (h : Meets Q (fun e => P (f e)) x) :
    Meets Q P (x.mapError f) := by
  cases x with
  | ok a => exact h
  | error e => exact h

theorem meets_ite {c : Prop} [Decidable c] {y : Except ε α} (hx : c → Meets Q P x)
    (hy : ¬c → Meets Q P y) : Meets Q P (if c then x else y) := by
  split_ifs with h
  · exact hx h
  · exact hy h

/-- A loop whose turns keep an invariant. -/
theorem meets_foldlM {I : β → Prop} {f : β → α → Except ε β} :
    ∀ {l : List α}, (∀ a ∈ l, ∀ b, I b → Meets I P (f b a)) → ∀ {b : β}, I b →
      Meets I P (l.foldlM f b)
  | [], _, _, hb => hb
  | a :: l, hstep, b, hb => by
    rw [List.foldlM_cons]
    exact (hstep a List.mem_cons_self b hb).bind fun b' hb' =>
      meets_foldlM (fun a' ha' => hstep a' (List.mem_cons_of_mem a ha')) hb'

end Fallible
