import Mathlib.Data.Int.Init
import Mathlib.Data.List.Basic
import Mathlib.Tactic.Common

/-!
# Calls that index and slice

A call of a program with run-time checks returns a value, returns an error, or panics, and a
loop may go on forever. `Call` keeps these apart : loops have a budget of turns, and a call that
runs out of it has no outcome. An index or a slice out of range panics. Slices are held to the
length of what they cut, not to its capacity.

`Ends Q P x` says that `x` has an outcome : a value that meets `Q` or an error that meets `P`,
never a panic. The rules are those of total correctness : `Ends.bind`, `ends_index`, `ends_slice`,
and `ends_loop` for a loop with an invariant and a measure.
-/

namespace Checked

variable {α β ε σ ρ : Type}

/-- How a call ends without a value. -/
inductive Fault (ε : Type)
  | panic
  | returned (e : ε)
deriving DecidableEq

/-- A call within a budget of loop turns. -/
abbrev Call (ε α : Type) := ExceptT (Fault ε) Option α

/-- `return nil, e`. -/
def raise (e : ε) : Call ε α :=
  throw (.returned e)

/-- `b[i]`. -/
def index (b : List α) (i : ℤ) : Call ε α :=
  if i < 0 then throw .panic
  else
    match b[i.toNat]? with
    | some a => pure a
    | none => throw .panic

/-- `b[lo:hi]`. -/
def slice (b : List α) (lo hi : ℤ) : Call ε (List α) :=
  if 0 ≤ lo ∧ lo ≤ hi ∧ hi ≤ b.length then pure ((b.drop lo.toNat).take (hi - lo).toNat)
  else throw .panic

/-- The end of a turn : go on, or leave the loop. -/
inductive Turn (σ ρ : Type)
  | next (s : σ)
  | done (r : ρ)

/-- Where a turn ends meets `I` or `Q`. -/
def Turn.Meets (I : σ → Prop) (Q : ρ → Prop) : Turn σ ρ → Prop
  | .next s => I s
  | .done r => Q r

/-- A loop with a budget of turns. -/
def loop (body : σ → Call ε (Turn σ ρ)) : ℕ → σ → Call ε ρ
  | 0, _ => ExceptT.mk none
  | n + 1, s => do
    match ← body s with
    | .next s' => loop body n s'
    | .done r => return r

/-- The outcome meets `Q` or `P` and is not a panic. -/
def Meets (Q : α → Prop) (P : ε → Prop) : Except (Fault ε) α → Prop
  | .ok a => Q a
  | .error .panic => False
  | .error (.returned e) => P e

/-- The call has an outcome that meets `Q` or `P`, and does not panic. -/
def Ends (Q : α → Prop) (P : ε → Prop) (x : Call ε α) : Prop :=
  ∃ r, x.run = some r ∧ Meets Q P r

variable {Q R : α → Prop} {S : β → Prop} {P : ε → Prop} {x : Call ε α}

theorem ends_pure {a : α} (h : Q a) : Ends Q P (pure a : Call ε α) :=
  ⟨.ok a, rfl, h⟩

theorem ends_raise {e : ε} (h : P e) : Ends Q P (raise e : Call ε α) :=
  ⟨.error (.returned e), rfl, h⟩

theorem Ends.imp {P' : ε → Prop} (h : Ends Q P x) (hQ : ∀ a, Q a → R a)
    (hP : ∀ e, P e → P' e) : Ends R P' x := by
  obtain ⟨r, hr, hmeets⟩ := h
  refine ⟨r, hr, ?_⟩
  rcases r with (_ | e) | a
  · exact hmeets
  · exact hP e hmeets
  · exact hQ a hmeets

theorem Ends.bind {f : α → Call ε β} (hx : Ends Q P x) (hf : ∀ a, Q a → Ends S P (f a)) :
    Ends S P (x >>= f) := by
  obtain ⟨r, hr, hmeets⟩ := hx
  have hrun : (x >>= f).run = Option.bind x.run (ExceptT.bindCont f) := rfl
  rw [hr] at hrun
  rcases r with (_ | e) | a
  · exact hmeets.elim
  · exact ⟨.error (.returned e), hrun, hmeets⟩
  · obtain ⟨r, hr, hmeets⟩ := hf a hmeets
    exact ⟨r, hrun.trans hr, hmeets⟩

theorem ends_ite {c : Prop} [Decidable c] {y : Call ε α} (hx : c → Ends Q P x)
    (hy : ¬c → Ends Q P y) : Ends Q P (if c then x else y) := by
  split_ifs with h
  · exact hx h
  · exact hy h

/-- An index within the length. -/
theorem ends_index {b : List α} {i : ℤ} (h : 0 ≤ i) (hi : i < b.length) :
    Ends (fun a => b[i.toNat]? = some a) P (index b i : Call ε α) := by
  have hlt : i.toNat < b.length := by omega
  unfold index
  rw [if_neg (by omega), List.getElem?_eq_getElem hlt]
  exact ends_pure rfl

/-- A slice within the length. -/
theorem ends_slice {b : List α} {lo hi : ℤ} (h : 0 ≤ lo) (hlo : lo ≤ hi) (hhi : hi ≤ b.length) :
    Ends (fun s => s = (b.drop lo.toNat).take (hi - lo).toNat) P
      (slice b lo hi : Call ε (List α)) := by
  unfold slice
  rw [if_pos ⟨h, hlo, hhi⟩]
  exact ends_pure rfl

/-- A loop whose turns keep an invariant and lower a measure ends within the measure. -/
theorem ends_loop {body : σ → Call ε (Turn σ ρ)} (I : σ → Prop) (measure : σ → ℕ)
    {Q : ρ → Prop}
    (hbody : ∀ s, I s →
      Ends (Turn.Meets (fun s' => I s' ∧ measure s' < measure s) Q) P (body s)) :
    ∀ {n : ℕ} {s : σ}, I s → measure s < n → Ends Q P (loop body n s)
  | 0, _, _, hn => absurd hn (Nat.not_lt_zero _)
  | n + 1, s, hs, hn => by
    refine (hbody s hs).bind fun t ht => ?_
    cases t with
    | next s' =>
      obtain ⟨hs', hlt⟩ : I s' ∧ measure s' < measure s := ht
      exact ends_loop I measure hbody hs' (by omega)
    | done r => exact ends_pure ht

end Checked
