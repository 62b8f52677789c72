import Mathlib.Algebra.Order.Group.Nat
import Mathlib.Data.List.Basic
import Mathlib.Tactic.Ring

/-!
# Cutting a string into chunks

`Fits total size count` : `count` chunks of `size` symbols hold `total` symbols, and one
chunk less does not. Then every chunk but the last is full and the last holds between one
symbol and `size` (`Fits.last_pos`, `Fits.last_le`).

`piece size data i` is the `i`-th chunk of `data`. The pieces put together are `data`
(`Fits.flatten_pieces`).
-/

namespace Chunking

/-- `count` chunks of `size` hold `total`, and `count - 1` do not. -/
structure Fits (total size count : ℕ) : Prop where
  size_pos : 0 < size
  count_pos : 0 < count
  lower : (count - 1) * size < total
  upper : total ≤ count * size

/-- The length of the last chunk. -/
def lastLength (total size count : ℕ) : ℕ :=
  total - (count - 1) * size

/-- The length of the chunk at an index below `count`. -/
def chunkLength (total size count i : ℕ) : ℕ :=
  if i < count - 1 then size else lastLength total size count

section Geometry

variable {total size count : ℕ}

theorem Fits.last_pos (h : Fits total size count) : 1 ≤ lastLength total size count := by
  have := h.lower
  unfold lastLength
  omega

theorem Fits.last_le (h : Fits total size count) : lastLength total size count ≤ size := by
  have hu := h.upper
  obtain ⟨n, rfl⟩ : ∃ n, count = n + 1 := ⟨count - 1, by have := h.count_pos; omega⟩
  unfold lastLength
  rw [Nat.add_sub_cancel]
  rw [Nat.succ_mul] at hu
  omega

/-- Rounding up gives the count that fits. -/
theorem fits_of_div (hs : 0 < size) (ht : 0 < total) :
    Fits total size ((total + size - 1) / size) := by
  have hle : (total + size - 1) / size * size ≤ total + size - 1 := Nat.div_mul_le_self _ _
  have hlt : total + size - 1 < ((total + size - 1) / size + 1) * size :=
    (Nat.div_lt_iff_lt_mul hs).1 (Nat.lt_succ_self _)
  have hpos : 0 < (total + size - 1) / size := Nat.div_pos (by omega) hs
  generalize (total + size - 1) / size = n at hle hlt hpos ⊢
  obtain ⟨m, rfl⟩ : ∃ m, n = m + 1 := ⟨n - 1, by omega⟩
  rw [Nat.succ_mul] at hle
  rw [Nat.succ_mul (m + 1)] at hlt
  refine ⟨hs, hpos, ?_, ?_⟩
  · rw [Nat.add_sub_cancel]
    omega
  · omega

/-- The chunks together have the length of the whole. -/
theorem Fits.sum_chunkLength (h : Fits total size count) :
    ((List.range count).map (chunkLength total size count)).sum = total := by
  have hlower := h.lower
  obtain ⟨n, rfl⟩ : ∃ n, count = n + 1 := ⟨count - 1, by have := h.count_pos; omega⟩
  have hfull : ∀ i ∈ List.range n, chunkLength total size (n + 1) i = size :=
    fun i hi => if_pos (List.mem_range.mp hi)
  rw [List.range_succ, List.map_append, List.sum_append, List.map_congr_left hfull,
    List.map_const', List.length_range, List.sum_replicate_nat, List.map_singleton,
    List.sum_singleton, chunkLength, if_neg (by omega), lastLength]
  rw [Nat.add_sub_cancel] at hlower ⊢
  omega

end Geometry

/-! ## Pieces -/

variable {α : Type*}

/-- The `i`-th chunk. -/
def piece (size : ℕ) (data : List α) (i : ℕ) : List α :=
  (data.drop (i * size)).take size

theorem flatten_pieces (size : ℕ) (data : List α) :
    ∀ n, ((List.range n).map (piece size data)).flatten = data.take (n * size)
  | 0 => by simp
  | n + 1 => by
    rw [List.range_succ, List.map_append, List.flatten_append, flatten_pieces size data n,
      List.map_singleton, List.flatten_singleton, piece, Nat.succ_mul, List.take_add]

/-- The pieces put together are the string. -/
theorem Fits.flatten_pieces {size count : ℕ} {data : List α} (h : Fits data.length size count) :
    ((List.range count).map (piece size data)).flatten = data := by
  rw [Chunking.flatten_pieces]
  exact List.take_of_length_le h.upper

end Chunking
