import Mathlib.Data.List.Basic
import Mathlib.Algebra.Order.Group.Nat
import Mathlib.Tactic.Common

/-!
# Slices filtered in place

Go filters a slice without allocating by appending the kept elements to `xs[:0]`. The
loop then reads index `i` of the array it is overwriting at index `j ≤ i`, and a
second loop clears the tail. `filterInPlace` runs both loops on the backing array,
and `filterInPlace_eq` says the slice that is left is the plain filter : an element is
read before its cell is written.

`takeLoop` is the loop that fills one output slice up to a bound and leaves the rest
in another (`takeLoop_eq`).
-/

namespace Slice

variable {α : Type*}

/-! ## Compaction -/

/-- The compaction loop with `n` cells to read, the next at `i`, and the next write
at `j`. -/
def compactLoop (p : α → Bool) : ℕ → ℕ → ℕ → List α → ℕ × List α
  | 0, _, j, buf => (j, buf)
  | n + 1, i, j, buf =>
    match buf[i]? with
    | none => (j, buf)
    | some x =>
      if p x then compactLoop p n (i + 1) (j + 1) (buf.set j x)
      else compactLoop p n (i + 1) j buf

/-- `for i := j; i < len(buf); i++ { buf[i] = zero }`. -/
def clearFrom (zero : α) (j : ℕ) (buf : List α) : List α :=
  buf.take j ++ List.replicate (buf.length - j) zero

/-- `kept := buf[:0]`, the compaction loop, the clearing loop, and `buf = kept`. -/
def filterInPlace (zero : α) (p : α → Bool) (buf : List α) : List α :=
  let r := compactLoop p buf.length 0 0 buf
  (clearFrom zero r.1 r.2).take r.1

theorem take_clearFrom (zero : α) {j : ℕ} {buf : List α} (h : j ≤ buf.length) :
    (clearFrom zero j buf).take j = buf.take j := by
  unfold clearFrom
  rw [List.take_append_of_le_length (by simp [h]), List.take_take, min_self]

/-- The loop invariant : `kept` is written, `gap` is read but dead, `rest` is unread. -/
theorem compactLoop_spec (p : α → Bool) :
    ∀ (rest kept gap : List α),
      let r := compactLoop p rest.length (kept.length + gap.length) kept.length
        (kept ++ gap ++ rest)
      r.1 = (kept ++ rest.filter p).length ∧ r.1 ≤ r.2.length ∧
        r.2.take r.1 = kept ++ rest.filter p
  | [], kept, gap => by simp [compactLoop]
  | x :: rest, kept, gap => by
    have hx : (kept ++ gap ++ x :: rest)[kept.length + gap.length]? = some x := by
      rw [List.getElem?_append_right (by simp)]
      simp
    simp only [List.length_cons, compactLoop, hx]
    cases hp : p x with
    | false =>
      have ih := compactLoop_spec p rest kept (gap ++ [x])
      simp only [List.length_append, List.length_singleton, ← add_assoc, List.append_assoc,
        List.cons_append, List.nil_append] at ih
      simpa [hp, List.append_assoc] using ih
    | true =>
      cases gap with
      | nil =>
        have ih := compactLoop_spec p rest (kept ++ [x]) []
        have hset : (kept ++ x :: rest).set kept.length x = kept ++ x :: rest := by
          rw [List.set_append_right _ _ (le_refl _)]
          simp
        simpa [hp, hset, List.append_assoc] using ih
      | cons g gap =>
        have ih := compactLoop_spec p rest (kept ++ [x]) (gap ++ [x])
        have hset : (kept ++ g :: gap ++ x :: rest).set kept.length x =
            kept ++ [x] ++ (gap ++ [x]) ++ rest := by
          rw [List.append_assoc, List.set_append_right _ _ (le_refl _)]
          simp
        have hi : (kept ++ [x]).length + (gap ++ [x]).length =
            kept.length + (g :: gap).length + 1 := by
          simp
          omega
        rw [hi] at ih
        simp only [if_true, hset]
        simpa [hp, List.append_assoc] using ih

/-- Filtering in place is filtering. -/
@[simp] theorem filterInPlace_eq (zero : α) (p : α → Bool) (buf : List α) :
    filterInPlace zero p buf = buf.filter p := by
  obtain ⟨-, hle, htake⟩ := compactLoop_spec p buf [] []
  simp only [List.length_nil, List.nil_append, List.append_nil, add_zero] at hle htake
  unfold filterInPlace
  rw [take_clearFrom zero hle, htake]

/-! ## Filling a bounded batch -/

/-- One pass over a slice that appends to `out` while it holds fewer than `limit`
elements and to `kept` afterwards. With `peek` the elements of `out` stay in `kept`. -/
def takeLoop (limit : ℕ) (peek : Bool) (xs : List α) : List α × List α :=
  xs.foldl (fun (acc : List α × List α) x =>
    if acc.1.length < limit then (acc.1 ++ [x], if peek then acc.2 ++ [x] else acc.2)
    else (acc.1, acc.2 ++ [x])) ([], [])

theorem takeLoop_foldl (limit : ℕ) (peek : Bool) :
    ∀ (xs out kept : List α),
      xs.foldl (fun (acc : List α × List α) x =>
        if acc.1.length < limit then (acc.1 ++ [x], if peek then acc.2 ++ [x] else acc.2)
        else (acc.1, acc.2 ++ [x])) (out, kept) =
      (out ++ xs.take (limit - out.length),
        kept ++ if peek then xs else xs.drop (limit - out.length))
  | [], out, kept => by simp
  | x :: xs, out, kept => by
    rw [List.foldl_cons]
    by_cases h : out.length < limit
    · obtain ⟨n, hn⟩ : ∃ n, limit - out.length = n + 1 := ⟨limit - out.length - 1, by omega⟩
      have hn' : limit - (out ++ [x]).length = n := by
        simp
        omega
      simp only [h, if_true]
      rw [takeLoop_foldl limit peek xs, hn, hn']
      cases peek <;> simp
    · have hz : limit - out.length = 0 := by omega
      simp only [h, if_false]
      rw [takeLoop_foldl limit peek xs, hz]
      cases peek <;> simp

theorem takeLoop_eq (limit : ℕ) (peek : Bool) (xs : List α) :
    takeLoop limit peek xs = (xs.take limit, if peek then xs else xs.drop limit) := by
  simpa [takeLoop] using takeLoop_foldl limit peek xs [] []

end Slice
