import Mathlib.Data.List.Induction
import Mathlib.Data.Vector.Basic
import Mathlib.Algebra.Order.Group.Nat
import Mathlib.Tactic.Ring

/-!
# Byte strings

`Bytes` is a Go `[]byte`, `ByteArr n` a Go `[n]byte`. `copyArr` is `copy(arr[:], b)`
into a zeroed array : longer input is cut, shorter input leaves zeros. On input of the
right length it keeps every byte (`copyArr_toList`).

Integers travel big-endian at a fixed width. `beBytes w v` are the `w` bytes of `v`,
and `beNat` reads them back (`beNat_beBytes`, `beBytes_beNat`).
-/

/-- A Go `[]byte`. -/
abbrev Bytes := List UInt8

/-- A Go `[n]byte`. -/
abbrev ByteArr (n : ℕ) := List.Vector UInt8 n

/-- `var arr [n]byte; copy(arr[:], b)`. -/
def copyArr (n : ℕ) (b : Bytes) : ByteArr n :=
  ⟨b.take n ++ List.replicate (n - b.length) 0, by simp; omega⟩

theorem copyArr_toList {n : ℕ} {b : Bytes} (h : b.length = n) : (copyArr n b).toList = b := by
  subst h
  simp [copyArr, List.Vector.toList]

theorem copyArr_self {n : ℕ} (v : ByteArr n) : copyArr n v.toList = v :=
  List.Vector.eq _ _ (copyArr_toList v.toList_length)

theorem copyArr_inj {n : ℕ} {a b : Bytes} (ha : a.length = n) (hb : b.length = n)
    (h : copyArr n a = copyArr n b) : a = b := by
  rw [← copyArr_toList ha, ← copyArr_toList hb, h]

/-! ## Big-endian integers -/

/-- The `w` big-endian bytes of `v`, higher digits dropped. -/
def beBytes : ℕ → ℕ → Bytes
  | 0, _ => []
  | w + 1, v => beBytes w (v / 256) ++ [UInt8.ofNat v]

/-- The number with the big-endian bytes `b`. -/
def beNat (b : Bytes) : ℕ :=
  b.foldl (fun acc x => acc * 256 + x.toNat) 0

@[simp] theorem length_beBytes : ∀ w v : ℕ, (beBytes w v).length = w
  | 0, _ => rfl
  | w + 1, v => by simp [beBytes, length_beBytes w]

theorem beNat_snoc (b : Bytes) (x : UInt8) : beNat (b ++ [x]) = beNat b * 256 + x.toNat := by
  simp [beNat]

theorem beNat_beBytes : ∀ w v : ℕ, beNat (beBytes w v) = v % 256 ^ w
  | 0, v => by simp [beBytes, beNat, Nat.mod_one]
  | w + 1, v => by
    rw [beBytes, beNat_snoc, beNat_beBytes w, pow_succ', Nat.mod_mul]
    simp only [UInt8.toNat_ofNat']
    ring

theorem beNat_beBytes_of_lt {w v : ℕ} (h : v < 256 ^ w) : beNat (beBytes w v) = v := by
  rw [beNat_beBytes, Nat.mod_eq_of_lt h]

theorem beNat_lt (b : Bytes) : beNat b < 256 ^ b.length := by
  induction b using List.reverseRecOn with
  | nil => decide
  | append_singleton b x ih =>
    have hx := x.toNat_lt
    rw [beNat_snoc, List.length_append, List.length_singleton, pow_succ]
    omega

/-- Digits are read and written back. -/
theorem beBytes_beNat (b : Bytes) : beBytes b.length (beNat b) = b := by
  induction b using List.reverseRecOn with
  | nil => rfl
  | append_singleton b x ih =>
    have hx := x.toNat_lt
    have hdiv : (beNat b * 256 + x.toNat) / 256 = beNat b := by omega
    have hdigit : UInt8.ofNat (beNat b * 256 + x.toNat) = x := by
      apply UInt8.toNat_inj.mp
      rw [UInt8.toNat_ofNat']
      omega
    rw [beNat_snoc, List.length_append, List.length_singleton, beBytes, hdiv, ih, hdigit]

/-- `putU32` : a `uint32` field. -/
def putU32 (v : UInt32) : Bytes :=
  beBytes 4 v.toNat

/-- `putU64` : a `uint64` field. -/
def putU64 (v : UInt64) : Bytes :=
  beBytes 8 v.toNat

/-- `getU32` : exactly four bytes. -/
def getU32 (b : Bytes) : Option UInt32 :=
  if b.length = 4 then some (UInt32.ofNat (beNat b)) else none

/-- `getU64` : exactly eight bytes. -/
def getU64 (b : Bytes) : Option UInt64 :=
  if b.length = 8 then some (UInt64.ofNat (beNat b)) else none

@[simp] theorem length_putU32 (v : UInt32) : (putU32 v).length = 4 :=
  length_beBytes 4 _

@[simp] theorem length_putU64 (v : UInt64) : (putU64 v).length = 8 :=
  length_beBytes 8 _

@[simp] theorem getU32_putU32 (v : UInt32) : getU32 (putU32 v) = some v := by
  have h : beNat (putU32 v) = v.toNat := beNat_beBytes_of_lt v.toNat_lt
  simp [getU32, h]

@[simp] theorem getU64_putU64 (v : UInt64) : getU64 (putU64 v) = some v := by
  have h : beNat (putU64 v) = v.toNat := beNat_beBytes_of_lt v.toNat_lt
  simp [getU64, h]
