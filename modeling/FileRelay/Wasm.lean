import FileRelay.Bytes
import Mathlib.Data.List.GetD

/-!
# A stack machine with linear memory

The part of WebAssembly that hand-assembled modules need : 32-bit and 64-bit constants and
arithmetic, locals, globals, byte stores, `memory.copy`, and `if` without `else`. There are no
loops and no calls between functions, so every function terminates. An i32 or i64 is its
unsigned value, and the instructions reduce their results modulo the width. An access out of
bounds traps, and so does an operand that is missing or of the wrong type, which validated code
never has.

A memory is written and read by ranges of bytes : `read_write` and `read_write_of_disjoint` say
what a range holds after a write to it or next to it, and `write_append` joins two writes.
-/

namespace Wasm

/-! ## Memory -/

/-- Linear memory. -/
structure Memory where
  size : ℕ
  byte : ℕ → UInt8

namespace Memory

/-- The bytes from `p` on replaced by `d`. -/
def write (m : Memory) (p : ℕ) (d : Bytes) : Memory :=
  { m with byte := fun k => if p ≤ k ∧ k < p + d.length then d.getD (k - p) 0 else m.byte k }

/-- The `n` bytes from `p` on. -/
def read (m : Memory) (p n : ℕ) : Bytes :=
  (List.range n).map fun k => m.byte (p + k)

variable (m : Memory)

@[simp] theorem size_write (p : ℕ) (d : Bytes) : (m.write p d).size = m.size := rfl

@[simp] theorem length_read (p n : ℕ) : (m.read p n).length = n := by
  simp [read]

@[simp] theorem read_zero (p : ℕ) : m.read p 0 = [] := rfl

theorem read_add (p a b : ℕ) : m.read p (a + b) = m.read p a ++ m.read (p + a) b := by
  simp [read, List.range_add, Nat.add_assoc, Function.comp_def]

theorem read_succ (p n : ℕ) : m.read p (n + 1) = m.byte p :: m.read (p + 1) n := by
  rw [Nat.add_comm, read_add]
  rfl

/-- A range that was written holds what was written. -/
theorem read_write (p : ℕ) (d : Bytes) : (m.write p d).read p d.length = d := by
  refine List.ext_getElem (by simp) fun i hi hi' => ?_
  simp [read, write, hi']

/-- A range next to the one that was written is kept. -/
theorem read_write_of_disjoint {p q n : ℕ} {d : Bytes} (h : q + n ≤ p ∨ p + d.length ≤ q) :
    (m.write p d).read q n = m.read q n := by
  refine List.map_congr_left fun k hk => ?_
  have hk := List.mem_range.mp hk
  exact if_neg (by omega)

/-- Two writes one after the other are one. -/
theorem write_append (p : ℕ) (d e : Bytes) :
    m.write p (d ++ e) = (m.write p d).write (p + d.length) e := by
  unfold write
  refine congrArg (Memory.mk m.size) (funext fun k => ?_)
  dsimp only
  rw [List.length_append]
  by_cases hd : k < p + d.length
  · have he : ¬(p + d.length ≤ k ∧ k < p + d.length + e.length) := by omega
    rw [if_neg he]
    by_cases hp : p ≤ k
    · rw [if_pos ⟨hp, by omega⟩, if_pos ⟨hp, hd⟩, List.getD_append _ _ _ _ (by omega)]
    · rw [if_neg (by omega), if_neg (by omega)]
  · by_cases he : k < p + d.length + e.length
    · rw [if_pos (by omega), if_pos (by omega), List.getD_append_right _ _ _ _ (by omega),
        Nat.sub_add_eq]
    · rw [if_neg (by omega), if_neg (by omega), if_neg (by omega)]

end Memory

/-! ## Instructions -/

inductive Instr
  | i32c (v : ℕ)
  | i64c (v : ℕ)
  | get (i : ℕ)
  | set (i : ℕ)
  | gget (i : ℕ)
  | gset (i : ℕ)
  | eqz
  | add
  | and
  | shru
  | gtu
  | store8 (offset : ℕ)
  | memcopy
  | ext
  | shl64
  | or64
  | ret
  | ifv (body : List Instr)

inductive Val
  | i32 (n : ℕ)
  | i64 (n : ℕ)
deriving DecidableEq, Repr

/-- An instance of a module, between calls. -/
structure Instance where
  mem : Memory
  globals : List ℕ

/-- The state while a function runs. -/
structure Config extends Instance where
  locals : List ℕ
  stack : List Val

/-- How a sequence of instructions ends. -/
inductive Outcome
  | trap
  | next (c : Config)
  | ret (c : Config)

/-- The instructions that neither branch nor return. -/
def Instr.step (c : Config) : Instr → Option Config
  | .i32c v => some { c with stack := .i32 v :: c.stack }
  | .i64c v => some { c with stack := .i64 v :: c.stack }
  | .get i => c.locals[i]?.map fun v => { c with stack := .i32 v :: c.stack }
  | .set i =>
    match c.stack with
    | .i32 v :: st =>
      if i < c.locals.length then some { c with locals := c.locals.set i v, stack := st } else none
    | _ => none
  | .gget i => c.globals[i]?.map fun v => { c with stack := .i32 v :: c.stack }
  | .gset i =>
    match c.stack with
    | .i32 v :: st =>
      if i < c.globals.length then some { c with globals := c.globals.set i v, stack := st }
      else none
    | _ => none
  | .eqz =>
    match c.stack with
    | .i32 a :: st => some { c with stack := .i32 (if a = 0 then 1 else 0) :: st }
    | _ => none
  | .add =>
    match c.stack with
    | .i32 b :: .i32 a :: st => some { c with stack := .i32 ((a + b) % 2 ^ 32) :: st }
    | _ => none
  | .and =>
    match c.stack with
    | .i32 b :: .i32 a :: st => some { c with stack := .i32 (a &&& b) :: st }
    | _ => none
  | .shru =>
    match c.stack with
    | .i32 b :: .i32 a :: st => some { c with stack := .i32 (a >>> (b % 32)) :: st }
    | _ => none
  | .gtu =>
    match c.stack with
    | .i32 b :: .i32 a :: st => some { c with stack := .i32 (if b < a then 1 else 0) :: st }
    | _ => none
  | .store8 offset =>
    match c.stack with
    | .i32 v :: .i32 p :: st =>
      if p + offset < c.mem.size then
        some { c with mem := c.mem.write (p + offset) [UInt8.ofNat v], stack := st }
      else none
    | _ => none
  | .memcopy =>
    match c.stack with
    | .i32 n :: .i32 src :: .i32 dst :: st =>
      if src + n ≤ c.mem.size ∧ dst + n ≤ c.mem.size then
        some { c with mem := c.mem.write dst (c.mem.read src n), stack := st }
      else none
    | _ => none
  | .ext =>
    match c.stack with
    | .i32 a :: st => some { c with stack := .i64 a :: st }
    | _ => none
  | .shl64 =>
    match c.stack with
    | .i64 b :: .i64 a :: st => some { c with stack := .i64 ((a <<< (b % 64)) % 2 ^ 64) :: st }
    | _ => none
  | .or64 =>
    match c.stack with
    | .i64 b :: .i64 a :: st => some { c with stack := .i64 (a ||| b) :: st }
    | _ => none
  | .ret | .ifv _ => none

mutual

/-- One instruction. -/
def Instr.exec (c : Config) : Instr → Outcome
  | .ret => .ret c
  | .ifv body =>
    match c.stack with
    | .i32 v :: st =>
      if v = 0 then .next { c with stack := st } else run { c with stack := st } body
    | _ => .trap
  | i =>
    match i.step c with
    | some c => .next c
    | none => .trap

/-- A sequence of instructions. -/
def run (c : Config) : List Instr → Outcome
  | [] => .next c
  | i :: is =>
    match i.exec c with
    | .next c => run c is
    | .ret c => .ret c
    | .trap => .trap

end

/-- A function body with the number of its locals besides the parameters. -/
structure Func where
  nlocals : ℕ
  body : List Instr

/-- Call a function : its result is on top of the stack when it returns or ends. -/
def Func.call (f : Func) (σ : Instance) (args : List ℕ) : Option (Val × Instance) :=
  match run ⟨σ, args ++ List.replicate f.nlocals 0, []⟩ f.body with
  | .next c | .ret c => c.stack.head?.map fun v => (v, c.toInstance)
  | .trap => none

/-! ## Bits -/

/-- Clearing the last three bits. -/
theorem land_neg_eight {x : ℕ} (h : x < 2 ^ 32) : x &&& (2 ^ 32 - 8) = x / 8 * 8 := by
  have hmask : 2 ^ 32 - 8 = (2 ^ 29 - 1) <<< 3 := by decide
  have hx : x / 8 * 8 = (x >>> 3) <<< 3 := by
    rw [Nat.shiftLeft_eq, Nat.shiftRight_eq_div_pow]
  rw [hmask, hx]
  refine Nat.eq_of_testBit_eq fun i => ?_
  rw [Nat.testBit_and, Nat.testBit_shiftLeft, Nat.testBit_shiftLeft, Nat.testBit_shiftRight,
    Nat.testBit_two_pow_sub_one]
  by_cases hi : 3 ≤ i
  · by_cases hbig : i < 32
    · have : i - 3 < 29 := by omega
      simp [hi, this, Nat.add_sub_cancel' hi]
    · have hfalse : x.testBit i = false :=
        Nat.testBit_lt_two_pow (lt_of_lt_of_le h (Nat.pow_le_pow_right (by decide) (by omega)))
      simp [hi, Nat.add_sub_cancel' hi, hfalse]
  · simp [hi]

/-- A pointer and a length packed into an i64. -/
theorem unpack {p l : ℕ} (hl : l < 2 ^ 32) :
    (p <<< 32 ||| l) >>> 32 = p ∧ (p <<< 32 ||| l) &&& (2 ^ 32 - 1) = l := by
  rw [← Nat.shiftLeft_add_eq_or_of_lt hl, Nat.shiftLeft_eq, Nat.shiftRight_eq_div_pow,
    Nat.and_two_pow_sub_one_eq_mod]
  omega

end Wasm
