import FileRelay.Bytes

/-!
# Buffers with positioned integers

A buffer of a JavaScript runtime. `alloc` makes one of zeros, `writeUInt` puts the
little-endian bytes of a number at an offset, and `readUInt` reads them. Both throw (`none`)
outside the buffer, and a write throws as well if the number does not fit its width.

`writeAll` makes several writes. Writes that keep `Apart` are all read back, and what none of
them touches stays (`writeAll_spec`). A read of a part of a buffer is a read of the whole at a
shifted offset : `Holds` says where a part lies.
-/

namespace NodeBuffer

/-- The `w` little-endian bytes of `v`, higher digits dropped. -/
def leBytes : ℕ → ℕ → Bytes
  | 0, _ => []
  | w + 1, v => UInt8.ofNat v :: leBytes w (v / 256)

/-- The number with the little-endian bytes `b`. -/
def leNat : Bytes → ℕ
  | [] => 0
  | x :: b => x.toNat + 256 * leNat b

@[simp] theorem length_leBytes : ∀ w v : ℕ, (leBytes w v).length = w
  | 0, _ => rfl
  | w + 1, v => by rw [leBytes, List.length_cons, length_leBytes w]

theorem leNat_leBytes : ∀ {w v : ℕ}, v < 256 ^ w → leNat (leBytes w v) = v
  | 0, v, h => by
    rw [pow_zero, Nat.lt_one_iff] at h
    rw [h]
    rfl
  | w + 1, v, h => by
    have hrest : v / 256 < 256 ^ w := by
      rw [pow_succ] at h
      exact Nat.div_lt_of_lt_mul (by rwa [Nat.mul_comm])
    rw [leBytes, leNat, leNat_leBytes hrest, UInt8.toNat_ofNat']
    omega

/-- `Buffer.alloc(n)`. -/
def alloc (n : ℕ) : Bytes :=
  List.replicate n 0

/-- The bytes from `start` up to `stop`, cut at the end of the buffer. -/
def subarray (buf : Bytes) (start stop : ℕ) : Bytes :=
  (buf.take stop).drop start

/-- `buf.writeUIntLE(v, off)` at a width of `w` bytes. -/
def writeUInt (w v off : ℕ) (buf : Bytes) : Option Bytes :=
  if v < 256 ^ w ∧ off + w ≤ buf.length then
    some (buf.take off ++ (leBytes w v ++ buf.drop (off + w)))
  else none

/-- `buf.readUIntLE(off)` at a width of `w` bytes. -/
def readUInt (w : ℕ) (buf : Bytes) (off : ℕ) : Option ℕ :=
  if off + w ≤ buf.length then some (leNat ((buf.drop off).take w)) else none

/-! ## Parts of a buffer -/

theorem subarray_append_left {a b : Bytes} {start stop : ℕ} (h : stop ≤ a.length) :
    subarray (a ++ b) start stop = subarray a start stop := by
  unfold subarray
  rw [List.take_append_of_le_length h]

theorem subarray_append_right (a b : Bytes) (start stop : ℕ) :
    subarray (a ++ b) (a.length + start) (a.length + stop) = subarray b start stop := by
  unfold subarray
  rw [List.take_length_add_append, List.drop_length_add_append]

theorem subarray_self (a : Bytes) : subarray a 0 a.length = a := by
  unfold subarray
  rw [List.take_length, List.drop_zero]

/-- The bytes in the middle. -/
theorem subarray_middle (a b c : Bytes) :
    subarray (a ++ (b ++ c)) a.length (a.length + b.length) = b := by
  have h := subarray_append_right a (b ++ c) 0 b.length
  rw [Nat.add_zero] at h
  rw [h, subarray_append_left (le_refl _), subarray_self]

theorem readUInt_append_left (w : ℕ) {a : Bytes} (b : Bytes) {off : ℕ} (h : off + w ≤ a.length) :
    readUInt w (a ++ b) off = readUInt w a off := by
  have hlen : off + w ≤ (a ++ b).length := by
    rw [List.length_append]
    omega
  have htake : ((a ++ b).drop off).take w = (a.drop off).take w := by
    rw [List.drop_append_of_le_length (by omega), List.take_append_of_le_length]
    rw [List.length_drop]
    omega
  unfold readUInt
  rw [if_pos h, if_pos hlen, htake]

theorem readUInt_append_right (w : ℕ) (a b : Bytes) (off : ℕ) :
    readUInt w (a ++ b) (a.length + off) = readUInt w b off := by
  have hlen : a.length + off + w ≤ (a ++ b).length ↔ off + w ≤ b.length := by
    rw [List.length_append]
    omega
  unfold readUInt
  simp only [hlen, List.drop_length_add_append]

/-- A number read at the front. -/
theorem readUInt_leBytes {w v : ℕ} (h : v < 256 ^ w) (b : Bytes) :
    readUInt w (leBytes w v ++ b) 0 = some v := by
  have hlen : 0 + w ≤ (leBytes w v ++ b).length := by
    rw [List.length_append, length_leBytes]
    omega
  unfold readUInt
  rw [if_pos hlen, List.drop_zero, List.take_left' (length_leBytes w v), leNat_leBytes h]

/-- The bytes `b` lie in the buffer at `off`. -/
def Holds (buf : Bytes) (off : ℕ) (b : Bytes) : Prop :=
  ∃ before after, buf = before ++ (b ++ after) ∧ before.length = off

namespace Holds

variable {buf a b : Bytes} {off : ℕ}

theorem left (h : Holds buf off (a ++ b)) : Holds buf off a := by
  obtain ⟨before, after, rfl, hoff⟩ := h
  exact ⟨before, b ++ after, by rw [List.append_assoc], hoff⟩

theorem right (h : Holds buf off (a ++ b)) : Holds buf (off + a.length) b := by
  obtain ⟨before, after, rfl, rfl⟩ := h
  refine ⟨before ++ a, after, ?_, List.length_append⟩
  rw [List.append_assoc, List.append_assoc]

theorem readUInt_eq (h : Holds buf off b) {w k : ℕ} (hk : k + w ≤ b.length) :
    readUInt w buf (off + k) = readUInt w b k := by
  obtain ⟨before, after, rfl, rfl⟩ := h
  rw [readUInt_append_right, readUInt_append_left w after hk]

/-- What is read from the part is read from the buffer. -/
theorem readUInt_some (h : Holds buf off b) {w k v : ℕ} (hv : readUInt w b k = some v) :
    readUInt w buf (off + k) = some v := by
  have hk : k + w ≤ b.length := by
    by_contra hk
    unfold readUInt at hv
    rw [if_neg hk] at hv
    cases hv
  rw [h.readUInt_eq hk, hv]

theorem subarray_eq (h : Holds buf off b) : subarray buf off (off + b.length) = b := by
  obtain ⟨before, after, rfl, rfl⟩ := h
  exact subarray_middle before b after

end Holds

/-! ## Writes -/

theorem writeUInt_eq_some {w v off : ℕ} {buf out : Bytes} : writeUInt w v off buf = some out ↔
    (v < 256 ^ w ∧ off + w ≤ buf.length) ∧
      out = buf.take off ++ (leBytes w v ++ buf.drop (off + w)) := by
  unfold writeUInt
  split_ifs with h
  · exact ⟨fun ho => ⟨h, (Option.some.inj ho).symm⟩, fun ho => congrArg some ho.2.symm⟩
  · exact ⟨nofun, fun ho => absurd ho.1 h⟩

theorem length_writeUInt {w v off : ℕ} {buf out : Bytes} (h : writeUInt w v off buf = some out) :
    out.length = buf.length := by
  obtain ⟨⟨-, hfit⟩, rfl⟩ := writeUInt_eq_some.mp h
  rw [List.length_append, List.length_append, List.length_take, List.length_drop, length_leBytes]
  omega

/-- A write is read back. -/
theorem readUInt_writeUInt {w v off : ℕ} {buf out : Bytes} (h : writeUInt w v off buf = some out) :
    readUInt w out off = some v := by
  obtain ⟨⟨hv, hfit⟩, rfl⟩ := writeUInt_eq_some.mp h
  have hoff : (buf.take off).length = off := by
    rw [List.length_take]
    omega
  have hread := readUInt_append_right w (buf.take off) (leBytes w v ++ buf.drop (off + w)) 0
  rw [hoff, Nat.add_zero] at hread
  rw [hread, readUInt_leBytes hv]

/-- A write elsewhere is not noticed. -/
theorem readUInt_writeUInt_apart {w v off w' off' : ℕ} {buf out : Bytes}
    (h : writeUInt w v off buf = some out) (hapart : off' + w' ≤ off ∨ off + w ≤ off') :
    readUInt w' out off' = readUInt w' buf off' := by
  obtain ⟨⟨-, hfit⟩, rfl⟩ := writeUInt_eq_some.mp h
  have hoff : (buf.take off).length = off := by
    rw [List.length_take]
    omega
  rcases hapart with hbefore | hafter
  · have hwithin : off' + w' ≤ (buf.take off).length := by omega
    have hbuf := readUInt_append_left w' (buf.drop off) hwithin
    rw [List.take_append_drop] at hbuf
    rw [readUInt_append_left w' _ (by omega), hbuf]
  · obtain ⟨k, rfl⟩ := Nat.exists_eq_add_of_le hafter
    have hbuf := readUInt_append_right w' (buf.take (off + w)) (buf.drop (off + w)) k
    have hout := readUInt_append_right w' (buf.take off ++ leBytes w v) (buf.drop (off + w)) k
    have hhead : (buf.take (off + w)).length = off + w := by
      rw [List.length_take]
      omega
    rw [List.take_append_drop, hhead] at hbuf
    rw [List.length_append, hoff, length_leBytes, List.append_assoc] at hout
    rw [hout, hbuf]

/-! ## Several writes -/

/-- One `writeUIntLE`. -/
structure Put where
  width : ℕ
  value : ℕ
  offset : ℕ

/-- The places of two writes do not overlap. -/
def Put.Apart (p q : Put) : Prop :=
  p.offset + p.width ≤ q.offset ∨ q.offset + q.width ≤ p.offset

/-- The writes one after the other. -/
def writeAll (ps : List Put) (buf : Bytes) : Option Bytes :=
  ps.foldlM (fun buf p => writeUInt p.width p.value p.offset buf) buf

/-- Writes to places apart leave each its number, and the rest as it was. -/
theorem writeAll_spec : ∀ {ps : List Put} {buf out : Bytes}, writeAll ps buf = some out →
    ps.Pairwise Put.Apart → out.length = buf.length ∧
      (∀ p ∈ ps, readUInt p.width out p.offset = some p.value) ∧
      ∀ w off, (∀ p ∈ ps, off + w ≤ p.offset ∨ p.offset + p.width ≤ off) →
        readUInt w out off = readUInt w buf off
  | [], buf, out, h, _ => by
    cases h
    exact ⟨rfl, nofun, fun _ _ _ => rfl⟩
  | p :: ps, buf, out, h, hapart => by
    obtain ⟨hp, hps⟩ := List.pairwise_cons.mp hapart
    obtain ⟨mid, hmid, h⟩ := Option.bind_eq_some_iff.mp h
    obtain ⟨hlen, hread, hrest⟩ := writeAll_spec h hps
    refine ⟨hlen.trans (length_writeUInt hmid), fun q hq => ?_, fun w off hoff => ?_⟩
    · rcases List.mem_cons.mp hq with rfl | hq
      · rw [hrest _ _ fun q hq => hp q hq, readUInt_writeUInt hmid]
      · exact hread q hq
    · rw [hrest w off fun q hq => hoff q (List.mem_cons_of_mem p hq),
        readUInt_writeUInt_apart hmid (hoff p List.mem_cons_self)]

theorem readUInt_alloc {n w off : ℕ} (h : off + w ≤ n) : readUInt w (alloc n) off = some 0 := by
  have hzero : ∀ k, leNat (List.replicate k 0) = 0 := by
    intro k
    induction k with
    | zero => rfl
    | succ k ih =>
      rw [List.replicate_succ, leNat, ih]
      rfl
  unfold readUInt alloc
  rw [if_pos (by rwa [List.length_replicate]), List.drop_replicate, List.take_replicate, hzero]

end NodeBuffer
