import Mathlib.Algebra.Order.BigOperators.Group.List
import FileRelay.Bytes

/-!
# NanoPack field lists

A NanoPack payload is `[count u8]([id u8][len ULEB128])*` followed by the field bodies.
The codec itself is a library outside the repository : `Codec` stands for its
`Encoder.Bytes` and `DecodeID`, and `Codec.Lawful` is what the relay relies on, that a
list of at most 255 fields encodes to `layout` and decodes back.

`length_layout` is the length of a payload, `length_layout_le` a bound that does without
the lengths of the ULEB128 numbers. `Inserted` adds fields with other ids to a list.
`reference` is a decoder for the documented layout, and `reference_lawful` and
`reference_slices` say it satisfies the laws, so the assumptions are not vacuous.
-/

namespace NanoPack

/-- One field : its id and its body. -/
structure Field where
  id : UInt8
  data : Bytes
deriving DecidableEq, Repr

/-- What a codec reports. The relay's own decoders return `ErrShortBody` for a field of
the wrong width. -/
inductive Error
  | shortBody
  | malformed
deriving DecidableEq, Repr

/-! ## ULEB128 -/

/-- Unsigned LEB128 : seven bits a byte, low group first, the high bit set on all but
the last. -/
def uleb128 (n : ℕ) : Bytes :=
  if h : n < 128 then [UInt8.ofNat n]
  else UInt8.ofNat (n % 128 + 128) :: uleb128 (n / 128)
termination_by n
decreasing_by omega

/-- Read one ULEB128 number off the front. -/
def readUleb : Bytes → Option (ℕ × Bytes)
  | [] => none
  | b :: bs =>
    if b.toNat < 128 then some (b.toNat, bs)
    else (readUleb bs).map fun r => (b.toNat - 128 + 128 * r.1, r.2)

theorem uleb128_of_lt {n : ℕ} (h : n < 128) : uleb128 n = [UInt8.ofNat n] := by
  rw [uleb128, dif_pos h]

theorem uleb128_of_ge {n : ℕ} (h : 128 ≤ n) :
    uleb128 n = UInt8.ofNat (n % 128 + 128) :: uleb128 (n / 128) := by
  rw [uleb128, dif_neg (by omega)]

theorem length_uleb128_of_lt {n : ℕ} (h : n < 128) : (uleb128 n).length = 1 := by
  simp [uleb128_of_lt h]

theorem length_uleb128_two {n : ℕ} (h : 128 ≤ n) (h' : n < 16384) : (uleb128 n).length = 2 := by
  rw [uleb128_of_ge h, List.length_cons, length_uleb128_of_lt (by omega)]

theorem length_uleb128_le : ∀ {k n : ℕ}, n < 128 ^ (k + 1) → (uleb128 n).length ≤ k + 1
  | 0, n, h => (length_uleb128_of_lt (by omega)).le
  | k + 1, n, h => by
    by_cases h7 : n < 128
    · rw [length_uleb128_of_lt h7]
      omega
    · rw [uleb128_of_ge (by omega), List.length_cons]
      refine Nat.succ_le_succ (length_uleb128_le (Nat.div_lt_of_lt_mul ?_))
      rwa [← Nat.pow_succ']

theorem length_uleb128_le_three {n : ℕ} (h : n < 2 ^ 21) : (uleb128 n).length ≤ 3 :=
  length_uleb128_le (k := 2) h

theorem readUleb_uleb128 (n : ℕ) (r : Bytes) : readUleb (uleb128 n ++ r) = some (n, r) := by
  induction n using Nat.strong_induction_on with
  | _ n ih =>
    by_cases h : n < 128
    · have hb : (UInt8.ofNat n).toNat = n := by
        rw [UInt8.toNat_ofNat', Nat.mod_eq_of_lt (by omega)]
      simp [uleb128_of_lt h, readUleb, hb, h]
    · have hb : (UInt8.ofNat (n % 128 + 128)).toNat = n % 128 + 128 := by
        rw [UInt8.toNat_ofNat', Nat.mod_eq_of_lt (by omega)]
      rw [uleb128_of_ge (by omega), List.cons_append, readUleb, hb, if_neg (by omega),
        ih (n / 128) (by omega)]
      simp only [Option.map_some, Option.some.injEq, Prod.mk.injEq, and_true]
      omega

/-! ## The layout -/

/-- Id and length of each field. -/
def headers (fs : List Field) : Bytes :=
  fs.flatMap fun f => f.id :: uleb128 f.data.length

/-- The payload of a field list. -/
def layout (fs : List Field) : Bytes :=
  UInt8.ofNat fs.length :: headers fs ++ fs.flatMap Field.data

/-- Bytes one field takes : id, length, body. -/
def fieldSize (f : Field) : ℕ :=
  1 + (uleb128 f.data.length).length + f.data.length

theorem length_layout (fs : List Field) :
    (layout fs).length = 1 + (fs.map fieldSize).sum := by
  have h : (headers fs).length + (fs.flatMap Field.data).length = (fs.map fieldSize).sum := by
    induction fs with
    | nil => rfl
    | cons f fs ih =>
      simp only [headers, List.flatMap_cons, List.length_append, List.length_cons,
        List.map_cons, List.sum_cons, fieldSize] at ih ⊢
      omega
  simp only [layout, List.cons_append, List.length_cons, List.length_append]
  omega

/-- Four bytes a field besides the bodies are enough for a payload of up to 2 MiB. -/
theorem length_layout_le {fs : List Field} {n : ℕ} (hn : n ≤ 2 ^ 21)
    (h : 1 + (fs.map fun f => f.data.length + 4).sum ≤ n) : (layout fs).length ≤ n := by
  refine le_trans ?_ h
  rw [length_layout]
  refine Nat.add_le_add_left (List.sum_le_sum fun f hf => ?_) 1
  have hle : f.data.length + 4 ≤ (fs.map fun f => f.data.length + 4).sum :=
    List.single_le_sum (fun _ _ => Nat.zero_le _) _ (List.mem_map.mpr ⟨f, hf, rfl⟩)
  have := length_uleb128_le_three (show f.data.length < 2 ^ 21 by omega)
  unfold fieldSize
  omega

/-- `gs` is `fs` with fields inserted whose ids are not `known`. -/
inductive Inserted (known : List UInt8) : List Field → List Field → Prop
  | nil : Inserted known [] []
  | keep (f : Field) {fs gs : List Field} (h : Inserted known fs gs) :
    Inserted known (f :: fs) (f :: gs)
  | extra {f : Field} (hf : f.id ∉ known) {fs gs : List Field} (h : Inserted known fs gs) :
    Inserted known fs (f :: gs)

theorem Inserted.sublist {known : List UInt8} {fs gs : List Field} (h : Inserted known fs gs) :
    List.Sublist fs gs := by
  induction h with
  | nil => exact .slnil
  | keep f _ ih => exact ih.cons_cons f
  | extra _ _ ih => exact ih.cons _

theorem Inserted.length_layout_le {known : List UInt8} {fs gs : List Field}
    (h : Inserted known fs gs) : (layout fs).length ≤ (layout gs).length := by
  rw [length_layout, length_layout]
  exact Nat.add_le_add_left ((h.sublist.map fieldSize).sum_le_sum fun _ _ => Nat.zero_le _) 1

/-- A loop over the fields that ignores ids it does not know gives the same with more of
them. -/
theorem Inserted.foldlM_eq {known : List UInt8} {fs gs : List Field} (h : Inserted known fs gs)
    {ε β : Type*} {set : β → Field → Except ε β}
    (skip : ∀ b f, f.id ∉ known → set b f = .ok b) (b : β) :
    gs.foldlM set b = fs.foldlM set b := by
  induction h generalizing b with
  | nil => rfl
  | keep f _ ih =>
    rw [List.foldlM_cons, List.foldlM_cons]
    cases set b f with
    | error e => rfl
    | ok b' => exact ih b'
  | extra hf _ ih =>
    rw [List.foldlM_cons, skip b _ hf]
    exact ih b

/-! ## Codecs -/

/-- `Encoder.Bytes` and `DecodeID`. -/
structure Codec where
  bytes : List Field → Except Error Bytes
  decodeID : Bytes → Except Error (List Field)

/-- What the relay relies on : up to 255 fields take the documented layout, and
decoding inverts it. -/
structure Codec.Lawful (np : Codec) : Prop where
  bytes_eq : ∀ fs, fs.length ≤ 255 → np.bytes fs = .ok (layout fs)
  decodeID_layout : ∀ fs, fs.length ≤ 255 → np.decodeID (layout fs) = .ok fs

/-- The bodies `DecodeID` returns are cut from the payload. -/
def Codec.Slices (np : Codec) : Prop :=
  ∀ body fs, np.decodeID body = .ok fs → ∀ f ∈ fs, f.data.length ≤ body.length

/-- Read `n` headers. -/
def readHeaders : ℕ → Bytes → Option (List (UInt8 × ℕ) × Bytes)
  | 0, b => some ([], b)
  | _ + 1, [] => none
  | n + 1, id :: b =>
    (readUleb b).bind fun r => (readHeaders n r.2).map fun q => ((id, r.1) :: q.1, q.2)

/-- Cut the bodies off the front, one per header. -/
def readBodies : List (UInt8 × ℕ) → Bytes → Option (List Field)
  | [], b => if b = [] then some [] else none
  | (id, len) :: hs, b =>
    if b.length < len then none
    else (readBodies hs (b.drop len)).map fun fs => ⟨id, b.take len⟩ :: fs

/-- A codec for the documented layout. -/
def reference : Codec where
  bytes fs := if fs.length ≤ 255 then .ok (layout fs) else .error .malformed
  decodeID b :=
    match b with
    | [] => .error .malformed
    | c :: b =>
      match (readHeaders c.toNat b).bind fun r => readBodies r.1 r.2 with
      | some fs => .ok fs
      | none => .error .malformed

theorem readHeaders_headers (r : Bytes) : ∀ fs : List Field,
    readHeaders fs.length (headers fs ++ r) =
      some (fs.map fun f => (f.id, f.data.length), r)
  | [] => by simp [headers, readHeaders]
  | f :: fs => by
    have ih := readHeaders_headers r fs
    simp only [headers, List.flatMap_cons, List.length_cons, List.cons_append,
      List.append_assoc, readHeaders, readUleb_uleb128, Option.bind_some] at ih ⊢
    rw [ih]
    rfl

theorem readBodies_data : ∀ fs : List Field,
    readBodies (fs.map fun f => (f.id, f.data.length)) (fs.flatMap Field.data) = some fs
  | [] => by simp [readBodies]
  | f :: fs => by
    simp [readBodies, readBodies_data fs]

theorem reference_lawful : reference.Lawful where
  bytes_eq fs h := by simp [reference, h]
  decodeID_layout fs h := by
    have hc : (UInt8.ofNat fs.length).toNat = fs.length := by
      rw [UInt8.toNat_ofNat', Nat.mod_eq_of_lt (by omega)]
    simp [reference, layout, hc, readHeaders_headers, readBodies_data]

theorem length_readUleb : ∀ {b r : Bytes} {n : ℕ}, readUleb b = some (n, r) → r.length ≤ b.length
  | [], r, n, h => by cases h
  | x :: b, r, n, h => by
    rw [readUleb] at h
    split_ifs at h
    · cases h
      exact Nat.le_succ _
    · obtain ⟨⟨m, r'⟩, hr, heq⟩ := Option.map_eq_some_iff.mp h
      cases heq
      exact (length_readUleb hr).trans (Nat.le_succ _)

theorem length_readHeaders : ∀ {n : ℕ} {b r : Bytes} {hs : List (UInt8 × ℕ)},
    readHeaders n b = some (hs, r) → r.length ≤ b.length
  | 0, b, r, hs, h => by
    cases h
    exact le_refl _
  | n + 1, [], r, hs, h => by cases h
  | n + 1, id :: b, r, hs, h => by
    rw [readHeaders] at h
    obtain ⟨⟨len, r₁⟩, hr₁, h⟩ := Option.bind_eq_some_iff.mp h
    obtain ⟨⟨hs', r₂⟩, hr₂, heq⟩ := Option.map_eq_some_iff.mp h
    cases heq
    exact (length_readHeaders hr₂).trans ((length_readUleb hr₁).trans (Nat.le_succ _))

theorem length_readBodies : ∀ {hs : List (UInt8 × ℕ)} {b : Bytes} {fs : List Field},
    readBodies hs b = some fs → ∀ f ∈ fs, f.data.length ≤ b.length
  | [], b, fs, h => by
    rw [readBodies] at h
    split_ifs at h
    cases h
    exact nofun
  | (id, len) :: hs, b, fs, h => by
    rw [readBodies] at h
    split_ifs at h
    obtain ⟨fs', hfs', heq⟩ := Option.map_eq_some_iff.mp h
    cases heq
    intro f hf
    rcases List.mem_cons.mp hf with rfl | hf
    · exact List.length_take_le' _ _
    · refine (length_readBodies hfs' f hf).trans ?_
      rw [List.length_drop]
      exact Nat.sub_le _ _

theorem reference_slices : reference.Slices := by
  intro body fs h f hf
  cases body with
  | nil => cases h
  | cons c b =>
    change (match (readHeaders c.toNat b).bind fun r => readBodies r.1 r.2 with
      | some fs => Except.ok fs
      | none => Except.error Error.malformed) = _ at h
    split at h
    · rename_i gs hgs
      cases h
      obtain ⟨⟨hs, r⟩, hr, hbodies⟩ := Option.bind_eq_some_iff.mp hgs
      exact (length_readBodies hbodies f hf).trans ((length_readHeaders hr).trans (Nat.le_succ _))
    · cases h

end NanoPack
