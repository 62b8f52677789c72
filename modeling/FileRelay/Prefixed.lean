import FileRelay.Bytes

/-!
# Length-prefixed entries

Byte strings written one after the other, each behind its length in `w` big-endian bytes.
`cut` takes the first entry off a byte string, and `cut_eq_some` says that it finds exactly
what `entry` wrote. So a parser that goes by `cut` reads back what `encode` wrote, and what
it reads re-encodes to the bytes it has consumed.
-/

namespace Prefixed

/-- One entry behind its length. -/
def entry (w : ℕ) (e : Bytes) : Bytes :=
  beBytes w e.length ++ e

/-- The entries one after the other. -/
def encode (w : ℕ) (es : List Bytes) : Bytes :=
  es.flatMap (entry w)

/-- The first entry and the bytes after it, if the bytes are enough. -/
def cut (w : ℕ) (b : Bytes) : Option (Bytes × Bytes) :=
  if b.length < w then none
  else if b.length < w + beNat (b.take w) then none
  else some ((b.drop w).take (beNat (b.take w)), b.drop (w + beNat (b.take w)))

@[simp] theorem encode_nil (w : ℕ) : encode w [] = [] := rfl

@[simp] theorem encode_cons (w : ℕ) (e : Bytes) (es : List Bytes) :
    encode w (e :: es) = entry w e ++ encode w es := rfl

@[simp] theorem length_entry (w : ℕ) (e : Bytes) : (entry w e).length = w + e.length := by
  simp [entry]

theorem encode_append (w : ℕ) (es fs : List Bytes) :
    encode w (es ++ fs) = encode w es ++ encode w fs := by
  simp [encode]

/-- `cut` finds the entry that was written, and finds nothing else. -/
theorem cut_eq_some {w : ℕ} {b e r : Bytes} :
    cut w b = some (e, r) ↔ e.length < 256 ^ w ∧ b = entry w e ++ r := by
  constructor
  · intro h
    unfold cut at h
    split_ifs at h with hw hn
    cases h
    have hhead : (b.take w).length = w := by
      rw [List.length_take]
      omega
    have hlen : ((b.drop w).take (beNat (b.take w))).length = beNat (b.take w) := by
      rw [List.length_take, List.length_drop]
      omega
    refine ⟨?_, ?_⟩
    · rw [hlen]
      have := beNat_lt (b.take w)
      rwa [hhead] at this
    · have hdigits := beBytes_beNat (b.take w)
      rw [hhead] at hdigits
      rw [entry, hlen, hdigits, List.append_assoc, ← List.drop_drop, List.take_append_drop,
        List.take_append_drop]
  · rintro ⟨hlt, rfl⟩
    have htake : (entry w e ++ r).take w = beBytes w e.length := by
      rw [entry, List.append_assoc, List.take_left' (length_beBytes _ _)]
    have hdrop : (entry w e ++ r).drop w = e ++ r := by
      rw [entry, List.append_assoc, List.drop_left' (length_beBytes _ _)]
    have hlen : (entry w e ++ r).length = w + e.length + r.length := by
      rw [List.length_append, length_entry]
    unfold cut
    rw [htake, beNat_beBytes_of_lt hlt, if_neg (by omega), if_neg (by omega), ← List.drop_drop,
      hdrop, List.take_left' rfl, List.drop_left' rfl]

/-- What follows an entry is shorter. -/
theorem length_cut_lt {w : ℕ} {b e r : Bytes} (hw : 0 < w) (h : cut w b = some (e, r)) :
    r.length < b.length := by
  obtain ⟨-, rfl⟩ := cut_eq_some.mp h
  rw [List.length_append, length_entry]
  omega

end Prefixed
