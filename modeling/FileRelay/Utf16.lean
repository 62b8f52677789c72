import FileRelay.Bytes

/-!
# JavaScript strings

A JavaScript string is a list of UTF-16 code units. `utf16` spells a text that way, and
`codePoints` reads the units back : two surrogates are one character, and a surrogate without
its partner stands for U+FFFD. On the spelling of a text nothing is lost
(`codePoints_utf16`), so `toUtf8` and `ofUtf8` are inverse there (`ofUtf8_toUtf8`).
-/

/-- A JavaScript string : its UTF-16 code units. -/
abbrev JSString := List UInt16

namespace JSString

/-- The units of a character. -/
def charUnits (c : Char) : JSString :=
  if c.toNat < 0x10000 then [UInt16.ofNat c.toNat]
  else [UInt16.ofNat (0xD800 + (c.toNat - 0x10000) / 0x400),
    UInt16.ofNat (0xDC00 + (c.toNat - 0x10000) % 0x400)]

/-- The string of a text. -/
def utf16 (cs : List Char) : JSString :=
  cs.flatMap charUnits

/-- What stands for a surrogate without its partner. -/
def replacement : Char :=
  Char.ofNat 0xFFFD

def isHigh (u : UInt16) : Prop :=
  0xD800 ≤ u.toNat ∧ u.toNat ≤ 0xDBFF

def isLow (u : UInt16) : Prop :=
  0xDC00 ≤ u.toNat ∧ u.toNat ≤ 0xDFFF

instance (u : UInt16) : Decidable (isHigh u) :=
  inferInstanceAs (Decidable (_ ∧ _))

instance (u : UInt16) : Decidable (isLow u) :=
  inferInstanceAs (Decidable (_ ∧ _))

/-- The characters of a string. -/
def codePoints : JSString → List Char
  | [] => []
  | [u] => if isHigh u ∨ isLow u then [replacement] else [Char.ofNat u.toNat]
  | u :: v :: rest =>
    if isHigh u ∧ isLow v then
      Char.ofNat (0x10000 + (u.toNat - 0xD800) * 0x400 + (v.toNat - 0xDC00)) :: codePoints rest
    else if isHigh u ∨ isLow u then replacement :: codePoints (v :: rest)
    else Char.ofNat u.toNat :: codePoints (v :: rest)

/-- `Buffer.from(s, 'utf8')`. -/
def toUtf8 (s : JSString) : Bytes :=
  (codePoints s).flatMap String.utf8EncodeChar

/-- `buf.toString('utf8')`. Bytes that are not UTF-8 are read with replacement characters,
which `lossy` puts in. -/
def ofUtf8 (lossy : Bytes → JSString) (b : Bytes) : JSString :=
  match (ByteArray.mk b.toArray).utf8Decode? with
  | some cs => utf16 cs.toList
  | none => lossy b

/-- The string spells a text : it has no surrogate without its partner. -/
def WellFormed (s : JSString) : Prop :=
  ∃ cs, utf16 cs = s

/-! ## Reading a text back -/

/-- A unit that is no surrogate is a character of its own. -/
theorem codePoints_cons {u : UInt16} (hhigh : ¬isHigh u) (hlow : ¬isLow u) (rest : JSString) :
    codePoints (u :: rest) = Char.ofNat u.toNat :: codePoints rest := by
  have hneither : ¬(isHigh u ∨ isLow u) := not_or.mpr ⟨hhigh, hlow⟩
  cases rest with
  | nil => exact if_neg hneither
  | cons v rest => rw [codePoints, if_neg fun h => hhigh h.1, if_neg hneither]

theorem codePoints_charUnits (c : Char) (rest : JSString) :
    codePoints (charUnits c ++ rest) = c :: codePoints rest := by
  have hvalid : c.toNat < 0xD800 ∨ 0xDFFF < c.toNat ∧ c.toNat < 0x110000 := c.valid
  unfold charUnits
  split_ifs with hsmall
  · have hunit : (UInt16.ofNat c.toNat).toNat = c.toNat := UInt16.toNat_ofNat_of_lt' hsmall
    have hhigh : ¬isHigh (UInt16.ofNat c.toNat) := by
      unfold isHigh
      omega
    have hlow : ¬isLow (UInt16.ofNat c.toNat) := by
      unfold isLow
      omega
    rw [List.singleton_append, codePoints_cons hhigh hlow, hunit, Char.ofNat_toNat]
  · have hhi : (UInt16.ofNat (0xD800 + (c.toNat - 0x10000) / 0x400)).toNat =
        0xD800 + (c.toNat - 0x10000) / 0x400 :=
      UInt16.toNat_ofNat_of_lt' (by change _ < 65536; omega)
    have hlo : (UInt16.ofNat (0xDC00 + (c.toNat - 0x10000) % 0x400)).toNat =
        0xDC00 + (c.toNat - 0x10000) % 0x400 :=
      UInt16.toNat_ofNat_of_lt' (by change _ < 65536; omega)
    have hpair : isHigh (UInt16.ofNat (0xD800 + (c.toNat - 0x10000) / 0x400)) ∧
        isLow (UInt16.ofNat (0xDC00 + (c.toNat - 0x10000) % 0x400)) := by
      unfold isHigh isLow
      omega
    have hsum : 0x10000 + (0xD800 + (c.toNat - 0x10000) / 0x400 - 0xD800) * 0x400 +
        (0xDC00 + (c.toNat - 0x10000) % 0x400 - 0xDC00) = c.toNat := by
      omega
    rw [List.cons_append, List.singleton_append, codePoints, if_pos hpair, hhi, hlo, hsum,
      Char.ofNat_toNat]

theorem codePoints_utf16 : ∀ cs : List Char, codePoints (utf16 cs) = cs
  | [] => rfl
  | c :: cs => by
    unfold utf16
    rw [List.flatMap_cons, codePoints_charUnits]
    exact congrArg _ (codePoints_utf16 cs)

/-- A string read back from its UTF-8 bytes : what its characters spell. -/
theorem ofUtf8_toUtf8_eq (lossy : Bytes → JSString) (s : JSString) :
    ofUtf8 lossy (toUtf8 s) = utf16 (codePoints s) := by
  have hbytes : ByteArray.mk (toUtf8 s).toArray = (codePoints s).utf8Encode := by
    apply ByteArray.ext
    unfold List.utf8Encode toUtf8
    rw [List.data_toByteArray]
  unfold ofUtf8
  rw [hbytes, List.utf8Decode?_utf8Encode]

/-- A string without lone surrogates is read back as it was. -/
theorem ofUtf8_toUtf8 (lossy : Bytes → JSString) {s : JSString} (h : WellFormed s) :
    ofUtf8 lossy (toUtf8 s) = s := by
  obtain ⟨cs, rfl⟩ := h
  rw [ofUtf8_toUtf8_eq, codePoints_utf16]

end JSString
