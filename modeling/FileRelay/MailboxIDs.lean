import FileRelay.Router

/-!
# The derivation of mailbox ids

`MailboxIDFromPub` spells a key in hexadecimal, nibble by nibble, and `MailboxID` is given a
spelling, which it turns to lower case. `mailbox_ids_coincide` : both hash the same message,
whatever the spelling, and different keys give different messages.
-/

namespace FileRelay

/-- `append(lower, hextable[b>>4], hextable[b&0x0f])`. -/
def appendHex (lower : Bytes) (b : UInt8) : Bytes :=
  lower ++ [hexDigit (b >>> 4).toNat, hexDigit (b &&& 0x0f).toNat]

/-- `lower` of `MailboxIDFromPub` : the message of its HMAC. -/
def hexMessage (pub : Bytes) : Bytes :=
  pub.foldl appendHex []

/-- The lower case of an ASCII character. -/
def lowerByte (c : UInt8) : UInt8 :=
  if 65 ≤ c ∧ c ≤ 90 then c + 32 else c

/-- `strings.ToLower`, where `unicode` is its second path, for texts that are not ASCII. -/
def toLower (unicode : Bytes → Bytes) (s : Bytes) : Bytes :=
  if s.all fun c => c < 0x80 then s.map lowerByte else unicode s

/-- `MailboxID`. -/
def mailboxID (mac : Bytes → Bytes → Digest) (unicode : Bytes → Bytes)
    (serverSecret edPubHex : Bytes) : ID :=
  copyArr 16 ((mac serverSecret (toLower unicode edPubHex)).toList.take 16)

/-- The value of a hexadecimal digit of either case. -/
def hexValue (c : UInt8) : Option ℕ :=
  if 48 ≤ c ∧ c ≤ 57 then some (c.toNat - 48)
  else if 97 ≤ c ∧ c ≤ 102 then some (c.toNat - 87)
  else if 65 ≤ c ∧ c ≤ 70 then some (c.toNat - 55)
  else none

/-- The text spells the bytes in hexadecimal, in any mixture of the two cases. -/
def Spells : Bytes → Bytes → Prop
  | [], [] => True
  | high :: low :: rest, b :: pub =>
    hexValue high = some (b.toNat / 16) ∧ hexValue low = some (b.toNat % 16) ∧ Spells rest pub
  | _, _ => False

theorem appendHex_eq (lower : Bytes) (b : UInt8) : appendHex lower b = lower ++ hexEncode [b] := by
  have hhigh : (b >>> 4).toNat = b.toNat / 16 := by
    rw [UInt8.toNat_shiftRight, Nat.shiftRight_eq_div_pow]
    rfl
  have hlow : (b &&& 0x0f).toNat = b.toNat % 16 := by
    rw [UInt8.toNat_and]
    exact Nat.and_two_pow_sub_one_eq_mod b.toNat 4
  rw [appendHex, hhigh, hlow]
  rfl

theorem foldl_appendHex : ∀ (pub lower : Bytes),
    pub.foldl appendHex lower = lower ++ hexEncode pub
  | [], lower => (List.append_nil lower).symm
  | b :: pub, lower => by
    rw [List.foldl_cons, foldl_appendHex pub, appendHex_eq, List.append_assoc]
    rfl

/-- The loop spells the key as `hex.EncodeToString` does. -/
theorem hexMessage_eq (pub : Bytes) : hexMessage pub = hexEncode pub :=
  foldl_appendHex pub []

/-- The lower case of a digit is the digit that the loop writes. -/
theorem lowerByte_of_hexValue {c : UInt8} {n : ℕ} (h : hexValue c = some n) :
    c < 0x80 ∧ lowerByte c = hexDigit n := by
  have hall : ∀ k < 256, ∀ n ∈ hexValue (UInt8.ofNat k),
      UInt8.ofNat k < 0x80 ∧ lowerByte (UInt8.ofNat k) = hexDigit n := by
    decide +kernel
  have hc := hall c.toNat c.toNat_lt n
  rw [UInt8.ofNat_toNat] at hc
  exact hc h

/-- Every spelling is ASCII, and its lower case is that of `hex.EncodeToString`. -/
theorem lower_of_spells : ∀ {h pub : Bytes}, Spells h pub →
    (∀ c ∈ h, c < 0x80) ∧ h.map lowerByte = hexEncode pub
  | [], [], _ => ⟨nofun, rfl⟩
  | high :: low :: rest, b :: pub, hspell => by
    obtain ⟨hhigh, hlow, hrest⟩ := hspell
    obtain ⟨hascii, hlower⟩ := lower_of_spells hrest
    obtain ⟨hhigh80, hhigh⟩ := lowerByte_of_hexValue hhigh
    obtain ⟨hlow80, hlow⟩ := lowerByte_of_hexValue hlow
    constructor
    · intro c hc
      rcases List.mem_cons.mp hc with rfl | hc
      · exact hhigh80
      · rcases List.mem_cons.mp hc with rfl | hc
        · exact hlow80
        · exact hascii c hc
    · rw [List.map_cons, List.map_cons, hhigh, hlow, hlower]
      rfl

/-- For every secret, every key and every hexadecimal spelling of it the two derivations give
the same mailbox id, and the message that is hashed is different for different keys. -/
theorem mailbox_ids_coincide (mac : Bytes → Bytes → Digest) (unicode : Bytes → Bytes)
    (serverSecret pub h : Bytes) (hspell : Spells h pub) :
    mailboxIDFromPub mac serverSecret pub = mailboxID mac unicode serverSecret h ∧
      mailboxIDFromPub mac serverSecret pub =
        copyArr 16 ((mac serverSecret (hexMessage pub)).toList.take 16) ∧
      ∀ pub', pub' ≠ pub → hexMessage pub' ≠ hexMessage pub := by
  obtain ⟨hascii, hlower⟩ := lower_of_spells hspell
  refine ⟨?_, ?_, fun pub' hne heq => hne ?_⟩
  · have hall : h.all (fun c => c < 0x80) = true :=
      List.all_eq_true.mpr fun c hc => decide_eq_true (hascii c hc)
    rw [mailboxIDFromPub, mailboxID, toLower, if_pos hall, hlower]
  · rw [mailboxIDFromPub, hexMessage_eq]
  · rw [hexMessage_eq, hexMessage_eq] at heq
    exact hexEncode_inj heq

/-- A key of two bytes in mixed case. -/
theorem mailbox_ids_mixed_case :
    Spells (ascii "aBF0") [0xab, 0xf0] ∧
      mailboxIDFromPub (fun _ m => copyArr 32 m) [1] [0xab, 0xf0] =
        mailboxID (fun _ m => copyArr 32 m) id [1] (ascii "aBF0") := by
  have hspell : Spells (ascii "aBF0") [0xab, 0xf0] :=
    ⟨by decide, by decide, by decide, by decide, trivial⟩
  exact ⟨hspell, (mailbox_ids_coincide _ id [1] _ _ hspell).1⟩

end FileRelay
