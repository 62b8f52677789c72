import FileRelay.Replay

/-!
# What a signature pins

The four signed requests are laid out as a domain, then fields of fixed width, with
variable content as its digest. So equal bytes have equal fields, and the four layouts have
four lengths. `signed_bytes_pin_request` says that two valid requests with the same bytes
are of one kind and agree on every bound field.

One pair is identified on purpose : a `TransferCreate` without a mailbox signs sixteen zero
bytes in its place (`no_mailbox_signs_zeros`).
-/

namespace FileRelay

/-- A request that carries a signature. -/
inductive SignedRequest
  | send (m : SendMessage)
  | register (r : Register)
  | create (t : TransferCreate)
  | complete (t : TransferComplete)

/-- The validator of the request. -/
def SignedRequest.validate : SignedRequest → Check
  | .send m => validateSendMessage m
  | .register r => validateRegister r
  | .create t => validateTransferCreateMsg t
  | .complete t => validateTransferComplete t

variable (H : Bytes → Digest) (verify : Verifier)

/-- The bytes the handler of the request verifies the signature over. -/
def SignedRequest.canonical : SignedRequest → Bytes
  | .send m => canonicalMsgSend H (copyArr 32 m.senderPub) (copyArr 16 m.mailboxID) m.timestamp
      (copyArr 16 m.nonce) m.envelope
  | .register r => canonicalRegister (copyArr 32 r.clientPub) r.timestamp (copyArr 16 r.nonce)
  | .create t => canonicalXferCreate H (copyArr 32 t.senderPub)
      (if t.mailboxID.length = 16 then copyArr 16 t.mailboxID else copyArr 16 []) t.totalSize
      t.chunkSize t.chunkCount t.timestamp (copyArr 16 t.nonce) t.manifest
  | .complete t => canonicalXferComplete (copyArr 32 t.senderPub) (copyArr 16 t.transferID)
      (copyArr 32 t.manifestHash) t.timestamp (copyArr 16 t.nonce)

/-- The key and the signature of a request. -/
def SignedRequest.credentials : SignedRequest → Bytes × Bytes
  | .send m => (m.senderPub, m.signature)
  | .register r => (r.clientPub, r.signature)
  | .create t => (t.senderPub, t.signature)
  | .complete t => (t.senderPub, t.signature)

/-- The checks of the handler up to its replay test. -/
def SignedRequest.auth (now : ℤ) : SignedRequest → Check
  | .send m => authSend H verify m now
  | .register r => authRegister verify r now
  | .create t => authCreate H verify t now
  | .complete t => authComplete verify t now

theorem verify_of_verifySigned {pub canonical sig : Bytes} {ts : UInt64} {now : ℤ}
    (h : verifySigned verify pub canonical sig ts now = .ok ()) :
    verify pub canonical sig = true := by
  simp only [verifySigned, failIf_eq_ok, Bool.not_eq_false] at h
  exact h.2.1

/-- A handler that lets a request pass has verified its signature over these bytes. -/
theorem SignedRequest.verified {r : SignedRequest} {now : ℤ} (h : r.auth H verify now = .ok ()) :
    verify r.credentials.1 (r.canonical H) r.credentials.2 = true := by
  cases r with
  | send m =>
    have hv := bind_eq_ok h
    simp only [failIf_eq_ok] at hv
    exact verify_of_verifySigned verify hv.2.2.2
  | register r => exact verify_of_verifySigned verify (bind_eq_ok h)
  | create t =>
    have hv := bind_eq_ok h
    simp only [failIf_eq_ok] at hv
    exact verify_of_verifySigned verify hv.2.2
  | complete t =>
    have hv := bind_eq_ok h
    simp only [failIf_eq_ok] at hv
    exact verify_of_verifySigned verify hv.2.2

/-- What the signature covers by its digest. -/
def SignedRequest.content : SignedRequest → Bytes
  | .send m => m.envelope
  | .create t => t.manifest
  | _ => []

/-- Two mailbox fields are the same, or one is empty and the other is all zeros. -/
def SameMailboxField (a b : Bytes) : Prop :=
  a = b ∨ (a = [] ∧ b = List.replicate 16 0) ∨ (a = List.replicate 16 0 ∧ b = [])

/-- Two requests are of one kind and agree on every field a signature is meant to bind. -/
def SignedRequest.Agrees : SignedRequest → SignedRequest → Prop
  | .send m, .send m' => m.senderPub = m'.senderPub ∧ m.timestamp = m'.timestamp ∧
      m.nonce = m'.nonce ∧ m.mailboxID = m'.mailboxID ∧ m.envelope = m'.envelope
  | .register r, .register r' => r.clientPub = r'.clientPub ∧ r.timestamp = r'.timestamp ∧
      r.nonce = r'.nonce
  | .create t, .create t' => t.senderPub = t'.senderPub ∧ t.timestamp = t'.timestamp ∧
      t.nonce = t'.nonce ∧ SameMailboxField t.mailboxID t'.mailboxID ∧
      t.totalSize = t'.totalSize ∧ t.chunkSize = t'.chunkSize ∧ t.chunkCount = t'.chunkCount ∧
      t.manifest = t'.manifest
  | .complete t, .complete t' => t.senderPub = t'.senderPub ∧ t.timestamp = t'.timestamp ∧
      t.nonce = t'.nonce ∧ t.transferID = t'.transferID ∧ t.manifestHash = t'.manifestHash
  | _, _ => False

/-! ## Fields of fixed width -/

theorem putU64_inj {v w : UInt64} (h : putU64 v = putU64 w) : v = w := by
  have hv := getU64_putU64 v
  rw [h, getU64_putU64] at hv
  exact (Option.some.inj hv).symm

theorem putU32_inj {v w : UInt32} (h : putU32 v = putU32 w) : v = w := by
  have hv := getU32_putU32 v
  rw [h, getU32_putU32] at hv
  exact (Option.some.inj hv).symm

/-- The array field of a byte string of its width gives the byte string. -/
theorem copyArr_toList_inj {n : ℕ} {a b : Bytes} (ha : a.length = n) (hb : b.length = n)
    (h : (copyArr n a).toList = (copyArr n b).toList) : a = b := by
  rwa [copyArr_toList ha, copyArr_toList hb] at h

/-- The last of several fields. -/
theorem last_field {a a' b b' : Bytes} (n : ℕ) (h : a ++ b = a' ++ b') (hb : b.length = n)
    (hb' : b'.length = n) : a = a' ∧ b = b' :=
  List.append_inj' h (hb.trans hb'.symm)

variable {H}

/-- The four layouts have four lengths. -/
theorem SignedRequest.length_canonical (r : SignedRequest) : (r.canonical H).length =
    match r with
    | .send _ => 117
    | .register _ => 69
    | .create _ => 136
    | .complete _ => 122 := by
  cases r <;> simp [SignedRequest.canonical, canonicalMsgSend, canonicalRegister,
    canonicalXferCreate, canonicalXferComplete] <;> decide

/-- The mailbox field `handleCreate` signs gives the mailbox back, but for the zero id. -/
theorem sameMailboxField_of_signed {a b : Bytes} (ha : a.length ≠ 0 → a.length = 16)
    (hb : b.length ≠ 0 → b.length = 16)
    (h : (if a.length = 16 then copyArr 16 a else copyArr 16 []).toList =
      (if b.length = 16 then copyArr 16 b else copyArr 16 []).toList) : SameMailboxField a b := by
  have hzero : (copyArr 16 []).toList = List.replicate 16 0 := rfl
  have hempty : ∀ {l : Bytes}, (l.length ≠ 0 → l.length = 16) → l.length ≠ 16 → l = [] :=
    fun hl hne => List.length_eq_zero_iff.mp (by_contra fun h0 => hne (hl h0))
  by_cases ha16 : a.length = 16 <;> by_cases hb16 : b.length = 16
  · rw [if_pos ha16, if_pos hb16] at h
    exact Or.inl (copyArr_toList_inj ha16 hb16 h)
  · rw [if_pos ha16, if_neg hb16, copyArr_toList ha16, hzero] at h
    exact Or.inr (Or.inr ⟨h, hempty hb hb16⟩)
  · rw [if_neg ha16, if_pos hb16, copyArr_toList hb16, hzero] at h
    exact Or.inr (Or.inl ⟨hempty ha ha16, h.symm⟩)
  · rw [hempty ha ha16, hempty hb hb16]
    exact Or.inl rfl

/-! ## One kind at a time -/

theorem agrees_send {m m' : SendMessage} (hm : validateSendMessage m = .ok ())
    (hm' : validateSendMessage m' = .ok ())
    (hfree : H m.envelope = H m'.envelope → m.envelope = m'.envelope)
    (h : (SignedRequest.send m).canonical H = (SignedRequest.send m').canonical H) :
    (SignedRequest.send m).Agrees (.send m') := by
  obtain ⟨hmid, -, hpub, hnonce, -⟩ := validateSendMessage_eq_ok.mp hm
  obtain ⟨hmid', -, hpub', hnonce', -⟩ := validateSendMessage_eq_ok.mp hm'
  obtain ⟨h, henv⟩ := last_field 32 h (by simp) (by simp)
  obtain ⟨h, hn⟩ := last_field 16 h (by simp) (by simp)
  obtain ⟨h, hts⟩ := last_field 8 h (by simp) (by simp)
  obtain ⟨h, hbox⟩ := last_field 16 h (by simp) (by simp)
  obtain ⟨-, hp⟩ := last_field 32 h (by simp) (by simp)
  exact ⟨copyArr_toList_inj hpub hpub' hp, putU64_inj hts, copyArr_toList_inj hnonce hnonce' hn,
    copyArr_toList_inj hmid hmid' hbox, hfree (List.Vector.eq _ _ henv)⟩

theorem agrees_register {r r' : Register} (hr : validateRegister r = .ok ())
    (hr' : validateRegister r' = .ok ())
    (h : (SignedRequest.register r).canonical H = (SignedRequest.register r').canonical H) :
    (SignedRequest.register r).Agrees (.register r') := by
  obtain ⟨hpub, hnonce, -⟩ := validateRegister_eq_ok.mp hr
  obtain ⟨hpub', hnonce', -⟩ := validateRegister_eq_ok.mp hr'
  obtain ⟨h, hn⟩ := last_field 16 h (by simp) (by simp)
  obtain ⟨h, hts⟩ := last_field 8 h (by simp) (by simp)
  obtain ⟨-, hp⟩ := last_field 32 h (by simp) (by simp)
  exact ⟨copyArr_toList_inj hpub hpub' hp, putU64_inj hts, copyArr_toList_inj hnonce hnonce' hn⟩

theorem agrees_create {t t' : TransferCreate} (ht : validateTransferCreateMsg t = .ok ())
    (ht' : validateTransferCreateMsg t' = .ok ())
    (hfree : H t.manifest = H t'.manifest → t.manifest = t'.manifest)
    (h : (SignedRequest.create t).canonical H = (SignedRequest.create t').canonical H) :
    (SignedRequest.create t).Agrees (.create t') := by
  obtain ⟨hmid, -, -, hpub, hnonce, -⟩ := validateTransferCreateMsg_eq_ok.mp ht
  obtain ⟨hmid', -, -, hpub', hnonce', -⟩ := validateTransferCreateMsg_eq_ok.mp ht'
  obtain ⟨h, hman⟩ := last_field 32 h (by simp) (by simp)
  obtain ⟨h, hn⟩ := last_field 16 h (by simp) (by simp)
  obtain ⟨h, hts⟩ := last_field 8 h (by simp) (by simp)
  obtain ⟨h, hcount⟩ := last_field 4 h (by simp) (by simp)
  obtain ⟨h, hsize⟩ := last_field 4 h (by simp) (by simp)
  obtain ⟨h, htotal⟩ := last_field 8 h (by simp) (by simp)
  obtain ⟨h, hbox⟩ := last_field 16 h (by simp) (by simp)
  obtain ⟨-, hp⟩ := last_field 32 h (by simp) (by simp)
  exact ⟨copyArr_toList_inj hpub hpub' hp, putU64_inj hts, copyArr_toList_inj hnonce hnonce' hn,
    sameMailboxField_of_signed hmid hmid' hbox, putU64_inj htotal, putU32_inj hsize,
    putU32_inj hcount, hfree (List.Vector.eq _ _ hman)⟩

theorem agrees_complete {t t' : TransferComplete} (ht : validateTransferComplete t = .ok ())
    (ht' : validateTransferComplete t' = .ok ())
    (h : (SignedRequest.complete t).canonical H = (SignedRequest.complete t').canonical H) :
    (SignedRequest.complete t).Agrees (.complete t') := by
  obtain ⟨⟨hid, hhash, hpub, hnonce, -⟩, -⟩ := validateTransferComplete_eq_ok.mp ht
  obtain ⟨⟨hid', hhash', hpub', hnonce', -⟩, -⟩ := validateTransferComplete_eq_ok.mp ht'
  obtain ⟨h, hn⟩ := last_field 16 h (by simp) (by simp)
  obtain ⟨h, hts⟩ := last_field 8 h (by simp) (by simp)
  obtain ⟨h, hm⟩ := last_field 32 h (by simp) (by simp)
  obtain ⟨h, ht⟩ := last_field 16 h (by simp) (by simp)
  obtain ⟨-, hp⟩ := last_field 32 h (by simp) (by simp)
  exact ⟨copyArr_toList_inj hpub hpub' hp, putU64_inj hts, copyArr_toList_inj hnonce hnonce' hn,
    copyArr_toList_inj hid hid' ht, copyArr_toList_inj hhash hhash' hm⟩

/-- Two valid requests with the same signed bytes are of one kind and agree on every bound
field, up to a create without a mailbox and one for the all-zero mailbox, as long as their
contents do not collide. -/
theorem signed_bytes_pin_request (H : Bytes → Digest) (a b : SignedRequest)
    (ha : a.validate = .ok ()) (hb : b.validate = .ok ())
    (hfree : H a.content = H b.content → a.content = b.content)
    (h : a.canonical H = b.canonical H) : a.Agrees b := by
  have hlen := congrArg List.length h
  rw [a.length_canonical, b.length_canonical] at hlen
  cases a with
  | send m =>
    cases b with
    | send m' => exact agrees_send ha hb hfree h
    | _ => cases hlen
  | register r =>
    cases b with
    | register r' => exact agrees_register ha hb h
    | _ => cases hlen
  | create t =>
    cases b with
    | create t' => exact agrees_create ha hb hfree h
    | _ => cases hlen
  | complete t =>
    cases b with
    | complete t' => exact agrees_complete ha hb h
    | _ => cases hlen

theorem signed_bytes_pin_request_send :
    (SignedRequest.send replaySampleSend).Agrees
      (.send { replaySampleSend with signature := List.replicate 64 1, burn := 0 }) :=
  signed_bytes_pin_request replaySampleHash _ _ (by decide) (by decide) (fun _ => rfl) rfl

/-! ### The zero mailbox -/

/-- One chunk of one byte, for the mailbox `mailboxID`. -/
def zeroSampleCreate (mailboxID : Bytes) : TransferCreate where
  mailboxID := mailboxID
  totalSize := 1
  chunkSize := 1
  chunkCount := 1
  manifest := []
  senderPub := List.replicate 32 2
  timestamp := 0
  nonce := List.replicate 16 3
  signature := List.replicate 64 0

/-- A create for no mailbox and one for the all-zero mailbox are both valid and sign the same
bytes, whatever the digest. -/
theorem no_mailbox_signs_zeros :
    (SignedRequest.create (zeroSampleCreate [])).validate = .ok () ∧
      (SignedRequest.create (zeroSampleCreate (List.replicate 16 0))).validate = .ok () ∧
      (∀ H : Bytes → Digest, (SignedRequest.create (zeroSampleCreate [])).canonical H =
        (SignedRequest.create (zeroSampleCreate (List.replicate 16 0))).canonical H) ∧
      (zeroSampleCreate []).mailboxID ≠ (zeroSampleCreate (List.replicate 16 0)).mailboxID :=
  ⟨by decide, by decide, fun _ => rfl, by decide⟩

end FileRelay
