import FileRelay.Transfers

/-!
# Message bodies

The request and the response of `ReceiveMessages`, schemas 59 and 60 of
`protocol/messages.go`, and the error body, schema 51. The response carries the ids and the
envelopes of a batch in two fields, which `payloadLoop` cuts apart.

`batch_bounds` says what an accepted response holds : at most 32 messages with envelopes of
1 to 32768 bytes.
-/

namespace FileRelay

open NanoPack (Field Codec layout)

/-! ## Schema 51 -/

/-- `ProtocolError` as it travels. -/
structure ErrorMsg where
  code : UInt32
  detail : Bytes
  retryAfter : UInt32
deriving DecidableEq, Repr

/-- The `switch` of `UnmarshalError`. -/
def ErrorMsg.set (out : ErrorMsg) (f : Field) : Wire ErrorMsg :=
  if f.id = 1 then (fieldU32 f.data).map fun v => { out with code := v }
  else if f.id = 2 then .ok { out with detail := f.data }
  else if f.id = 3 then (fieldU32 f.data).map fun v => { out with retryAfter := v }
  else .ok out

/-- `UnmarshalError`. -/
def unmarshalError (np : Codec) (body : Bytes) : Wire ErrorMsg :=
  unmarshal np 4096 ErrorMsg.set ⟨0, [], 0⟩
    (fun out => rejectIf (out.code = 0) .invalidRequest "error code 0 is reserved") body

/-! ## Schema 59 -/

/-- `ReceiveMessages`. -/
structure ReceiveMessages where
  mailboxID : Bytes
  readSecret : Bytes
  limit : UInt8
  peek : UInt8
deriving DecidableEq, Repr

/-- `ValidateReceiveMessages`. -/
def validateReceiveMessages (r : ReceiveMessages) : Wire Unit := do
  rejectIf (r.mailboxID.length ≠ 16) .invalidRequest "mailbox_id must be 16 bytes"
  rejectIf (r.readSecret.length ≠ 32) .authFailed "read_secret must be 32 bytes"

/-- `MarshalReceiveMessages`. -/
def marshalReceiveMessages (np : Codec) (r : ReceiveMessages) : Wire Bytes := do
  validateReceiveMessages r
  encodeFields np [⟨1, r.mailboxID⟩, ⟨2, r.readSecret⟩, ⟨3, [r.limit]⟩, ⟨4, [r.peek]⟩]

/-! ## Schema 60 -/

/-- `ReceivedMessage`. -/
structure ReceivedMessage where
  msgID : Bytes
  envelope : Bytes
deriving DecidableEq, Repr

/-- `ReceiveMessagesResponse`. -/
structure ReceiveMessagesResponse where
  messages : List ReceivedMessage
  consumed : Bool
deriving DecidableEq, Repr

/-- The fields of the response before they are cut apart. -/
structure BatchFields where
  count : UInt32
  ids : Bytes
  payloads : Bytes
  consumed : Bool

/-- The `switch` of `UnmarshalReceiveMessagesResponse`. -/
def BatchFields.set (out : BatchFields) (f : Field) : Wire BatchFields :=
  if f.id = 1 then (fieldU32 f.data).map fun v => { out with count := v }
  else if f.id = 2 then .ok { out with ids := f.data }
  else if f.id = 3 then .ok { out with payloads := f.data }
  else if f.id = 4 then (fieldU8 f.data).map fun v : UInt8 => { out with consumed := v == 1 }
  else .ok out

/-- The loop over the payloads from message `i` and position `pos`, with `k` messages left. -/
def payloadLoop (ids payloads : Bytes) : ℕ → ℕ → ℕ → Wire (List ReceivedMessage × ℕ)
  | 0, _, pos => .ok ([], pos)
  | k + 1, i, pos =>
    if payloads.length < pos + 4 then
      .error (.protocol ⟨.invalidRequest, "payloads truncated", 0⟩)
    else
      let n := beNat ((payloads.drop pos).take 4)
      let pos := pos + 4
      if n = 0 ∨ maxMessageBytes < n ∨ payloads.length < pos + n then
        .error (.protocol ⟨.messageTooLarge, "envelope out of bounds", 0⟩)
      else
        (payloadLoop ids payloads k (i + 1) (pos + n)).map fun r =>
          (⟨(ids.drop (i * 16)).take 16, (payloads.drop pos).take n⟩ :: r.1, r.2)

/-- The messages of the fields. -/
def BatchFields.split (b : BatchFields) : Wire (List ReceivedMessage) := do
  rejectIf (maxBatchMessages < b.count.toNat) .batchTooLarge "batch too large"
  rejectIf (UInt32.ofNat b.ids.length ≠ b.count * 16) .invalidRequest "ids length mismatch"
  let r ← payloadLoop b.ids b.payloads b.count.toNat 0 0
  rejectIf (r.2 ≠ b.payloads.length) .invalidRequest "payloads trailing bytes"
  return r.1

/-- `UnmarshalReceiveMessagesResponse`. -/
def unmarshalReceiveMessagesResponse (np : Codec) (body : Bytes) :
    Wire ReceiveMessagesResponse := do
  let b ← unmarshal np (maxBatchMessages * maxMessageBytes + 4096) BatchFields.set
    ⟨0, [], [], false⟩ (fun _ => .ok ()) body
  let messages ← b.split
  return ⟨messages, b.consumed⟩

theorem wire_bind_eq_ok {α β : Type} {x : Wire α} {f : α → Wire β} {b : β} :
    (x >>= f) = .ok b ↔ ∃ a, x = .ok a ∧ f a = .ok b := by
  cases x with
  | error e => exact ⟨nofun, fun ⟨_, h, _⟩ => nomatch h⟩
  | ok a => exact ⟨fun h => ⟨a, rfl, h⟩, fun ⟨a', ha, h⟩ => by cases ha; exact h⟩

theorem wire_map_eq_ok {α β : Type} {x : Wire α} {f : α → β} {b : β} :
    x.map f = .ok b ↔ ∃ a, x = .ok a ∧ f a = b := by
  cases x with
  | error e => exact ⟨nofun, fun ⟨_, h, _⟩ => nomatch h⟩
  | ok a =>
    refine ⟨fun h => ⟨a, rfl, Except.ok.inj h⟩, fun ⟨a', ha, h⟩ => ?_⟩
    cases ha
    exact congrArg Except.ok h

theorem rejectIf_eq_ok {bad : Prop} [Decidable bad] {code : ErrCode} {detail : String} {u : Unit} :
    rejectIf bad code detail = .ok u ↔ ¬bad := by
  unfold rejectIf
  split_ifs with h
  · exact ⟨nofun, fun hn => absurd h hn⟩
  · exact ⟨fun _ => h, fun _ => rfl⟩

/-- A case of a `switch` on the id of a field. -/
theorem switch_eq_ok {α : Type} {f : Field} {k : UInt8} {x y : Wire α} {a : α} :
    (if f.id = k then x else y) = .ok a ↔ f.id = k ∧ x = .ok a ∨ f.id ≠ k ∧ y = .ok a := by
  split_ifs with h <;> simp [h]

/-- What a decoder that returns a value has seen. -/
theorem unmarshal_eq_ok {α : Type} {np : Codec} {limit : ℕ} {set : α → Field → Wire α} {zero a : α}
    {check : α → Wire Unit} {body : Bytes} (h : unmarshal np limit set zero check body = .ok a) :
    body.length ≤ limit ∧ ∃ fs, decodeFields np body = .ok fs ∧ fs.foldlM set zero = .ok a ∧
      check a = .ok () := by
  obtain ⟨_, hlen, h⟩ := wire_bind_eq_ok.mp h
  obtain ⟨fs, hfs, h⟩ := wire_bind_eq_ok.mp h
  obtain ⟨out, hout, h⟩ := wire_bind_eq_ok.mp h
  obtain ⟨⟨⟩, hcheck, h⟩ := wire_bind_eq_ok.mp h
  cases h
  exact ⟨not_lt.mp (rejectIf_eq_ok.mp hlen), fs, hfs, hout, hcheck⟩

/-- What every field keeps holds of what the loop over the fields returns. -/
theorem foldlM_ok_induction {α : Type} {set : α → Field → Wire α} {P : α → Prop} :
    ∀ (fs : List Field), (∀ f ∈ fs, ∀ a a', P a → set a f = .ok a' → P a') →
      ∀ {a a' : α}, P a → fs.foldlM set a = .ok a' → P a'
  | [], _, _, _, ha, h => by
    cases h
    exact ha
  | f :: fs, hset, a, a', ha, h => by
    rw [List.foldlM_cons] at h
    obtain ⟨a₁, h₁, h⟩ := wire_bind_eq_ok.mp h
    exact foldlM_ok_induction fs (fun f' hf' => hset f' (List.mem_cons_of_mem f hf'))
      (hset f List.mem_cons_self a a₁ ha h₁) h

theorem payloadLoop_bounds (ids payloads : Bytes) : ∀ {k i pos : ℕ}
    {r : List ReceivedMessage × ℕ}, payloadLoop ids payloads k i pos = .ok r →
    r.1.length = k ∧ ∀ m ∈ r.1, 0 < m.envelope.length ∧ m.envelope.length ≤ maxMessageBytes
  | 0, _, _, r, h => by
    cases h
    exact ⟨rfl, nofun⟩
  | k + 1, i, pos, r, h => by
    rw [payloadLoop] at h
    dsimp only at h
    split_ifs at h with hshort hbad
    rcases hrest : payloadLoop ids payloads k (i + 1)
      (pos + 4 + beNat ((payloads.drop pos).take 4)) with e | r'
    · rw [hrest] at h
      cases h
    · rw [hrest] at h
      cases h
      obtain ⟨hlen, hall⟩ := payloadLoop_bounds ids payloads hrest
      refine ⟨by simp [hlen], fun m hm => ?_⟩
      rcases List.mem_cons.mp hm with rfl | hm
      · simp only [List.length_take, List.length_drop]
        omega
      · exact hall m hm

/-- An accepted response holds at most 32 messages with envelopes of 1 to 32768 bytes. -/
theorem batch_bounds {np : Codec} {body : Bytes} {res : ReceiveMessagesResponse}
    (h : unmarshalReceiveMessagesResponse np body = .ok res) :
    res.messages.length ≤ maxBatchMessages ∧
      ∀ m ∈ res.messages, 0 < m.envelope.length ∧ m.envelope.length ≤ maxMessageBytes := by
  obtain ⟨b, -, h⟩ := wire_bind_eq_ok.mp h
  obtain ⟨messages, hsplit, h⟩ := wire_bind_eq_ok.mp h
  cases h
  obtain ⟨_, hcount, hsplit⟩ := wire_bind_eq_ok.mp hsplit
  obtain ⟨-, -, hsplit⟩ := wire_bind_eq_ok.mp hsplit
  obtain ⟨r, hloop, hsplit⟩ := wire_bind_eq_ok.mp hsplit
  obtain ⟨-, -, hsplit⟩ := wire_bind_eq_ok.mp hsplit
  cases hsplit
  obtain ⟨hlen, hall⟩ := payloadLoop_bounds _ _ hloop
  exact ⟨hlen ▸ not_lt.mp (rejectIf_eq_ok.mp hcount), hall⟩

end FileRelay
