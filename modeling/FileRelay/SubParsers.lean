import FileRelay.Batches
import FileRelay.Checked
import FileRelay.PutAck
import FileRelay.Requests
import FileRelay.RoutingTable

/-!
# The hand-written parsers, index by index

The parsers of the protocol package that walk over the bytes of a field : `decodeShardList`, the
loop of `UnmarshalReceiveMessagesResponse`, the ids of `UnmarshalMessageAck` and `DecodeRanges`.
They are modelled elsewhere on lists. Here they are written as the Go code is, with positions of
64-bit `int`, every index and every slice checked, and loops that could go on.

Each of them ends as its list model does and never panics (`decodeShardList_ends`,
`splitBatch_ends`, `splitIDs_ends`, `decodeRanges_ends`). `sub_parsers_safe` adds that the pieces
put together again are the input.
-/

namespace FileRelay

open Checked

namespace Indexed

/-! ## The parsers -/

section Parsers

variable {ε : Type}

/-- `uint32(b[i])<<24 | uint32(b[i+1])<<16 | uint32(b[i+2])<<8 | uint32(b[i+3])`. -/
def u32At (b : Bytes) (i : ℤ) : Call ε UInt32 := do
  let b₀ ← index b i
  let b₁ ← index b (toInt64 (i + 1))
  let b₂ ← index b (toInt64 (i + 2))
  let b₃ ← index b (toInt64 (i + 3))
  return b₀.toUInt32 <<< 24 ||| b₁.toUInt32 <<< 16 ||| b₂.toUInt32 <<< 8 ||| b₃.toUInt32

/-- A turn of the loop of `decodeShardList`. -/
def shardListTurn (blob : Bytes) (pos : ℤ) (out : List Bytes) :
    Call WireError (Turn (ℤ × List Bytes) (List Bytes)) :=
  if pos < blob.length then
    if toInt64 (pos + 2) > blob.length then raise (.nanopack .shortBody)
    else do
      let hi ← index blob pos
      let lo ← index blob (toInt64 (pos + 1))
      let n := hi.toNat <<< 8 ||| lo.toNat
      let pos := toInt64 (pos + 2)
      if n ≤ 0 ∨ toInt64 (pos + n) > blob.length then raise (.nanopack .shortBody)
      else do
        let s ← slice blob pos (toInt64 (pos + n))
        return .next (toInt64 (pos + n), out ++ [s])
  else return .done out

/-- `decodeShardList`. -/
def decodeShardList (fuel : ℕ) (blob : Bytes) : Call WireError (List Bytes) :=
  loop (fun st => shardListTurn blob st.1 st.2) fuel (0, [])

/-- The state of the loop of `UnmarshalReceiveMessagesResponse`. -/
structure BatchState where
  i : UInt32
  pos : ℤ
  msgs : List ReceivedMessage

/-- A turn of the loop of `UnmarshalReceiveMessagesResponse`. -/
def batchTurn (count : UInt32) (ids payloads : Bytes) (i : UInt32) (pos : ℤ)
    (msgs : List ReceivedMessage) :
    Call WireError (Turn BatchState (ℤ × List ReceivedMessage)) :=
  if i < count then
    if toInt64 (pos + 4) > payloads.length then
      raise (.protocol ⟨.invalidRequest, "payloads truncated", 0⟩)
    else do
      let v ← u32At payloads pos
      let n := v.toNat
      let pos := toInt64 (pos + 4)
      if n ≤ 0 ∨ n > maxMessageBytes ∨ toInt64 (pos + n) > payloads.length then
        raise (.protocol ⟨.messageTooLarge, "envelope out of bounds", 0⟩)
      else do
        let msgID ← slice ids (i * 16).toNat ((i + 1) * 16).toNat
        let envelope ← slice payloads pos (toInt64 (pos + n))
        return .next ⟨i + 1, toInt64 (pos + n), msgs ++ [⟨msgID, envelope⟩]⟩
  else return .done (pos, msgs)

/-- `UnmarshalReceiveMessagesResponse` from its fields on. -/
def splitBatch (fuel : ℕ) (count : UInt32) (ids payloads : Bytes) :
    Call WireError (List ReceivedMessage) :=
  if count.toNat > maxBatchMessages then
    raise (.protocol ⟨.batchTooLarge, "batch too large", 0⟩)
  else if UInt32.ofNat ids.length ≠ count * 16 then
    raise (.protocol ⟨.invalidRequest, "ids length mismatch", 0⟩)
  else do
    let r ← loop (fun st => batchTurn count ids payloads st.i st.pos st.msgs) fuel ⟨0, 0, []⟩
    if r.1 ≠ payloads.length then
      raise (.protocol ⟨.invalidRequest, "payloads trailing bytes", 0⟩)
    else return r.2

/-- A turn of the loop of `UnmarshalMessageAck`. -/
def idTurn (flat : Bytes) (i : ℤ) (out : List Bytes) :
    Call WireError (Turn (ℤ × List Bytes) (List Bytes)) :=
  if i < flat.length then do
    let id ← slice flat i (toInt64 (i + 16))
    return .next (toInt64 (i + 16), out ++ [id])
  else return .done out

/-- The ids of `UnmarshalMessageAck`. -/
def splitIDs (fuel : ℕ) (flat : Bytes) : Call WireError (List Bytes) :=
  if flat.length % 16 ≠ 0 then
    raise (.protocol ⟨.invalidRequest, "msg_ids must be n*16 bytes", 0⟩)
  else loop (fun st => idTurn flat st.1 st.2) fuel (0, [])

/-- A turn of the loop of `DecodeRanges`. -/
def rangeTurn (blob : Bytes) (i : ℤ) (out : List (UInt32 × UInt32)) :
    Call ProtocolError (Turn (ℤ × List (UInt32 × UInt32)) (List (UInt32 × UInt32))) :=
  if i < blob.length then do
    let s ← u32At blob i
    let c ← u32At blob (toInt64 (i + 4))
    return .next (toInt64 (i + 8), out ++ [(s, c)])
  else return .done out

/-- `DecodeRanges`. -/
def decodeRanges (fuel : ℕ) (blob : Bytes) : Call ProtocolError (List (UInt32 × UInt32)) :=
  if blob.length % 8 ≠ 0 then raise ⟨.invalidRequest, "ranges corrupt", 0⟩
  else loop (fun st => rangeTurn blob st.1 st.2) fuel (0, [])

end Parsers

/-! ## Bytes and positions -/

/-- Sums of positions and lengths do not wrap. -/
theorem toInt64_add (p n : ℕ) (h : p + n < 2 ^ 63) :
    toInt64 ((p : ℤ) + n) = ((p + n : ℕ) : ℤ) := by
  rw [toInt64_of_fits (by omega) (by omega), Nat.cast_add]

theorem shiftLeft_or {x : ℕ} {b : UInt8} (k : ℕ) :
    x <<< (8 + k) ||| b.toNat <<< k = (x * 256 + b.toNat) <<< k := by
  rw [Nat.shiftLeft_add, ← Nat.shiftLeft_or_distrib, ← Nat.shiftLeft_add_eq_or_of_lt b.toNat_lt,
    Nat.shiftLeft_eq x]

theorem shiftLeft_mod {b : UInt8} {k : ℕ} (hk : k ≤ 24) :
    b.toNat <<< k % 2 ^ 32 = b.toNat <<< k := by
  refine Nat.mod_eq_of_lt ?_
  calc b.toNat <<< k = b.toNat * 2 ^ k := Nat.shiftLeft_eq _ _
    _ < 2 ^ 8 * 2 ^ k := Nat.mul_lt_mul_of_pos_right b.toNat_lt (by positivity)
    _ = 2 ^ (8 + k) := (Nat.pow_add 2 8 k).symm
    _ ≤ 2 ^ 32 := Nat.pow_le_pow_right (by norm_num) (by omega)

/-- The shifted bytes are the digits of a number. -/
theorem toNat_u32 (b₀ b₁ b₂ b₃ : UInt8) :
    (b₀.toUInt32 <<< 24 ||| b₁.toUInt32 <<< 16 ||| b₂.toUInt32 <<< 8 ||| b₃.toUInt32).toNat =
      beNat [b₀, b₁, b₂, b₃] := by
  calc _ = b₀.toNat <<< 24 % 2 ^ 32 ||| b₁.toNat <<< 16 % 2 ^ 32 ||| b₂.toNat <<< 8 % 2 ^ 32 |||
        b₃.toNat := by simp
    _ = b₀.toNat <<< (8 + 16) ||| b₁.toNat <<< 16 ||| b₂.toNat <<< 8 ||| b₃.toNat <<< 0 := by
      rw [shiftLeft_mod (by norm_num), shiftLeft_mod (by norm_num), shiftLeft_mod (by norm_num),
        Nat.shiftLeft_zero]
    _ = ((b₀.toNat * 256 + b₁.toNat) * 256 + b₂.toNat) * 256 + b₃.toNat := by
      rw [shiftLeft_or, shiftLeft_or (x := b₀.toNat * 256 + b₁.toNat) 8, shiftLeft_or 0,
        Nat.shiftLeft_zero]
    _ = beNat [b₀, b₁, b₂, b₃] := by simp [beNat]

theorem take_append_drop_add (b : Bytes) (p n : ℕ) :
    (b.drop p).take n ++ b.drop (p + n) = b.drop p := by
  rw [← List.drop_drop, List.take_append_drop]

theorem two_bytes_lt (hi lo : UInt8) : hi.toNat <<< 8 ||| lo.toNat < 2 ^ 16 := by
  have hhi := hi.toNat_lt
  have hlo := lo.toNat_lt
  rw [← Nat.shiftLeft_add_eq_or_of_lt hlo, Nat.shiftLeft_eq]
  omega

theorem map_map {ε α β γ : Type} (x : Except ε α) (f : α → β) (g : β → γ) :
    (x.map f).map g = x.map fun a => g (f a) := by
  cases x <;> rfl

theorem drop_cons {b : Bytes} {p : ℕ} {x : UInt8} (h : b[p]? = some x) :
    b.drop p = x :: b.drop (p + 1) := by
  rw [List.drop_eq_getElem?_toList_append, h]
  rfl


section Bounds

variable {ε : Type} {P : ε → Prop} {b : Bytes} {p : ℕ}

/-- A byte within the length. -/
theorem ends_byte (k : ℕ) (hb : b.length < 2 ^ 32) (hp : p + k < b.length) :
    Ends (fun x => b[p + k]? = some x) P (index b (toInt64 ((p : ℤ) + k)) : Call ε UInt8) := by
  rw [toInt64_add _ _ (by omega)]
  exact ends_index (Int.natCast_nonneg _) (Int.ofNat_lt.mpr hp)

theorem ends_first (hp : p < b.length) :
    Ends (fun x => b[p]? = some x) P (index b p : Call ε UInt8) :=
  ends_index (Int.natCast_nonneg _) (Int.ofNat_lt.mpr hp)

/-- Four bytes within the length, as a number. -/
theorem ends_u32At (hb : b.length < 2 ^ 32) (hp : p + 4 ≤ b.length) :
    Ends (fun v => v.toNat = beNat ((b.drop p).take 4)) P (u32At b p : Call ε UInt32) := by
  unfold u32At
  refine (ends_first (by omega)).bind fun b₀ h₀ => (ends_byte 1 hb (by omega)).bind fun b₁ h₁ =>
    (ends_byte 2 hb (by omega)).bind fun b₂ h₂ => (ends_byte 3 hb (by omega)).bind fun b₃ h₃ =>
    ends_pure ?_
  rw [toNat_u32, drop_cons h₀, drop_cons h₁, drop_cons h₂, drop_cons h₃]
  rfl

/-- A piece within the length. -/
theorem ends_piece (n : ℕ) (hp : p + n ≤ b.length) :
    Ends (fun s => s = (b.drop p).take n) P (slice b p (p + n : ℕ) : Call ε Bytes) := by
  refine (ends_slice (by omega) (by omega) (Int.ofNat_le.mpr hp)).imp (fun s hs => ?_) fun _ => id
  rw [hs, Int.toNat_natCast, show (((p + n : ℕ) : ℤ) - p).toNat = n by omega]

end Bounds

/-! ## `decodeShardList` -/

/-- The list model where the loop stands at position `p`. -/
theorem decodeShardList_drop {blob : Bytes} {p : ℕ} {hi lo : UInt8} (h₀ : blob[p]? = some hi)
    (h₁ : blob[p + 1]? = some lo) : FileRelay.decodeShardList (blob.drop p) =
      if hi.toNat <<< 8 ||| lo.toNat ≤ 0 ∨
          blob.length < p + 2 + (hi.toNat <<< 8 ||| lo.toNat) then .error (.nanopack .shortBody)
      else (FileRelay.decodeShardList (blob.drop (p + 2 + (hi.toNat <<< 8 ||| lo.toNat)))).map
        fun out => (blob.drop (p + 2)).take (hi.toNat <<< 8 ||| lo.toNat) :: out := by
  have hlen : p + 1 < blob.length := (List.getElem?_eq_some_iff.mp h₁).1
  rw [drop_cons h₀, drop_cons h₁, FileRelay.decodeShardList, List.drop_drop, List.length_drop]
  generalize hi.toNat <<< 8 ||| lo.toNat = n
  exact if_congr (by omega) rfl rfl

theorem decodeShardList_short {blob : Bytes} {p : ℕ} (h : p < blob.length)
    (hshort : blob.length < p + 2) :
    FileRelay.decodeShardList (blob.drop p) = .error (.nanopack .shortBody) := by
  have hlen : (blob.drop p).length = 1 := by
    rw [List.length_drop]
    omega
  obtain ⟨x, hx⟩ := List.length_eq_one_iff.mp hlen
  rw [hx, FileRelay.decodeShardList]

/-- At its position the loop has cut off what the list model cuts off. -/
def ShardListAt (blob : Bytes) (st : ℤ × List Bytes) : Prop :=
  ∃ p : ℕ, st.1 = p ∧ p ≤ blob.length ∧ FileRelay.decodeShardList blob =
    (FileRelay.decodeShardList (blob.drop p)).map fun out => st.2 ++ out

theorem shardListTurn_ends {blob : Bytes} (hb : blob.length < 2 ^ 32) (st : ℤ × List Bytes)
    (h : ShardListAt blob st) :
    Ends (Turn.Meets (fun st' => ShardListAt blob st' ∧
        blob.length - st'.1.toNat < blob.length - st.1.toNat)
        fun out => FileRelay.decodeShardList blob = .ok out)
      (fun e => FileRelay.decodeShardList blob = .error e) (shardListTurn blob st.1 st.2) := by
  obtain ⟨pos, out⟩ := st
  obtain ⟨p, rfl, hp, hinv⟩ := h
  dsimp only at hinv ⊢
  unfold shardListTurn
  refine ends_ite (fun hlt => ?_) fun hge => ?_
  · replace hlt : p < blob.length := Int.ofNat_lt.mp hlt
    have htwo : toInt64 ((p : ℤ) + 2) = ((p + 2 : ℕ) : ℤ) := toInt64_add p 2 (by omega)
    rw [htwo]
    refine ends_ite (fun hshort => ends_raise ?_) fun hlong => ?_
    · rw [hinv, decodeShardList_short hlt (by omega)]
      rfl
    refine (ends_first hlt).bind fun hi h₀ => (ends_byte 1 hb (by omega)).bind fun lo h₁ => ?_
    have hn := two_bytes_lt hi lo
    rw [decodeShardList_drop h₀ h₁] at hinv
    generalize hi.toNat <<< 8 ||| lo.toNat = n at hinv hn ⊢
    dsimp only
    rw [toInt64_add (p + 2) n (by omega)]
    refine ends_ite (fun hbad => ends_raise ?_) fun hfits => ?_
    · rw [hinv, if_pos (by omega)]
      rfl
    rw [if_neg (by omega), map_map] at hinv
    refine (ends_piece n (by omega)).bind fun s hs => ends_pure ⟨⟨p + 2 + n, rfl, by omega, ?_⟩, ?_⟩
    · simpa only [hs, List.append_assoc, List.singleton_append] using hinv
    · dsimp only [Int.toNat_natCast]
      omega
  · have hend : p = blob.length := by omega
    rw [hend, List.drop_length, FileRelay.decodeShardList] at hinv
    exact ends_pure (hinv.trans (congrArg Except.ok (List.append_nil out)))

/-- `decodeShardList` ends as its list model does. -/
theorem decodeShardList_ends {blob : Bytes} {fuel : ℕ} (hb : blob.length < 2 ^ 32)
    (hfuel : blob.length < fuel) :
    Ends (fun out => FileRelay.decodeShardList blob = .ok out)
      (fun e => FileRelay.decodeShardList blob = .error e) (decodeShardList fuel blob) := by
  have hstart : ShardListAt blob (0, []) :=
    ⟨0, rfl, Nat.zero_le _, by rw [List.drop_zero]; cases FileRelay.decodeShardList blob <;> rfl⟩
  exact ends_loop (ShardListAt blob) (fun st => blob.length - st.1.toNat)
    (shardListTurn_ends hb) hstart (by simpa using hfuel)

/-! ## The messages of a batch -/

section Batch

variable {count : UInt32} {ids payloads : Bytes}

theorem payloadLoop_succ {k i p : ℕ} (hlen : p + 4 ≤ payloads.length) :
    payloadLoop ids payloads (k + 1) i p =
      if beNat ((payloads.drop p).take 4) = 0 ∨
          maxMessageBytes < beNat ((payloads.drop p).take 4) ∨
          payloads.length < p + 4 + beNat ((payloads.drop p).take 4) then
        .error (.protocol ⟨.messageTooLarge, "envelope out of bounds", 0⟩)
      else (payloadLoop ids payloads k (i + 1) (p + 4 + beNat ((payloads.drop p).take 4))).map
        fun r => (⟨(ids.drop (i * 16)).take 16,
          (payloads.drop (p + 4)).take (beNat ((payloads.drop p).take 4))⟩ :: r.1, r.2) := by
  rw [payloadLoop, if_neg (by omega)]

/-- At its message the loop has cut off what the list model cuts off. -/
def BatchAt (count : UInt32) (ids payloads : Bytes) (st : BatchState) : Prop :=
  ∃ p : ℕ, st.pos = p ∧ p ≤ payloads.length ∧ st.i.toNat ≤ count.toNat ∧
    payloadLoop ids payloads count.toNat 0 0 =
      (payloadLoop ids payloads (count.toNat - st.i.toNat) st.i.toNat p).map
        fun r => (st.msgs ++ r.1, r.2)

/-- The slice of the ids stays within 32-bit arithmetic. -/
theorem toNat_mul_sixteen {i : UInt32} (h : i.toNat ≤ 32) : (i * 16).toNat = i.toNat * 16 := by
  rw [UInt32.toNat_mul]
  exact Nat.mod_eq_of_lt (by change i.toNat * 16 < 2 ^ 32; omega)

theorem toNat_succ {i : UInt32} (h : i < count) : (i + 1).toNat = i.toNat + 1 := by
  have hlt := UInt32.lt_iff_toNat_lt.mp h
  have hcount := count.toNat_lt
  rw [UInt32.toNat_add]
  exact Nat.mod_eq_of_lt (by change i.toNat + 1 < 2 ^ 32; omega)

/-- The id of message `i`. -/
theorem ends_msgID {P : WireError → Prop} {i : UInt32} (hlt : i < count)
    (hcount : count.toNat ≤ maxBatchMessages) (hids : ids.length = 16 * count.toNat) :
    Ends (fun s => s = (ids.drop (i.toNat * 16)).take 16) P
      (slice ids (i * 16).toNat ((i + 1) * 16).toNat : Call WireError Bytes) := by
  have hlast := toNat_succ hlt
  have hcap : maxBatchMessages = 32 := rfl
  replace hlt := UInt32.lt_iff_toNat_lt.mp hlt
  rw [toNat_mul_sixteen (by omega), toNat_mul_sixteen (by omega), hlast, Nat.succ_mul]
  exact ends_piece 16 (by omega)

theorem batchTurn_ends (hp : payloads.length < 2 ^ 32) (hcount : count.toNat ≤ maxBatchMessages)
    (hids : ids.length = 16 * count.toNat) (st : BatchState)
    (h : BatchAt count ids payloads st) :
    Ends (Turn.Meets (fun st' => BatchAt count ids payloads st' ∧
        count.toNat - st'.i.toNat < count.toNat - st.i.toNat)
        fun r : ℤ × List ReceivedMessage =>
          ∃ p : ℕ, r.1 = p ∧ payloadLoop ids payloads count.toNat 0 0 = .ok (r.2, p))
      (fun e => payloadLoop ids payloads count.toNat 0 0 = .error e)
      (batchTurn count ids payloads st.i st.pos st.msgs) := by
  obtain ⟨i, pos, msgs⟩ := st
  obtain ⟨p, rfl, hle, hi, hinv⟩ := h
  dsimp only at hi hinv ⊢
  unfold batchTurn
  refine ends_ite (fun hlt => ?_) fun hge => ?_
  · have hsucc := toNat_succ hlt
    have hnat := UInt32.lt_iff_toNat_lt.mp hlt
    obtain ⟨k, hk⟩ : ∃ k, count.toNat - i.toNat = k + 1 := ⟨count.toNat - i.toNat - 1, by omega⟩
    have hfour : toInt64 ((p : ℤ) + 4) = ((p + 4 : ℕ) : ℤ) := toInt64_add p 4 (by omega)
    rw [hk] at hinv
    rw [hfour]
    refine ends_ite (fun hshort => ends_raise ?_) fun hlong => ?_
    · rw [hinv, payloadLoop, if_pos (by omega)]
      rfl
    refine (ends_u32At hp (by omega)).bind fun v hv => ?_
    rw [payloadLoop_succ (by omega), ← hv] at hinv
    have hn := v.toNat_lt
    generalize v.toNat = n at hinv hn ⊢
    dsimp only
    rw [toInt64_add (p + 4) n (by omega)]
    refine ends_ite (fun hbad => ends_raise ?_) fun hfits => ?_
    · rw [hinv, if_pos (by omega)]
      rfl
    rw [if_neg (by omega), map_map] at hinv
    refine (ends_msgID hlt hcount hids).bind fun msgID hid =>
      (ends_piece n (by omega)).bind fun envelope henv =>
      ends_pure ⟨⟨p + 4 + n, rfl, by omega, ?_, ?_⟩, ?_⟩
    · dsimp only
      omega
    · rw [hsucc, show count.toNat - (i.toNat + 1) = k by omega, hid, henv]
      simpa only [List.append_assoc, List.singleton_append] using hinv
    · dsimp only
      omega
  · have hend : count.toNat - i.toNat = 0 := by
      have := mt UInt32.lt_iff_toNat_lt.mpr hge
      omega
    rw [hend, payloadLoop] at hinv
    refine ends_pure ⟨p, rfl, hinv.trans ?_⟩
    exact congrArg (fun ms => Except.ok (ms, p)) (List.append_nil msgs)

/-- `UnmarshalReceiveMessagesResponse` ends as its list model does. -/
theorem splitBatch_ends {fuel : ℕ} (hi : ids.length < 2 ^ 32) (hp : payloads.length < 2 ^ 32)
    (hfuel : count.toNat < fuel) (consumed : Bool) :
    Ends (fun msgs => BatchFields.split ⟨count, ids, payloads, consumed⟩ = .ok msgs)
      (fun e => BatchFields.split ⟨count, ids, payloads, consumed⟩ = .error e)
      (splitBatch fuel count ids payloads) := by
  unfold splitBatch BatchFields.split rejectIf
  refine ends_ite (fun hmany => ends_raise ?_) fun hfew => ?_
  · rw [if_pos hmany]
    rfl
  rw [if_neg hfew]
  refine ends_ite (fun hne => ends_raise ?_) fun heq => ?_
  · rw [if_pos hne]
    rfl
  rw [if_neg heq]
  have hcount : count.toNat ≤ maxBatchMessages := not_lt.mp hfew
  have hids := (ids_length_iff hi hcount).mp (not_not.mp heq)
  have hstart : BatchAt count ids payloads ⟨0, 0, []⟩ := by
    refine ⟨0, rfl, Nat.zero_le _, Nat.zero_le _, ?_⟩
    change _ = (payloadLoop ids payloads count.toNat 0 0).map fun r => ([] ++ r.1, r.2)
    cases payloadLoop ids payloads count.toNat 0 0 <;> rfl
  have hloop := ends_loop (BatchAt count ids payloads) (fun st => count.toNat - st.i.toNat)
    (batchTurn_ends hp hcount hids) hstart (show count.toNat - 0 < fuel by omega)
  refine (hloop.imp (fun _ => id) fun e he => ?_).bind ?_
  · change (payloadLoop ids payloads count.toNat 0 0 >>= _) = _
    rw [he]
    rfl
  · rintro ⟨pos, msgs⟩ ⟨p, rfl, hr⟩
    change Ends (fun _ => (payloadLoop ids payloads count.toNat 0 0 >>= _) = _)
      (fun _ => (payloadLoop ids payloads count.toNat 0 0 >>= _) = _) _
    rw [hr]
    refine ends_ite (fun hne => ends_raise ?_) fun heq => ends_pure ?_
    · have hpos : p ≠ payloads.length := mt (congrArg Nat.cast) hne
      rw [ok_bind, if_pos hpos]
      rfl
    · have hpos : p = payloads.length := Int.ofNat_inj.mp (not_not.mp heq)
      rw [ok_bind, if_neg (not_not.mpr hpos)]
      rfl

end Batch

/-! ## The ids of an ack -/

section IDs

variable {flat : Bytes}

/-- At its position the loop has cut off what the list model cuts off. -/
def IDsAt (flat : Bytes) (st : ℤ × List Bytes) : Prop :=
  ∃ k : ℕ, st.1 = (16 * k : ℕ) ∧ 16 * k ≤ flat.length ∧ idLoop flat (flat.length / 16) 0 =
    st.2 ++ idLoop flat (flat.length / 16 - k) (16 * k)

theorem idTurn_ends {P : WireError → Prop} (hb : flat.length < 2 ^ 32)
    (hwhole : flat.length % 16 = 0) (st : ℤ × List Bytes) (h : IDsAt flat st) :
    Ends (Turn.Meets (fun st' => IDsAt flat st' ∧
        flat.length - st'.1.toNat < flat.length - st.1.toNat)
        fun out => idLoop flat (flat.length / 16) 0 = out)
      P (idTurn flat st.1 st.2) := by
  obtain ⟨i, out⟩ := st
  obtain ⟨k, rfl, hk, hinv⟩ := h
  dsimp only at hinv ⊢
  unfold idTurn
  refine ends_ite (fun hlt => ?_) fun hge => ?_
  · replace hlt : 16 * k < flat.length := Int.ofNat_lt.mp hlt
    have hnext : toInt64 (((16 * k : ℕ) : ℤ) + 16) = ((16 * k + 16 : ℕ) : ℤ) :=
      toInt64_add (16 * k) 16 (by omega)
    obtain ⟨n, hn⟩ : ∃ n, flat.length / 16 - k = n + 1 := ⟨flat.length / 16 - k - 1, by omega⟩
    rw [hn, idLoop] at hinv
    rw [hnext]
    refine (ends_piece 16 (by omega)).bind fun id hid =>
      ends_pure ⟨⟨k + 1, rfl, by omega, ?_⟩, ?_⟩
    · rw [show flat.length / 16 - (k + 1) = n by omega, hid, List.append_assoc]
      exact hinv
    · dsimp only [Int.toNat_natCast]
      omega
  · have hend : flat.length / 16 - k = 0 := by omega
    rw [hend, idLoop, List.append_nil] at hinv
    exact ends_pure hinv

theorem length_of_mem_idLoop : ∀ {n i : ℕ}, flat.length = i + 16 * n →
    ∀ id ∈ idLoop flat n i, id.length = 16
  | 0, _, _ => nofun
  | n + 1, i, h => by
    intro id hid
    rcases List.mem_cons.mp hid with rfl | hid
    · rw [List.length_take, List.length_drop]
      omega
    · exact length_of_mem_idLoop (by omega) id hid

/-- The ids put together again. -/
theorem flatten_idLoop : ∀ {n i : ℕ}, flat.length = i + 16 * n →
    (idLoop flat n i).flatten = flat.drop i
  | 0, i, h => by
    rw [idLoop, List.flatten_nil, List.drop_of_length_le (by omega)]
  | n + 1, i, h => by
    rw [idLoop, List.flatten_cons, flatten_idLoop (by omega), take_append_drop_add]

/-- The ids of `UnmarshalMessageAck` end as its list model does. -/
theorem splitIDs_ends {fuel : ℕ} (hb : flat.length < 2 ^ 32) (hfuel : flat.length < fuel) :
    Ends (fun out => flat.length % 16 = 0 ∧ idLoop flat (flat.length / 16) 0 = out)
      (fun e => rejectIf (flat.length % 16 ≠ 0) .invalidRequest "msg_ids must be n*16 bytes" =
        .error e)
      (splitIDs fuel flat) := by
  unfold splitIDs
  refine ends_ite (fun hpart => ends_raise (if_pos hpart)) fun hwhole => ?_
  replace hwhole := not_not.mp hwhole
  have hstart : IDsAt flat (0, []) := ⟨0, rfl, Nat.zero_le _, rfl⟩
  exact (ends_loop (IDsAt flat) (fun st => flat.length - st.1.toNat) (idTurn_ends hb hwhole) hstart
    hfuel).imp (fun out hout => ⟨hwhole, hout⟩) fun _ => id

end IDs

/-! ## `DecodeRanges` -/

section Ranges

variable {blob : Bytes}

theorem decodePairs_drop {p : ℕ} {s c : UInt32} (hp : p + 8 ≤ blob.length)
    (hs : s.toNat = beNat ((blob.drop p).take 4))
    (hc : c.toNat = beNat ((blob.drop (p + 4)).take 4)) :
    decodePairs (blob.drop p) = (s, c) :: decodePairs (blob.drop (p + 8)) := by
  have hcut : blob.drop p =
      (blob.drop p).take 4 ++ (blob.drop (p + 4)).take 4 ++ blob.drop (p + 8) := by
    rw [List.append_assoc, take_append_drop_add blob (p + 4) 4, take_append_drop_add]
  rw [hcut, decodePairs_append, ← hs, ← hc, UInt32.ofNat_toNat, UInt32.ofNat_toNat]
  · rw [List.length_take, List.length_drop]
    omega
  · rw [List.length_take, List.length_drop]
    omega

/-- At its position the loop has cut off what the list model cuts off. -/
def RangesAt (blob : Bytes) (st : ℤ × List (UInt32 × UInt32)) : Prop :=
  ∃ k : ℕ, st.1 = (8 * k : ℕ) ∧ 8 * k ≤ blob.length ∧
    decodePairs blob = st.2 ++ decodePairs (blob.drop (8 * k))

theorem rangeTurn_ends {P : ProtocolError → Prop} (hb : blob.length < 2 ^ 32)
    (hwhole : blob.length % 8 = 0) (st : ℤ × List (UInt32 × UInt32)) (h : RangesAt blob st) :
    Ends (Turn.Meets (fun st' => RangesAt blob st' ∧
        blob.length - st'.1.toNat < blob.length - st.1.toNat)
        fun out => decodePairs blob = out)
      P (rangeTurn blob st.1 st.2) := by
  obtain ⟨i, out⟩ := st
  obtain ⟨k, rfl, hk, hinv⟩ := h
  dsimp only at hinv ⊢
  unfold rangeTurn
  refine ends_ite (fun hlt => ?_) fun hge => ?_
  · replace hlt : 8 * k < blob.length := Int.ofNat_lt.mp hlt
    have hfour : toInt64 (((8 * k : ℕ) : ℤ) + 4) = ((8 * k + 4 : ℕ) : ℤ) :=
      toInt64_add (8 * k) 4 (by omega)
    have hnext : toInt64 (((8 * k : ℕ) : ℤ) + 8) = ((8 * k + 8 : ℕ) : ℤ) :=
      toInt64_add (8 * k) 8 (by omega)
    rw [hfour, hnext]
    refine (ends_u32At hb (by omega)).bind fun s hs => (ends_u32At hb (by omega)).bind fun c hc =>
      ends_pure ⟨⟨k + 1, rfl, by omega, ?_⟩, ?_⟩
    · rw [hinv, decodePairs_drop (by omega) hs hc, List.append_assoc]
      rfl
    · dsimp only [Int.toNat_natCast]
      omega
  · have hend : 8 * k = blob.length := by omega
    rw [hend, List.drop_length] at hinv
    exact ends_pure (hinv.trans (List.append_nil out))

/-- `DecodeRanges` ends as its list model does. -/
theorem decodeRanges_ends {fuel : ℕ} (hb : blob.length < 2 ^ 32) (hfuel : blob.length < fuel) :
    Ends (fun out => FileRelay.decodeRanges blob = .ok out)
      (fun e => FileRelay.decodeRanges blob = .error e) (decodeRanges fuel blob) := by
  unfold decodeRanges FileRelay.decodeRanges
  refine ends_ite (fun hpart => ends_raise (if_pos hpart)) fun hwhole => ?_
  have hstart : RangesAt blob (0, []) := ⟨0, rfl, Nat.zero_le _, rfl⟩
  rw [if_neg hwhole]
  exact (ends_loop (RangesAt blob) (fun st => blob.length - st.1.toNat)
    (rangeTurn_ends hb (not_not.mp hwhole)) hstart hfuel).imp
    (fun out hout => congrArg Except.ok hout) fun _ => id

theorem decodeRanges_eq_ok {ranges : List (UInt32 × UInt32)}
    (h : FileRelay.decodeRanges blob = .ok ranges) :
    blob.length % 8 = 0 ∧ decodePairs blob = ranges := by
  unfold FileRelay.decodeRanges at h
  split_ifs at h with hpart
  exact ⟨not_not.mp hpart, Except.ok.inj h⟩

theorem putU32_ofNat_beNat {b : Bytes} (h : b.length = 4) :
    putU32 (UInt32.ofNat (beNat b)) = b := by
  have hlt : beNat b < 2 ^ 32 := by
    have hlt := beNat_lt b
    rwa [h] at hlt
  unfold putU32
  rw [UInt32.toNat_ofNat_of_lt' hlt, ← h, beBytes_beNat]

/-- The pairs put together again. -/
theorem encodeRanges_decodePairs : ∀ {n : ℕ} {blob : Bytes}, blob.length = 8 * n →
    encodeRanges ((decodePairs blob).map fun r => (r.1.toNat, r.2.toNat)) = blob
  | 0, blob, h => by
    rw [List.length_eq_zero_iff.mp h]
    rfl
  | n + 1, blob, h => by
    have hlen : ∀ p, p + 4 ≤ blob.length → ((blob.drop p).take 4).length = 4 := by
      intro p hp
      rw [List.length_take, List.length_drop]
      omega
    have ih := @encodeRanges_decodePairs n (blob.drop 8) (by rw [List.length_drop]; omega)
    have hcut : (blob.drop 0).take 4 ++ (blob.drop 4).take 4 ++ blob.drop 8 = blob := by
      rw [List.append_assoc, take_append_drop_add blob 4 4, take_append_drop_add, List.drop_zero]
    have hpairs := decodePairs_append (blob.drop 8) (hlen 0 (by omega)) (hlen 4 (by omega))
    rw [hcut] at hpairs
    unfold encodeRanges at ih ⊢
    rw [hpairs, List.map_cons, List.flatMap_cons, ih, UInt32.ofNat_toNat, UInt32.ofNat_toNat,
      putU32_ofNat_beNat (hlen 0 (by omega)), putU32_ofNat_beNat (hlen 4 (by omega)), hcut]

end Ranges

end Indexed

/-- Every parser ends on every input, never indexes or slices out of range, returns an error or
the pieces its list model returns, and these put together again are the input. -/
theorem sub_parsers_safe :
    (∀ (blob : Bytes) (fuel : ℕ), blob.length < 2 ^ 32 → blob.length < fuel →
      Ends (fun shards => decodeShardList blob = .ok shards ∧ encodeShardList shards = blob)
        (fun e => decodeShardList blob = .error e) (Indexed.decodeShardList fuel blob)) ∧
    (∀ (count : UInt32) (ids payloads : Bytes) (consumed : Bool) (fuel : ℕ),
      ids.length < 2 ^ 32 → payloads.length < 2 ^ 32 → count.toNat < fuel →
      Ends (fun msgs => BatchFields.split ⟨count, ids, payloads, consumed⟩ = .ok msgs ∧
          count.toNat = msgs.length ∧ batchIDs msgs = ids ∧ batchPayloads msgs = payloads)
        (fun e => BatchFields.split ⟨count, ids, payloads, consumed⟩ = .error e)
        (Indexed.splitBatch fuel count ids payloads)) ∧
    (∀ (flat : Bytes) (fuel : ℕ), flat.length < 2 ^ 32 → flat.length < fuel →
      Ends (fun ids => idLoop flat (flat.length / 16) 0 = ids ∧ (∀ id ∈ ids, id.length = 16) ∧
          ids.flatten = flat)
        (fun e => rejectIf (flat.length % 16 ≠ 0) .invalidRequest "msg_ids must be n*16 bytes" =
          .error e)
        (Indexed.splitIDs fuel flat)) ∧
    ∀ (blob : Bytes) (fuel : ℕ), blob.length < 2 ^ 32 → blob.length < fuel →
      Ends (fun ranges => decodeRanges blob = .ok ranges ∧
          encodeRanges (ranges.map fun r => (r.1.toNat, r.2.toNat)) = blob)
        (fun e => decodeRanges blob = .error e) (Indexed.decodeRanges fuel blob) := by
  refine ⟨fun blob fuel hb hfuel => ?_, fun count ids payloads consumed fuel hi hp hfuel => ?_,
    fun flat fuel hb hfuel => ?_, fun blob fuel hb hfuel => ?_⟩
  · exact (Indexed.decodeShardList_ends hb hfuel).imp
      (fun shards h => ⟨h, (encodeShardList_of_decode blob h).1⟩) fun _ => id
  · refine (Indexed.splitBatch_ends hi hp hfuel consumed).imp (fun msgs h => ?_) fun _ => id
    obtain ⟨-, hcount, hids, hpayloads⟩ := (split_eq_ok hi).mp h
    exact ⟨h, hcount, hids.symm, hpayloads.symm⟩
  · refine (Indexed.splitIDs_ends hb hfuel).imp (fun ids h => ?_) fun _ => id
    obtain ⟨hwhole, rfl⟩ := h
    have hlen : flat.length = 0 + 16 * (flat.length / 16) := by omega
    refine ⟨rfl, Indexed.length_of_mem_idLoop hlen, ?_⟩
    rw [Indexed.flatten_idLoop hlen, List.drop_zero]
  · refine (Indexed.decodeRanges_ends hb hfuel).imp (fun ranges h => ⟨h, ?_⟩) fun _ => id
    obtain ⟨hwhole, rfl⟩ := Indexed.decodeRanges_eq_ok h
    exact Indexed.encodeRanges_decodePairs (n := blob.length / 8) (by omega)

/-- Two URLs behind their lengths. -/
theorem two_shards_parsed :
    (Indexed.decodeShardList 8 [0, 1, 65, 0, 2, 66, 67]).run = some (.ok [[65], [66, 67]]) ∧
    Ends (fun shards => decodeShardList [0, 1, 65, 0, 2, 66, 67] = .ok shards ∧
        encodeShardList shards = [0, 1, 65, 0, 2, 66, 67])
      (fun e => decodeShardList [0, 1, 65, 0, 2, 66, 67] = .error e)
      (Indexed.decodeShardList 8 [0, 1, 65, 0, 2, 66, 67]) :=
  ⟨by decide +kernel, sub_parsers_safe.1 _ _ (by decide) (by decide)⟩

end FileRelay
