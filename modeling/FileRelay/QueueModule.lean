import FileRelay.Machine
import FileRelay.Prefixed
import FileRelay.Wasm

/-!
# The browser queue module

The functions of the module that `buildQueueModule` of `transports/tools/wasmasm.mjs` assembles,
instruction by instruction, and the calls a host makes on it, after `verifyWasm` of
`transports/tools/verify-wasm.mjs`. Frames are handed over in a heap from `0x1000` to `0x3f00`
whose allocator starts again at the bottom when it reaches the top. The queue lies from `0x4000`
to `0x8000`, and what is polled from `0x8000` on.

The allocator never refuses. A frame is followed by the 32 bytes of its recipient, and if these
are put at the bottom of the heap while the frame begins there, they overwrite it. So the module
delivers frames intact exactly as long as none is longer than 11984 bytes
(`queue_module_intact_iff`).
-/

namespace FileRelay

open Wasm (Func Instance Memory Val)

/-! ## The functions -/

def ntxInit : Func where
  nlocals := 0
  body := [.i32c 0]

def ntxStart : Func where
  nlocals := 0
  body := [.i32c 1, .gset 0, .i32c 0]

def ntxAlloc : Func where
  nlocals := 1
  body :=
    [.gget 2, .set 1,
      .get 1, .get 0, .add, .i32c 0x3f00, .gtu, .ifv [.i32c 0x1000, .set 1],
      .get 1, .get 0, .add, .i32c 7, .add, .i32c (2 ^ 32 - 8), .and, .gset 2,
      .get 1]

/-- Parameters are the frame and the recipient, each with its length. The last local is where
the entry goes. -/
def ntxSend : Func where
  nlocals := 1
  body :=
    [.gget 0, .eqz, .ifv [.i32c 1, .ret],
      .gget 1, .get 1, .add, .i32c 4, .add, .i32c 0x4000, .gtu, .ifv [.i32c 3, .ret],
      .i32c 0x4000, .gget 1, .add, .set 4,
      .get 4, .get 1, .i32c 24, .shru, .store8 0,
      .get 4, .get 1, .i32c 16, .shru, .store8 1,
      .get 4, .get 1, .i32c 8, .shru, .store8 2,
      .get 4, .get 1, .store8 3,
      .get 4, .i32c 4, .add, .get 0, .get 1, .memcopy,
      .gget 1, .get 1, .add, .i32c 4, .add, .gset 1,
      .i32c 0]

def ntxPoll : Func where
  nlocals := 0
  body :=
    [.i32c 0x8000, .i32c 0x4000, .gget 1, .memcopy,
      .i32c 0x8000, .ext, .i64c 32, .shl64, .gget 1, .ext, .or64,
      .i32c 0, .gset 1]

/-- `buildQueueModule`, as a fresh instance : two pages of memory with the capabilities at
`0x100`, and the globals `running`, `qlen` and `bump`. -/
def buildQueueModule (caps : Bytes) : Option Instance :=
  if 32 < caps.length then none
  else some ⟨(⟨2 * 65536, fun _ => 0⟩ : Memory).write 0x100 caps, [0, 0, 0x1000]⟩

/-- `message`, the default of `capsCsv`. -/
def defaultCaps : Bytes :=
  [0x6d, 0x65, 0x73, 0x73, 0x61, 0x67, 0x65]

/-! ## The host -/

/-- `put` : allocate and write. Writing past the end of the memory throws. -/
def put (σ : Instance) (d : Bytes) : Option (ℕ × Instance) :=
  match ntxAlloc.call σ [d.length] with
  | some (.i32 p, σ) =>
    if p + d.length ≤ σ.mem.size then some (p, { σ with mem := σ.mem.write p d }) else none
  | _ => none

/-- `blob` : the bytes a packed pointer and length name, up to the end of the memory. -/
def blob (σ : Instance) (packed : ℕ) : Bytes :=
  let p := packed >>> 32
  let l := packed &&& (2 ^ 32 - 1)
  σ.mem.read p (min l (σ.mem.size - p))

/-- The calls of a host between start and stop : send a frame to a recipient, poll after
writing a mailbox id, poll again with a pointer of before. -/
inductive HostCall
  | send (frame recipient : Bytes)
  | poll (max : ℕ) (mailbox : Bytes)
  | pollAgain (max pointer : ℕ)

inductive HostAnswer
  | sent (code : ℕ)
  | polled (blob : Bytes)

def sendCall (σ : Instance) (frame recipient : Bytes) : Option (Instance × HostAnswer) := do
  let (fp, σ) ← put σ frame
  let (rp, σ) ← put σ recipient
  match ← ntxSend.call σ [fp, frame.length, rp, recipient.length] with
  | (.i32 code, σ) => some (σ, .sent code)
  | _ => none

def pollCall (σ : Instance) (max pointer : ℕ) : Option (Instance × HostAnswer) := do
  match ← ntxPoll.call σ [max, pointer, 1] with
  | (.i64 packed, σ) => some (σ, .polled (blob σ packed))
  | _ => none

/-- One call of the host. -/
def hostCall (σ : Instance) : HostCall → Option (Instance × HostAnswer)
  | .send frame recipient => sendCall σ frame recipient
  | .poll max mailbox => do
    let (pointer, σ) ← put σ mailbox
    pollCall σ max pointer
  | .pollAgain max pointer => pollCall σ max pointer

/-- The host as a machine. A call that traps has no answer. -/
def host : Machine Instance HostCall (Option HostAnswer) where
  step σ c :=
    match hostCall σ c with
    | some (σ, a) => (σ, some a)
    | none => (σ, none)

/-- The instance after `ntx_init` and `ntx_start`. -/
def startModule (caps : Bytes) : Option Instance := do
  let σ ← buildQueueModule caps
  let (p, σ) ← put σ []
  let (_, σ) ← ntxInit.call σ [p, 0]
  let (_, σ) ← ntxStart.call σ []
  some σ

/-! ## Intact delivery -/

/-- What a call has to answer when the frames `q` wait, and what waits afterwards. -/
inductive QueueStep : List Bytes → HostCall → Option HostAnswer → List Bytes → Prop
  | accepted (q : List Bytes) (frame recipient : Bytes) :
    QueueStep q (.send frame recipient) (some (.sent 0)) (q ++ [frame])
  | refused (q : List Bytes) (frame recipient : Bytes) :
    QueueStep q (.send frame recipient) (some (.sent 3)) q
  | polled (q : List Bytes) (max : ℕ) (mailbox : Bytes) :
    QueueStep q (.poll max mailbox) (some (.polled (Prefixed.encode 4 q))) []
  | polledAgain (q : List Bytes) (max pointer : ℕ) :
    QueueStep q (.pollAgain max pointer) (some (.polled (Prefixed.encode 4 q))) []

/-- Every answer of the trace is that of a queue that holds `q` at the start. -/
def Intact : List Bytes → List (HostCall × Option HostAnswer) → Prop
  | _, [] => True
  | q, (c, a) :: trace => ∃ q', QueueStep q c a q' ∧ Intact q' trace

/-- The sizes a host uses, with frames of at most `m` bytes. -/
def HostCall.Within (m : ℕ) : HostCall → Prop
  | .send frame recipient => (1 ≤ frame.length ∧ frame.length ≤ m) ∧ recipient.length = 32
  | .poll _ mailbox => mailbox.length = 16
  | .pollAgain _ _ => True

/-! ## What the functions compute -/

/-- Where the allocator puts `n` bytes. -/
def allocAt (bump n : ℕ) : ℕ :=
  if 0x3f00 < bump + n then 0x1000 else bump

/-- The next multiple of 8. -/
def roundUp (n : ℕ) : ℕ :=
  (n + 7) / 8 * 8

theorem ntxAlloc_call {m : Memory} {r l b n : ℕ} (hb : b ≤ 0x3f00) (hn : n ≤ 0x3f00) :
    ntxAlloc.call ⟨m, [r, l, b]⟩ [n] =
      some (.i32 (allocAt b n), ⟨m, [r, l, roundUp (allocAt b n + n)]⟩) := by
  have hand : ∀ x, x ≤ 65536 → x &&& 4294967288 = x / 8 * 8 := fun x hx =>
    Wasm.land_neg_eight (by omega)
  have hmod : ∀ x, x ≤ 65536 → x % 4294967296 = x := fun x hx => Nat.mod_eq_of_lt (by omega)
  unfold allocAt roundUp
  by_cases hwrap : 0x3f00 < b + n
  · simp [Func.call, ntxAlloc, Wasm.run, Wasm.Instr.exec, Wasm.Instr.step, hwrap,
      hmod (b + n) (by omega), hmod (4096 + n + 7) (by omega), hand (4096 + n + 7) (by omega)]
  · simp [Func.call, ntxAlloc, Wasm.run, Wasm.Instr.exec, Wasm.Instr.step, hwrap,
      hmod (b + n) (by omega), hmod (b + n + 7) (by omega), hand (b + n + 7) (by omega)]

theorem put_eq {m : Memory} {r l b : ℕ} {d : Bytes} (hm : m.size = 131072) (hb : b ≤ 0x3f00)
    (hd : d.length ≤ 0x2f00) : put ⟨m, [r, l, b]⟩ d =
      some (allocAt b d.length,
        ⟨m.write (allocAt b d.length) d, [r, l, roundUp (allocAt b d.length + d.length)]⟩) := by
  have hfit : allocAt b d.length + d.length ≤ m.size := by
    unfold allocAt
    split_ifs <;> omega
  unfold put
  rw [ntxAlloc_call hb (by omega)]
  exact if_pos hfit

/-- A frame that does not fit is refused and nothing is written. -/
theorem ntxSend_full {m : Memory} {l b fp n rp rl : ℕ} (hl : l ≤ 0x4000) (hn : n ≤ 0x3f00)
    (hfull : 0x4000 < l + n + 4) : ntxSend.call ⟨m, [1, l, b]⟩ [fp, n, rp, rl] =
      some (.i32 3, ⟨m, [1, l, b]⟩) := by
  have hmod : ∀ x, x ≤ 65536 → x % 4294967296 = x := fun x hx => Nat.mod_eq_of_lt (by omega)
  simp [Func.call, ntxSend, Wasm.run, Wasm.Instr.exec, Wasm.Instr.step, hfull,
    hmod (l + n + 4) (by omega)]

/-- The memory after the entry has been written at `p`. -/
def writeEntry (m : Memory) (p fp n : ℕ) : Memory :=
  let m := m.write p [UInt8.ofNat (n >>> 24)]
  let m := m.write (p + 1) [UInt8.ofNat (n >>> 16)]
  let m := m.write (p + 2) [UInt8.ofNat (n >>> 8)]
  let m := m.write (p + 3) [UInt8.ofNat n]
  m.write (p + 4) (m.read fp n)

theorem ntxSend_room {m : Memory} {l b fp n rp rl : ℕ} (hm : m.size = 131072)
    (hfp : fp + n ≤ 0x4000) (hroom : l + n + 4 ≤ 0x4000) :
    ntxSend.call ⟨m, [1, l, b]⟩ [fp, n, rp, rl] =
      some (.i32 0, ⟨writeEntry m (0x4000 + l) fp n, [1, l + n + 4, b]⟩) := by
  have hmod : ∀ x, x ≤ 65536 → x % 4294967296 = x := fun x hx => Nat.mod_eq_of_lt (by omega)
  have hnot : ¬0x4000 < l + n + 4 := by omega
  have h₀ : 0x4000 + l < 131072 := by omega
  have h₁ : 0x4000 + l + 1 < 131072 := by omega
  have h₂ : 0x4000 + l + 2 < 131072 := by omega
  have h₃ : 0x4000 + l + 3 < 131072 := by omega
  have h₄ : fp + n ≤ 131072 ∧ 0x4000 + l + 4 + n ≤ 131072 := by omega
  simp [Func.call, ntxSend, Wasm.run, Wasm.Instr.exec, Wasm.Instr.step, hnot, hm, writeEntry,
    hmod (l + n + 4) (by omega), hmod (0x4000 + l) (by omega), hmod (0x4000 + l + 4) (by omega),
    h₀, h₁, h₂, h₃, h₄]

theorem ntxPoll_call {m : Memory} {l b : ℕ} (hm : m.size = 131072) (hl : l ≤ 0x4000)
    (args : List ℕ) : ntxPoll.call ⟨m, [1, l, b]⟩ args =
      some (.i64 (0x8000 <<< 32 ||| l), ⟨m.write 0x8000 (m.read 0x4000 l), [1, 0, b]⟩) := by
  have hfit : 0x4000 + l ≤ 131072 ∧ 0x8000 + l ≤ 131072 := by omega
  simp [Func.call, ntxPoll, Wasm.run, Wasm.Instr.exec, Wasm.Instr.step, hm, hfit]

theorem beBytes_four (n : ℕ) : beBytes 4 n =
    [UInt8.ofNat (n >>> 24)] ++ [UInt8.ofNat (n >>> 16)] ++ [UInt8.ofNat (n >>> 8)] ++
      [UInt8.ofNat n] := by
  simp [beBytes, Nat.shiftRight_eq_div_pow, Nat.div_div_eq_div_mul]

/-- The bytes written are the entry of what lies at `fp`. -/
theorem writeEntry_eq {m : Memory} {p fp n : ℕ} (h : fp + n ≤ p) :
    writeEntry m p fp n = m.write p (Prefixed.entry 4 (m.read fp n)) := by
  have hlen : m.write p (beBytes 4 n) = (((m.write p [UInt8.ofNat (n >>> 24)]).write (p + 1)
      [UInt8.ofNat (n >>> 16)]).write (p + 2) [UInt8.ofNat (n >>> 8)]).write (p + 3)
      [UInt8.ofNat n] := by
    rw [beBytes_four, Memory.write_append, Memory.write_append, Memory.write_append]
    rfl
  unfold writeEntry Prefixed.entry
  dsimp only
  rw [Memory.length_read, Memory.write_append, length_beBytes, ← hlen,
    Memory.read_write_of_disjoint m (Or.inl h)]

/-- The queue after an entry has been appended. -/
theorem read_writeEntry {m : Memory} {l fp n : ℕ} (h : fp + n ≤ 0x4000) :
    (writeEntry m (0x4000 + l) fp n).read 0x4000 (l + n + 4) =
      m.read 0x4000 l ++ Prefixed.entry 4 (m.read fp n) := by
  have hlen : l + n + 4 = l + (Prefixed.entry 4 (m.read fp n)).length := by
    rw [Prefixed.length_entry, Memory.length_read]
    omega
  rw [writeEntry_eq (by omega), hlen, Memory.read_add, Memory.read_write,
    Memory.read_write_of_disjoint m (Or.inl (le_refl _))]

/-- What is polled is the queue. -/
theorem blob_poll {m : Memory} {l b : ℕ} (hm : m.size = 131072) (hl : l ≤ 0x4000) :
    blob ⟨m.write 0x8000 (m.read 0x4000 l), [1, 0, b]⟩ (0x8000 <<< 32 ||| l) =
      m.read 0x4000 l := by
  obtain ⟨hp, hlen⟩ := Wasm.unpack (p := 0x8000) (show l < 2 ^ 32 by omega)
  unfold blob
  rw [hp, hlen]
  dsimp only
  rw [Memory.size_write, hm, Nat.min_eq_left (by omega)]
  have := Memory.read_write m 0x8000 (m.read 0x4000 l)
  rwa [Memory.length_read] at this

theorem pollCall_eq {m : Memory} {l b : ℕ} (hm : m.size = 131072) (hl : l ≤ 0x4000)
    (max pointer : ℕ) : pollCall ⟨m, [1, l, b]⟩ max pointer =
      some (⟨m.write 0x8000 (m.read 0x4000 l), [1, 0, b]⟩, .polled (m.read 0x4000 l)) := by
  unfold pollCall
  rw [ntxPoll_call hm hl]
  exact congrArg (fun d => some (_, HostAnswer.polled d)) (blob_poll hm hl)

/-! ## Frames that wait -/

/-- The frames `q` wait, and the heap is used up to `bump`. -/
structure Waiting (σ : Instance) (q : List Bytes) (bump : ℕ) : Prop where
  size : σ.mem.size = 131072
  globals : σ.globals = [1, (Prefixed.encode 4 q).length, bump]
  queue : σ.mem.read 0x4000 (Prefixed.encode 4 q).length = Prefixed.encode 4 q
  room : (Prefixed.encode 4 q).length ≤ 0x4000
  heap : 0x1000 ≤ bump ∧ bump ≤ 0x3f00

theorem allocAt_spec {b n : ℕ} (hb : 0x1000 ≤ b ∧ b ≤ 0x3f00) (hn : n ≤ 0x2f00) :
    0x1000 ≤ allocAt b n ∧ allocAt b n + n ≤ roundUp (allocAt b n + n) ∧
      roundUp (allocAt b n + n) ≤ 0x3f00 := by
  unfold allocAt roundUp
  split_ifs <;> omega

/-- What is put into the heap does not touch the queue. -/
theorem Waiting.put {σ : Instance} {q : List Bytes} {b : ℕ} (w : Waiting σ q b) {d : Bytes}
    (hd : d.length ≤ 0x2f00) : ∃ σ', put σ d = some (allocAt b d.length, σ') ∧
      σ'.mem = σ.mem.write (allocAt b d.length) d ∧
      Waiting σ' q (roundUp (allocAt b d.length + d.length)) := by
  obtain ⟨m, globals⟩ := σ
  obtain ⟨hm, hg, hq, hroom, hb⟩ := w
  subst hg
  obtain ⟨hp, hup, hbump⟩ := allocAt_spec hb hd
  have hbelow : allocAt b d.length + d.length ≤ 0x4000 := by omega
  exact ⟨_, put_eq hm hb.2 hd, rfl, hm, rfl,
    (Memory.read_write_of_disjoint m (Or.inr hbelow)).trans hq, hroom, by omega⟩

/-- A poll returns the frames that wait. -/
theorem Waiting.poll {σ : Instance} {q : List Bytes} {b : ℕ} (w : Waiting σ q b)
    (max pointer : ℕ) : ∃ σ', pollCall σ max pointer =
      some (σ', .polled (Prefixed.encode 4 q)) ∧ Waiting σ' [] b := by
  obtain ⟨m, globals⟩ := σ
  obtain ⟨hm, hg, hq, hroom, hb⟩ := w
  subst hg
  have hpoll := pollCall_eq (b := b) hm hroom max pointer
  rw [show m.read 0x4000 _ = Prefixed.encode 4 q from hq] at hpoll
  exact ⟨_, hpoll, hm, rfl, rfl, Nat.zero_le _, hb⟩

/-- `ntx_send` of what lies in the heap : there is no room and nothing changes, or it waits
behind the others. -/
theorem Waiting.ntxSend {σ : Instance} {q : List Bytes} {b : ℕ} (w : Waiting σ q b) {fp n : ℕ}
    (hn : n ≤ 0x3f00) (hfp : fp + n ≤ 0x4000) (rp rl : ℕ) :
    (0x4000 < (Prefixed.encode 4 q).length + n + 4 ∧
      FileRelay.ntxSend.call σ [fp, n, rp, rl] = some (.i32 3, σ)) ∨
    ∃ σ', FileRelay.ntxSend.call σ [fp, n, rp, rl] = some (.i32 0, σ') ∧
      Waiting σ' (q ++ [σ.mem.read fp n]) b := by
  obtain ⟨m, globals⟩ := σ
  obtain ⟨hm, hg, hq, hroom, hb⟩ := w
  subst hg
  by_cases hfull : 0x4000 < (Prefixed.encode 4 q).length + n + 4
  · exact Or.inl ⟨hfull, ntxSend_full hroom hn hfull⟩
  · have hlen : (Prefixed.encode 4 (q ++ [m.read fp n])).length =
        (Prefixed.encode 4 q).length + n + 4 := by
      rw [Prefixed.encode_append, List.length_append, Prefixed.encode_cons, Prefixed.encode_nil,
        List.append_nil, Prefixed.length_entry, Memory.length_read]
      omega
    refine Or.inr ⟨_, ntxSend_room hm hfp (not_lt.mp hfull), hm, ?_, ?_,
      hlen.trans_le (not_lt.mp hfull), hb⟩
    · rw [hlen]
    · rw [hlen, read_writeEntry hfp, Prefixed.encode_append]
      exact congrArg₂ (· ++ ·) hq (List.append_nil _).symm

/-- Where the recipient goes that is put after a frame of `n` bytes. -/
def recipientAt (bump n : ℕ) : ℕ :=
  allocAt (roundUp (allocAt bump n + n)) 32

/-- The frame as `ntx_send` finds it. -/
def frameSeen (m : Memory) (bump : ℕ) (frame recipient : Bytes) : Bytes :=
  ((m.write (allocAt bump frame.length) frame).write (recipientAt bump frame.length)
    recipient).read (allocAt bump frame.length) frame.length

/-- A send of a frame the heap can hold. -/
theorem Waiting.send {σ : Instance} {q : List Bytes} {b : ℕ} (w : Waiting σ q b)
    {frame recipient : Bytes} (hf : frame.length ≤ 0x2f00) (hr : recipient.length = 32) :
    (0x4000 < (Prefixed.encode 4 q).length + frame.length + 4 ∧
      ∃ σ' b', sendCall σ frame recipient = some (σ', .sent 3) ∧ Waiting σ' q b' ∧
        0x1020 ≤ b') ∨
    ∃ σ' b', sendCall σ frame recipient = some (σ', .sent 0) ∧
      Waiting σ' (q ++ [frameSeen σ.mem b frame recipient]) b' ∧ 0x1020 ≤ b' := by
  obtain ⟨hp, hup, hbump⟩ := allocAt_spec w.heap hf
  obtain ⟨σ₁, hput, hmem, w₁⟩ := w.put hf
  obtain ⟨hp₂, hup₂, hbump₂⟩ := allocAt_spec w₁.heap (show 32 ≤ 0x2f00 by decide)
  obtain ⟨σ₂, hput₂, hmem₂, w₂⟩ := w₁.put (show recipient.length ≤ 0x2f00 by omega)
  rw [hr] at hput₂ hmem₂ w₂
  have hseen : σ₂.mem.read (allocAt b frame.length) frame.length =
      frameSeen σ.mem b frame recipient := by
    rw [hmem₂, hmem]
    rfl
  rcases w₂.ntxSend (show frame.length ≤ 0x3f00 by omega)
    (show allocAt b frame.length + frame.length ≤ 0x4000 by omega)
    (allocAt (roundUp (allocAt b frame.length + frame.length)) 32) 32 with
    ⟨hfull, hcall⟩ | ⟨σ', hcall, w'⟩
  · refine Or.inl ⟨hfull, σ₂, _, ?_, w₂, by omega⟩
    unfold sendCall
    simp only [hput, hput₂, hr, hcall, Option.bind_eq_bind, Option.bind_some]
  · rw [hseen] at w'
    refine Or.inr ⟨σ', _, ?_, w', by omega⟩
    unfold sendCall
    simp only [hput, hput₂, hr, hcall, Option.bind_eq_bind, Option.bind_some]

/-! ## Frames that are short enough -/

/-- The heap before a frame is put : it is empty, it holds one mailbox id, or it reaches beyond
what a recipient covers at its bottom. -/
def Bottom (bump : ℕ) : Prop :=
  bump = 0x1000 ∨ bump = 0x1010 ∨ 0x1020 ≤ bump

/-- The recipient is put behind the frame, or below it. -/
theorem recipientAt_disjoint {b n : ℕ} (hb : b ≤ 0x3f00) (hbot : Bottom b) (hn : n ≤ 11984) :
    allocAt b n + n ≤ recipientAt b n ∨ recipientAt b n + 32 ≤ allocAt b n := by
  unfold Bottom at hbot
  unfold recipientAt allocAt roundUp
  split_ifs <;> omega

theorem frameSeen_eq {m : Memory} {b : ℕ} {frame recipient : Bytes} (hb : b ≤ 0x3f00)
    (hbot : Bottom b) (hf : frame.length ≤ 11984) (hr : recipient.length = 32) :
    frameSeen m b frame recipient = frame := by
  have hdis := recipientAt_disjoint hb hbot hf
  unfold frameSeen
  rw [Memory.read_write_of_disjoint _ (by omega), Memory.read_write]

/-- One call with a frame that is short enough. -/
theorem Waiting.hostCall {σ : Instance} {q : List Bytes} {b : ℕ} (w : Waiting σ q b)
    (hbot : Bottom b) {c : HostCall} (hc : c.Within 11984) :
    ∃ σ' a q' b', hostCall σ c = some (σ', a) ∧ QueueStep q c (some a) q' ∧ Waiting σ' q' b' ∧
      Bottom b' := by
  cases c with
  | send frame recipient =>
    obtain ⟨⟨-, hf⟩, hr⟩ := hc
    have hseen := frameSeen_eq (m := σ.mem) w.heap.2 hbot hf hr
    rcases w.send (show frame.length ≤ 0x2f00 by omega) hr with
      ⟨-, σ', b', hcall, w', hb'⟩ | ⟨σ', b', hcall, w', hb'⟩
    · exact ⟨σ', _, q, b', hcall, .refused q frame recipient, w', Or.inr (Or.inr hb')⟩
    · rw [hseen] at w'
      exact ⟨σ', _, q ++ [frame], b', hcall, .accepted q frame recipient, w',
        Or.inr (Or.inr hb')⟩
  | poll max mailbox =>
    have hlen : mailbox.length = 16 := hc
    obtain ⟨σ₁, hput, -, w₁⟩ := w.put (show mailbox.length ≤ 0x2f00 by omega)
    obtain ⟨σ', hpoll, w'⟩ := w₁.poll max (allocAt b mailbox.length)
    refine ⟨σ', _, [], _, ?_, .polled q max mailbox, w', ?_⟩
    · unfold FileRelay.hostCall
      simp only [hput, hpoll, Option.bind_eq_bind, Option.bind_some]
    · have hheap := w.heap
      unfold Bottom at *
      rw [hlen]
      unfold allocAt roundUp
      split_ifs <;> omega
  | pollAgain max pointer =>
    obtain ⟨σ', hpoll, w'⟩ := w.poll max pointer
    exact ⟨σ', _, [], b, hpoll, .polledAgain q max pointer, w', hbot⟩

theorem host_step {σ σ' : Instance} {c : HostCall} {a : HostAnswer}
    (h : hostCall σ c = some (σ', a)) : host.step σ c = (σ', some a) := by
  simp only [host, h]

/-- All calls of a run with frames that are short enough. -/
theorem intact_run : ∀ {calls : List HostCall} {σ : Instance} {q : List Bytes} {b : ℕ},
    Waiting σ q b → Bottom b → (∀ c ∈ calls, c.Within 11984) → Intact q (host.trace σ calls)
  | [], _, _, _, _, _, _ => trivial
  | c :: calls, σ, q, b, w, hbot, hc => by
    obtain ⟨σ', a, q', b', hcall, hstep, w', hbot'⟩ :=
      w.hostCall hbot (hc c List.mem_cons_self)
    rw [Machine.trace_cons, host_step hcall]
    exact ⟨q', hstep, intact_run w' hbot' fun c' hc' => hc c' (List.mem_cons_of_mem c hc')⟩

/-- The instance after the start. -/
theorem startModule_eq {caps : Bytes} (h : caps.length ≤ 32) :
    startModule caps = some ⟨((⟨2 * 65536, fun _ => 0⟩ : Memory).write 0x100 caps).write 0x1000 [],
      [1, 0, 0x1000]⟩ := by
  have hput := put_eq (m := (⟨2 * 65536, fun _ => 0⟩ : Memory).write 0x100 caps) (r := 0) (l := 0)
    (b := 0x1000) (d := []) rfl (by decide) (by decide)
  unfold startModule buildQueueModule
  rw [if_neg (by omega), Option.bind_eq_bind, Option.bind_some, hput]
  rfl

theorem waiting_startModule {caps : Bytes} {σ : Instance} (h : startModule caps = some σ) :
    Waiting σ [] 0x1000 := by
  by_cases hlen : caps.length ≤ 32
  · rw [startModule_eq hlen] at h
    cases h
    exact ⟨rfl, rfl, rfl, Nat.zero_le _, by decide⟩
  · unfold startModule buildQueueModule at h
    rw [if_pos (by omega)] at h
    cases h

/-! ## A frame that is too long -/

/-- A poll, a send of a frame of 11985 zeros, and a poll : the mailbox id ends at `0x1010`, the
frame is put there and ends less than 32 bytes before the end of the heap, and the recipient is
put at the bottom, over the first 16 bytes of the frame. -/
def overwritingRun : List HostCall :=
  [.poll 10 (List.replicate 16 1), .send (List.replicate 11985 0) (List.replicate 32 7),
    .pollAgain 10 0x1000]

theorem overwritingRun_within {m : ℕ} (hm : 11985 ≤ m) : ∀ c ∈ overwritingRun, c.Within m := by
  intro c hc
  simp only [overwritingRun, List.mem_cons, List.not_mem_nil, or_false] at hc
  rcases hc with rfl | rfl | rfl
  · exact List.length_replicate
  · refine ⟨?_, List.length_replicate⟩
    rw [List.length_replicate]
    omega
  · trivial

/-- The first byte of the frame is one of the recipient. -/
theorem frameSeen_overwritten (m : Memory) :
    frameSeen m 0x1010 (List.replicate 11985 0) (List.replicate 32 7) ≠
      List.replicate 11985 0 := by
  intro h
  have hframe : allocAt 0x1010 11985 = 0x1010 := rfl
  have hrecipient : recipientAt 0x1010 11985 = 0x1000 := rfl
  unfold frameSeen at h
  rw [List.length_replicate, hframe, hrecipient, Memory.read_succ _ 0x1010 11984] at h
  have hhead := congrArg List.head? h
  rw [List.head?_cons, List.head?_replicate] at hhead
  generalize m.write 0x1010 _ = m at hhead
  revert hhead
  simp [Memory.write]

theorem QueueStep.poll_eq {q q' : List Bytes} {max : ℕ} {mailbox : Bytes} {a : Option HostAnswer}
    (h : QueueStep q (.poll max mailbox) a q') : q' = [] := by
  cases h
  rfl

theorem QueueStep.pollAgain_eq {q q' : List Bytes} {max pointer : ℕ} {a : Option HostAnswer}
    (h : QueueStep q (.pollAgain max pointer) a q') :
    a = some (.polled (Prefixed.encode 4 q)) := by
  cases h
  rfl

/-- Entries of one length are equal only if what they hold is. -/
theorem entry_inj {d e : Bytes} (hlen : d.length = e.length)
    (h : Prefixed.encode 4 [d] = Prefixed.encode 4 [e]) : d = e := by
  simp only [Prefixed.encode_cons, Prefixed.encode_nil, List.append_nil, Prefixed.entry, hlen] at h
  exact List.append_cancel_left h

/-- The frame that is polled is not the one that was sent. -/
theorem overwritingRun_not_intact {caps : Bytes} {σ : Instance} (h : startModule caps = some σ) :
    ¬Intact [] (host.trace σ overwritingRun) := by
  have w := waiting_startModule h
  have hzeros : (List.replicate 11985 (0 : UInt8)).length = 11985 := List.length_replicate
  have hsevens : (List.replicate 32 (7 : UInt8)).length = 32 := List.length_replicate
  -- the mailbox id is put at the bottom of the heap
  obtain ⟨σ₁, hput, -, w₁⟩ := w.put (show (List.replicate 16 (1 : UInt8)).length ≤ 0x2f00 by decide)
  obtain ⟨σ₂, hpoll, w₂⟩ := w₁.poll 10 (allocAt 0x1000 (List.replicate 16 (1 : UInt8)).length)
  have hcall₁ : hostCall σ (.poll 10 (List.replicate 16 1)) =
      some (σ₂, .polled (Prefixed.encode 4 [])) := by
    unfold hostCall
    simp only [hput, hpoll, Option.bind_eq_bind, Option.bind_some]
  -- the queue is empty, so the frame is accepted
  rcases w₂.send (hzeros.trans_le (by decide)) hsevens with ⟨hfull, -⟩ | ⟨σ₃, b, hcall₂, w₃, -⟩
  · rw [hzeros] at hfull
    exact absurd hfull (by decide)
  obtain ⟨σ₄, hcall₃, -⟩ := w₃.poll 10 0x1000
  rw [overwritingRun, Machine.trace_cons, host_step hcall₁, Machine.trace_cons,
    host_step (c := .send _ _) hcall₂, Machine.trace_cons, host_step (c := .pollAgain _ _) hcall₃]
  rintro ⟨q₁, hstep₁, q₂, hstep₂, q₃, hstep₃, -⟩
  cases hstep₁.poll_eq
  cases hstep₂
  have hpolled := hstep₃.pollAgain_eq
  rw [Option.some.injEq, HostAnswer.polled.injEq] at hpolled
  refine frameSeen_overwritten σ₂.mem (entry_inj ?_ hpolled)
  unfold frameSeen
  rw [Memory.length_read]

/-- The module delivers the frames of every run of a host intact and in order exactly if none
is longer than 11984 bytes. -/
theorem queue_module_intact_iff (caps : Bytes) (σ : Instance) (h : startModule caps = some σ)
    (m : ℕ) : (∀ calls : List HostCall, (∀ c ∈ calls, c.Within m) →
      Intact [] (host.trace σ calls)) ↔ m ≤ 11984 := by
  constructor
  · intro hall
    by_contra hm
    exact overwritingRun_not_intact h (hall _ (overwritingRun_within (by omega)))
  · intro hm calls hc
    refine intact_run (waiting_startModule h) (Or.inl rfl) fun c hmem => ?_
    have hwithin := hc c hmem
    cases c with
    | send frame recipient => exact ⟨⟨hwithin.1.1, hwithin.1.2.trans hm⟩, hwithin.2⟩
    | poll max mailbox => exact hwithin
    | pollAgain max pointer => exact hwithin

theorem queue_module_intact_iff_default : ∃ σ, startModule defaultCaps = some σ ∧
    Intact [] (host.trace σ [.poll 10 (List.replicate 16 1),
      .send [1, 2, 3] (List.replicate 32 7), .pollAgain 10 0x1000]) := by
  have hstart := startModule_eq (show defaultCaps.length ≤ 32 by decide)
  refine ⟨_, hstart, (queue_module_intact_iff defaultCaps _ hstart 3).mpr (by decide) _ ?_⟩
  intro c hc
  simp only [List.mem_cons, List.not_mem_nil, or_false] at hc
  rcases hc with rfl | rfl | rfl
  · exact List.length_replicate
  · exact ⟨⟨by decide, by decide⟩, List.length_replicate⟩
  · trivial

/-- A frame of 11985 bytes is accepted and comes back with another beginning. -/
theorem queue_module_overwrites : ∃ σ, startModule defaultCaps = some σ ∧
    (∀ c ∈ overwritingRun, c.Within 40960) ∧ ¬Intact [] (host.trace σ overwritingRun) := by
  have hstart := startModule_eq (show defaultCaps.length ≤ 32 by decide)
  exact ⟨_, hstart, overwritingRun_within (by decide), overwritingRun_not_intact hstart⟩

end FileRelay
