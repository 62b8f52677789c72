import FileRelay.Auth
import FileRelay.BridgeRPC
import FileRelay.Machine
import FileRelay.WriteBack

/-!
# Transfer bindings of the bridge

The bridge remembers for each transfer it created the mailbox, the shard and the number of
chunks (`bridge/xfer.go`). The bindings live in a map in memory and in the file
`transfers.json`, which every create overwrites with the map. The two are a `WriteBack`
state : `onXferCreate` writes, `bindFor` reads, a new process restarts.

`bindings_survive_iff` says when no binding is lost over a run with restarts : exactly when
each create finds the bindings of the file in memory. A create in a fresh process that has
not looked the older transfers up drops them.
-/

namespace FileRelay

open NanoPack (Field Codec layout)

/-! ## Keys -/

def hexDigit (n : ℕ) : UInt8 :=
  (ascii "0123456789abcdef").getD n 0

/-- `hex.EncodeToString`. -/
def hexEncode (b : Bytes) : Bytes :=
  b.flatMap fun x => [hexDigit (x.toNat / 16), hexDigit (x.toNat % 16)]

theorem hexDigit_inj : ∀ i < 16, ∀ j < 16, hexDigit i = hexDigit j → i = j := by
  decide

theorem hexEncode_inj : ∀ {a b : Bytes}, hexEncode a = hexEncode b → a = b
  | [], [], _ => rfl
  | [], _ :: _, h => by cases h
  | _ :: _, [], h => by cases h
  | x :: a, y :: b, h => by
    unfold hexEncode at h
    simp only [List.flatMap_cons, List.cons_append, List.nil_append, List.cons.injEq] at h
    obtain ⟨hhigh, hlow, hrest⟩ := h
    have hx := x.toNat_lt
    have hy := y.toNat_lt
    have h1 := hexDigit_inj _ (by omega) _ (by omega) hhigh
    have h2 := hexDigit_inj _ (by omega) _ (by omega) hlow
    have hxy : x = y := UInt8.toNat_inj.mp (by omega)
    rw [hxy, hexEncode_inj hrest]

/-! ## The state -/

/-- `transferBind`. -/
structure TransferBind where
  mailboxID : Bytes
  shardURL : Bytes
  chunkCount : UInt32
deriving DecidableEq, Repr

/-- What `encoding/json` makes of a map of bindings. -/
structure BindingsJSON where
  File : Type
  marshal : GoMap Bytes TransferBind → Option File
  unmarshal : File → Option (GoMap Bytes TransferBind)

/-- The bytes are the UTF-8 encoding of a text. -/
def ValidUTF8 (b : Bytes) : Prop :=
  ∃ s : String, s.toUTF8.data.toList = b

/-- What the bridge relies on : bindings whose URLs are valid UTF-8 come back as they were.
Other bytes in a string are replaced by U+FFFD. -/
structure BindingsJSON.Lawful (js : BindingsJSON) : Prop where
  round_trip : ∀ m : GoMap Bytes TransferBind,
    (∀ k b, m.lookup k = some b → ValidUTF8 b.shardURL) →
    ∃ f, js.marshal m = some f ∧ js.unmarshal f = some m

/-- A codec that keeps every map. -/
def BindingsJSON.reference : BindingsJSON where
  File := GoMap Bytes TransferBind
  marshal := some
  unmarshal := some

theorem BindingsJSON.reference_lawful : BindingsJSON.reference.Lawful :=
  ⟨fun m _ => ⟨m, rfl, rfl⟩⟩

/-- The bindings in memory and the contents of `transfers.json`. -/
structure XferState (js : BindingsJSON) where
  transfers : GoMap Bytes TransferBind
  file : Option js.File

/-- `newXferState` before any file was written. -/
def newXferState (js : BindingsJSON) : XferState js :=
  ⟨∅, none⟩

variable (H : Bytes → Digest) (np : Codec) {js : BindingsJSON}

/-! ## Creating a transfer -/

/-- Schema 64, as `UnmarshalTransferCreateResponse` accepts it. -/
structure TransferCreateResponse where
  transferID : ID
  expiresAt : UInt64
  chunkSize : UInt32
  downloadSecret : ByteArr 32

/-- What one `onXferCreate` gets from outside : the router it would ask and the answer, the
nonce, the clock, the courier key, and what the shard answers to the request. -/
structure CreateWorld where
  routerURL : Bytes
  resolve : Except BridgeError (ID × Bytes)
  nonce : Except BridgeError (ByteArr 16)
  timestamp : UInt64
  courierPub : ByteArr 32
  sign : Bytes → ByteArr 64
  answer : Bytes → TransferCreate → Except BridgeError TransferCreateResponse

/-- The mailbox and the shard of the request, or those the router has for the recipient if
the request leaves one out. -/
def resolveTarget (w : CreateWorld) (req : XferCreate) : Except BridgeError (Bytes × Bytes) :=
  if req.recipientPub.length = 32 ∧ (req.mailboxID.length ≠ 16 ∨ req.shardURL = []) then
    if w.routerURL = [] then .error (.text "no router_url for resolve")
    else w.resolve.map fun r => (r.1.toList, r.2)
  else .ok (req.mailboxID, req.shardURL)

/-- The mailbox and the shard of a create. -/
def createTarget (w : CreateWorld) (req : XferCreate) : Except BridgeError (Bytes × Bytes) :=
  match resolveTarget w req with
  | .error e => .error e
  | .ok (mailbox, shardURL) =>
    if mailbox.length ≠ 16 ∨ shardURL = [] then
      .error (.text "mailbox+shard or recipient_pub required")
    else .ok (mailbox, shardURL)

/-- The signed request for the shard. -/
def createRequest (w : CreateWorld) (req : XferCreate) (mailbox : Bytes) (nonce : ByteArr 16) :
    TransferCreate where
  mailboxID := mailbox
  totalSize := req.total
  chunkSize := req.chunkSize
  chunkCount := req.chunkCount
  manifest := req.manifest
  senderPub := w.courierPub.toList
  timestamp := w.timestamp
  nonce := nonce.toList
  signature := (w.sign (canonicalXferCreate H w.courierPub (copyArr 16 mailbox) req.total
    req.chunkSize req.chunkCount w.timestamp nonce req.manifest)).toList

/-- `onXferCreate` up to the shard's answer, with the binding it is about to record. -/
def askShard (w : CreateWorld) (payload : Bytes) :
    Except BridgeError (TransferCreateResponse × TransferBind) :=
  match unmarshalXferCreate np payload with
  | .error e => .error e
  | .ok req =>
    match createTarget w req with
    | .error e => .error e
    | .ok (mailbox, shardURL) =>
      match w.nonce with
      | .error e => .error e
      | .ok nonce =>
        match validateTransferCreateMsg (createRequest H w req mailbox nonce) with
        | .error e => .error (.wire (.protocol e))
        | .ok () =>
          match w.answer shardURL (createRequest H w req mailbox nonce) with
          | .error e => .error e
          | .ok res => .ok (res, ⟨mailbox, shardURL, req.chunkCount⟩)

/-- `saveBindings`, when the file can be written. -/
def XferState.saveBindings (x : XferState js) : XferState js :=
  match js.marshal x.transfers with
  | none => x
  | some raw => { x with file := some raw }

/-- The body of a successful create. -/
structure XferCreated where
  transferID : Bytes
  downloadSecret : Bytes
  shardURL : Bytes
  expiresAt : UInt64
deriving DecidableEq, Repr

/-- `onXferCreate`. -/
def onXferCreate (w : CreateWorld) (x : XferState js) (payload : Bytes) :
    XferState js × Except BridgeError XferCreated :=
  match askShard H np w payload with
  | .error e => (x, .error e)
  | .ok (res, bind) =>
    ({ x with transfers := x.transfers.insert (hexEncode res.transferID.toList) bind }.saveBindings,
      .ok ⟨res.transferID.toList, res.downloadSecret.toList, bind.shardURL, res.expiresAt⟩)

/-- `bindFor`. -/
def bindFor (x : XferState js) (transferID : Bytes) : XferState js × Option TransferBind :=
  let key := hexEncode transferID
  match x.transfers.lookup key with
  | some bind => (x, some bind)
  | none =>
    match x.file.bind js.unmarshal with
    | none => (x, none)
    | some all =>
      match all.lookup key with
      | none => (x, none)
      | some bind =>
        if bind.mailboxID.length = 16 then
          ({ x with transfers := x.transfers.insert key bind }, some bind)
        else (x, none)

/-- A new process : `newXferState` over the file that is there. -/
def XferState.restart (x : XferState js) : XferState js :=
  { x with transfers := ∅ }

/-! ## Runs -/

/-- A call of the bridge, or a new process. -/
inductive XferOp
  | create (w : CreateWorld) (payload : Bytes)
  | lookup (transferID : Bytes)
  | restart

inductive XferOut
  | created (r : Except BridgeError XferCreated)
  | found (r : Option TransferBind)
  | restarted

/-- The bindings of the bridge as a machine. -/
def xfer (js : BindingsJSON) : Machine (XferState js) XferOp XferOut where
  step x
    | .create w payload =>
      ((onXferCreate H np w x payload).1, .created (onXferCreate H np w x payload).2)
    | .lookup transferID => ((bindFor x transferID).1, .found (bindFor x transferID).2)
    | .restart => (x.restart, .restarted)

/-- What is recorded after one more call. `key` says under which key. -/
def record (key : Bytes → Bytes) (rec : Bytes → Option TransferBind) :
    XferOp → Bytes → Option TransferBind
  | .create w payload =>
    match askShard H np w payload with
    | .ok (res, bind) => Function.update rec (key res.transferID.toList) (some bind)
    | .error _ => rec
  | _ => rec

/-- The binding recorded at the last successful create of a transfer id. -/
def recorded (ops : List XferOp) : Bytes → Option TransferBind :=
  ops.foldl (record H np id) fun _ => none

/-- The shard URL of a successful create is valid UTF-8. -/
def ValidURL (op : XferOp) : Prop :=
  ∀ w payload res bind, op = .create w payload → askShard H np w payload = .ok (res, bind) →
    ValidUTF8 bind.shardURL

/-- The bindings `transfers.json` holds. -/
def XferState.saved (x : XferState js) : GoMap Bytes TransferBind :=
  (x.file.bind js.unmarshal).getD ∅

/-- A create that succeeds finds every other binding of the file in memory. -/
def Remembers (x : XferState js) (op : XferOp) : Prop :=
  ∀ w payload res bind, op = .create w payload → askShard H np w payload = .ok (res, bind) →
    ∀ key, key ≠ hexEncode res.transferID.toList → key ∈ x.saved → key ∈ x.transfers

/-! ## The bindings as a map over a file -/

/-- The state as a map in memory over a file. -/
def XferState.abs (x : XferState js) : WriteBack.State Bytes TransferBind :=
  ⟨x.transfers, x.saved⟩

@[simp] theorem XferState.abs_mem (x : XferState js) : x.abs.mem = x.transfers := rfl

@[simp] theorem XferState.abs_file (x : XferState js) : x.abs.file = x.saved := rfl

/-- What was recorded, by the keys of the map. -/
def recordedKeys (ops : List XferOp) : Bytes → Option TransferBind :=
  ops.foldl (record H np hexEncode) fun _ => none

/-- The state and what was recorded so far. -/
structure Tracks (rec : Bytes → Option TransferBind) (x : XferState js) : Prop where
  inv : WriteBack.Inv rec x.abs
  isKey : ∀ key bind, rec key = some bind → ∃ id, hexEncode id = key
  validURL : ∀ key bind, rec key = some bind → ValidUTF8 bind.shardURL
  length_mailboxID : ∀ key bind, rec key = some bind → bind.mailboxID.length = 16

theorem bindFor_eq_lookup (x : XferState js) (id : Bytes) : bindFor x id =
    match x.transfers.lookup (hexEncode id) with
    | some bind => (x, some bind)
    | none =>
      match x.saved.lookup (hexEncode id) with
      | none => (x, none)
      | some bind =>
        if bind.mailboxID.length = 16 then
          ({ x with transfers := x.transfers.insert (hexEncode id) bind }, some bind)
        else (x, none) := by
  unfold bindFor XferState.saved
  rcases x.file.bind js.unmarshal with _ | all
  · rw [Option.getD_none, Finmap.lookup_empty]
  · rfl

/-- `bindFor` is the read of the map over the file. -/
theorem bindFor_get {rec : Bytes → Option TransferBind} {x : XferState js} (ht : Tracks rec x)
    (id : Bytes) : ((bindFor x id).1.abs, (bindFor x id).2) = x.abs.get (hexEncode id) := by
  rw [bindFor_eq_lookup]
  unfold WriteBack.State.get
  simp only [XferState.abs_mem, XferState.abs_file]
  rcases x.transfers.lookup (hexEncode id) with _ | bind
  · rcases hs : x.saved.lookup (hexEncode id) with _ | bind
    · rfl
    · have hlen := ht.length_mailboxID _ bind (ht.inv.written _ _ hs)
      simp only [if_pos hlen]
      rfl
  · rfl

/-- A successful create is the write of the map over the file. -/
theorem onXferCreate_put (hjs : js.Lawful) {rec : Bytes → Option TransferBind} {x : XferState js}
    (ht : Tracks rec x) {w : CreateWorld} {payload : Bytes} {res : TransferCreateResponse}
    {bind : TransferBind} (hask : askShard H np w payload = .ok (res, bind))
    (hurl : ValidUTF8 bind.shardURL) :
    (onXferCreate H np w x payload).1.abs = x.abs.put (hexEncode res.transferID.toList) bind := by
  have hvalid : ∀ key b,
      (x.transfers.insert (hexEncode res.transferID.toList) bind).lookup key = some b →
      ValidUTF8 b.shardURL := by
    intro key b hb
    rw [GoMap.lookup_insert_eq] at hb
    split_ifs at hb with hk
    · cases hb
      exact hurl
    · exact ht.validURL key b (ht.inv.written key b (ht.inv.cached key b hb))
  obtain ⟨f, hmarshal, hunmarshal⟩ := hjs.round_trip _ hvalid
  unfold onXferCreate
  rw [hask]
  simp only [XferState.saveBindings, hmarshal]
  unfold XferState.abs XferState.saved WriteBack.State.put
  simp only [Option.bind_some, hunmarshal, Option.getD_some]

theorem length_of_createTarget {w : CreateWorld} {req : XferCreate} {mailbox shardURL : Bytes}
    (h : createTarget w req = .ok (mailbox, shardURL)) : mailbox.length = 16 := by
  unfold createTarget at h
  split at h
  · cases h
  · split_ifs at h with hbad
    cases h
    exact not_not.mp fun hne => hbad (Or.inl hne)

/-- The mailbox of a binding has 16 bytes. -/
theorem length_mailboxID_of_askShard {w : CreateWorld} {payload : Bytes}
    {res : TransferCreateResponse} {bind : TransferBind}
    (h : askShard H np w payload = .ok (res, bind)) : bind.mailboxID.length = 16 := by
  unfold askShard at h
  split at h
  · cases h
  split at h
  · cases h
  rename_i mailbox shardURL htarget
  split at h
  · cases h
  split at h
  · cases h
  split at h
  · cases h
  cases h
  exact length_of_createTarget htarget

/-! ## One call -/

theorem record_ok (key : Bytes → Bytes) (rec : Bytes → Option TransferBind) {w : CreateWorld}
    {payload : Bytes} {res : TransferCreateResponse} {bind : TransferBind}
    (hask : askShard H np w payload = .ok (res, bind)) :
    record H np key rec (.create w payload) =
      Function.update rec (key res.transferID.toList) (some bind) := by
  simp only [record, hask]

theorem record_error (key : Bytes → Bytes) (rec : Bytes → Option TransferBind) {w : CreateWorld}
    {payload : Bytes} {e : BridgeError} (hask : askShard H np w payload = .error e) :
    record H np key rec (.create w payload) = rec := by
  simp only [record, hask]

theorem record_hexEncode {rec rec' : Bytes → Option TransferBind}
    (h : ∀ id, rec (hexEncode id) = rec' id) (op : XferOp) (tid : Bytes) :
    record H np hexEncode rec op (hexEncode tid) = record H np id rec' op tid := by
  rcases op with ⟨w, payload⟩ | ⟨tid'⟩ | _
  · rcases hask : askShard H np w payload with e | ⟨res, bind⟩
    · rw [record_error H np _ _ hask, record_error H np _ _ hask]
      exact h tid
    · rw [record_ok H np _ _ hask, record_ok H np _ _ hask, id_eq]
      by_cases hid : tid = res.transferID.toList
      · rw [hid, Function.update_self, Function.update_self]
      · have hkey : hexEncode tid ≠ hexEncode res.transferID.toList :=
          fun he => hid (hexEncode_inj he)
        rw [Function.update_of_ne hkey, Function.update_of_ne hid]
        exact h tid
  · exact h tid
  · exact h tid

theorem recordedKeys_hexEncode (ops : List XferOp) :
    ∀ tid, recordedKeys H np ops (hexEncode tid) = recorded H np ops tid := by
  induction ops using List.reverseRecOn with
  | nil => exact fun _ => rfl
  | append_singleton ops op ih =>
    intro tid
    unfold recordedKeys recorded
    rw [List.foldl_append, List.foldl_append]
    exact record_hexEncode H np ih op tid

/-- A call keeps track of what is recorded. -/
theorem tracks_step (hjs : js.Lawful) {rec : Bytes → Option TransferBind} {x : XferState js}
    (ht : Tracks rec x) {op : XferOp} (hurl : ValidURL H np op) :
    Tracks (record H np hexEncode rec op) ((xfer H np js).step x op).1 := by
  rcases op with ⟨w, payload⟩ | ⟨tid⟩ | _
  · change Tracks _ (onXferCreate H np w x payload).1
    rcases hask : askShard H np w payload with e | ⟨res, bind⟩
    · rw [record_error H np _ _ hask]
      unfold onXferCreate
      rw [hask]
      exact ht
    · have hvalid := hurl w payload res bind rfl hask
      have hfields : ∀ {P : Bytes → TransferBind → Prop}, P (hexEncode res.transferID.toList) bind →
          (∀ key b, rec key = some b → P key b) → ∀ key b,
          Function.update rec (hexEncode res.transferID.toList) (some bind) key = some b →
            P key b := by
        intro P hnew hold key b hb
        by_cases hk : key = hexEncode res.transferID.toList
        · rw [hk, Function.update_self] at hb
          cases hb
          rw [hk]
          exact hnew
        · rw [Function.update_of_ne hk] at hb
          exact hold key b hb
      rw [record_ok H np _ _ hask]
      refine ⟨?_, hfields ⟨_, rfl⟩ ht.isKey, hfields hvalid ht.validURL,
        hfields (length_mailboxID_of_askShard H np hask) ht.length_mailboxID⟩
      rw [onXferCreate_put H np hjs ht hask hvalid]
      exact WriteBack.inv_put ht.inv _ _
  · refine ⟨?_, ht.isKey, ht.validURL, ht.length_mailboxID⟩
    change WriteBack.Inv rec (bindFor x tid).1.abs
    have hget := congrArg Prod.fst (bindFor_get ht tid)
    dsimp only at hget
    rw [hget]
    exact WriteBack.inv_get ht.inv _
  · exact ⟨WriteBack.inv_restart ht.inv, ht.isKey, ht.validURL, ht.length_mailboxID⟩

/-- A call keeps what is recorded readable exactly when it forgets no binding. -/
theorem complete_step_iff (hjs : js.Lawful) {rec : Bytes → Option TransferBind}
    {x : XferState js} (ht : Tracks rec x) (hc : WriteBack.Complete rec x.abs) {op : XferOp}
    (hurl : ValidURL H np op) :
    WriteBack.Complete (record H np hexEncode rec op) ((xfer H np js).step x op).1.abs ↔
      Remembers H np x op := by
  rcases op with ⟨w, payload⟩ | ⟨tid⟩ | _
  · change WriteBack.Complete _ (onXferCreate H np w x payload).1.abs ↔ _
    rcases hask : askShard H np w payload with e | ⟨res, bind⟩
    · have hsame : (onXferCreate H np w x payload).1 = x := by
        unfold onXferCreate
        rw [hask]
      rw [hsame, record_error H np _ _ hask]
      refine ⟨fun _ w' payload' res bind hop hok => ?_, fun _ => hc⟩
      cases hop
      rw [hask] at hok
      cases hok
    · have hvalid := hurl w payload res bind rfl hask
      rw [record_ok H np _ _ hask, onXferCreate_put H np hjs ht hask hvalid,
        WriteBack.complete_put_iff ht.inv hc]
      constructor
      · intro hkeep w' payload' res' bind' hop hok
        cases hop
        rw [hask] at hok
        cases hok
        exact hkeep
      · exact fun hrem => hrem w payload res bind rfl hask
  · refine ⟨fun _ _ _ _ _ hop => (nomatch hop), fun _ key bind hb => ?_⟩
    change (bindFor x tid).1.abs.file.lookup key = some bind
    have hget := congrArg Prod.fst (bindFor_get ht tid)
    dsimp only at hget
    rw [hget, WriteBack.file_get]
    exact hc key bind hb
  · exact ⟨fun _ _ _ _ _ hop => (nomatch hop), fun _ => hc⟩

/-- What is recorded can be looked up exactly when the file holds all of it. -/
theorem complete_iff_bindFor {rec : Bytes → Option TransferBind} {x : XferState js}
    (ht : Tracks rec x) : WriteBack.Complete rec x.abs ↔
      ∀ tid bind, rec (hexEncode tid) = some bind → (bindFor x tid).2 = some bind := by
  have hfind : ∀ tid, (bindFor x tid).2 = x.saved.lookup (hexEncode tid) := by
    intro tid
    have hget := congrArg Prod.snd (bindFor_get ht tid)
    dsimp only at hget
    rw [hget, WriteBack.get_eq ht.inv]
    rfl
  constructor
  · intro hc tid bind hb
    rw [hfind]
    exact hc _ _ hb
  · intro hall key bind hb
    obtain ⟨tid, rfl⟩ := ht.isKey key bind hb
    rw [← hall tid bind hb, hfind]
    rfl

/-! ## Whole runs -/

theorem tracks_run (hjs : js.Lawful) (ops : List XferOp) (hurl : ∀ op ∈ ops, ValidURL H np op) :
    Tracks (recordedKeys H np ops) ((xfer H np js).run (newXferState js) ops) := by
  induction ops using List.reverseRecOn with
  | nil =>
    exact ⟨⟨fun key bind h => absurd h (GoMap.lookup_empty_ne_some key bind),
      fun key bind h => absurd h (GoMap.lookup_empty_ne_some key bind)⟩, nofun, nofun, nofun⟩
  | append_singleton ops op ih =>
    have ht := ih fun op' hop => hurl op' (List.mem_append_left _ hop)
    rw [Machine.run_concat]
    unfold recordedKeys
    rw [List.foldl_append]
    exact tracks_step H np hjs ht (hurl op (List.mem_append_right _ (List.mem_singleton_self op)))

/-- Over every sequence of creates, lookups and restarts, every transfer created so far is
found with the binding of its create at all times exactly when every successful create finds
the other bindings of the file in memory. -/
theorem bindings_survive_iff (H : Bytes → Digest) (np : Codec) (js : BindingsJSON)
    (hjs : js.Lawful) (ops : List XferOp) (hurl : ∀ op ∈ ops, ValidURL H np op) :
    (∀ pre, pre <+: ops → ∀ tid bind, recorded H np pre tid = some bind →
        (bindFor ((xfer H np js).run (newXferState js) pre) tid).2 = some bind) ↔
      (xfer H np js).Along (Remembers H np) (newXferState js) ops := by
  induction ops using List.reverseRecOn with
  | nil =>
    refine ⟨fun _ => trivial, fun _ pre hpre tid bind hb => ?_⟩
    rw [List.prefix_nil.mp hpre] at hb
    cases hb
  | append_singleton ops op ih =>
    have hold : ∀ op' ∈ ops, ValidURL H np op' :=
      fun op' hop => hurl op' (List.mem_append_left _ hop)
    have hnew : ValidURL H np op := hurl op (List.mem_append_right _ (List.mem_singleton_self op))
    have ht := tracks_run H np hjs ops hold
    have ht' := tracks_run H np hjs (ops ++ [op]) hurl
    rw [Machine.along_concat, ← ih hold]
    have hsplit : (∀ pre, pre <+: ops ++ [op] → ∀ tid bind, recorded H np pre tid = some bind →
        (bindFor ((xfer H np js).run (newXferState js) pre) tid).2 = some bind) ↔
        (∀ pre, pre <+: ops → ∀ tid bind, recorded H np pre tid = some bind →
          (bindFor ((xfer H np js).run (newXferState js) pre) tid).2 = some bind) ∧
        WriteBack.Complete (recordedKeys H np (ops ++ [op]))
          ((xfer H np js).run (newXferState js) (ops ++ [op])).abs := by
      rw [complete_iff_bindFor ht']
      simp only [recordedKeys_hexEncode]
      constructor
      · exact fun h => ⟨fun pre hpre => h pre (hpre.trans (List.prefix_append ops [op])),
          h _ (List.prefix_refl _)⟩
      · rintro ⟨h, hlast⟩ pre hpre
        rcases List.prefix_concat_iff.mp hpre with rfl | hpre
        · exact hlast
        · exact h pre hpre
    rw [hsplit]
    refine and_congr_right fun h => ?_
    have hc : WriteBack.Complete (recordedKeys H np ops)
        ((xfer H np js).run (newXferState js) ops).abs := by
      rw [complete_iff_bindFor ht]
      simp only [recordedKeys_hexEncode]
      exact h ops (List.prefix_refl ops)
    rw [Machine.run_concat, ← complete_step_iff H np hjs ht hc hnew]
    unfold recordedKeys
    rw [List.foldl_append]
    rfl

/-! ### Two processes -/

def sampleXferFields : List Field :=
  [⟨1, putU64 3⟩, ⟨2, putU32 2⟩, ⟨3, putU32 2⟩, ⟨5, List.replicate 16 1⟩, ⟨7, ascii "http://s"⟩]

/-- A shard that answers every create with the transfer id `tid`. -/
def sampleWorld (tid : ID) : CreateWorld where
  routerURL := []
  resolve := .error (.text "resolve")
  nonce := .ok (copyArr 16 [])
  timestamp := 0
  courierPub := copyArr 32 []
  sign := fun _ => copyArr 64 []
  answer := fun _ _ => .ok ⟨tid, 0, 2, copyArr 32 []⟩

def sampleBind : TransferBind :=
  ⟨List.replicate 16 1, ascii "http://s", 2⟩

def sampleCreateOp (tid : ID) : XferOp :=
  .create (sampleWorld tid) (layout sampleXferFields)

theorem askShard_sample (tid : ID) :
    askShard (copyArr 32) NanoPack.reference (sampleWorld tid) (layout sampleXferFields) =
      .ok (⟨tid, 0, 2, copyArr 32 []⟩, sampleBind) := by
  have hdecode : decodeFields NanoPack.reference (layout sampleXferFields) =
      .ok sampleXferFields := decodeFields_eq NanoPack.reference_lawful (by decide)
  have hreq : unmarshalXferCreate NanoPack.reference (layout sampleXferFields) =
      .ok ⟨3, 2, 2, [], List.replicate 16 1, [], ascii "http://s"⟩ := by
    unfold unmarshalXferCreate decodeRPC
    rw [hdecode]
    rfl
  have htarget : createTarget (sampleWorld tid) ⟨3, 2, 2, [], List.replicate 16 1, [],
      ascii "http://s"⟩ = .ok (List.replicate 16 1, ascii "http://s") := rfl
  have hgeometry : validateTransferCreate 3 2 2 = .ok () := by decide
  have hvalid : validateTransferCreateMsg (createRequest (copyArr 32) (sampleWorld tid) ⟨3, 2, 2,
      [], List.replicate 16 1, [], ascii "http://s"⟩ (List.replicate 16 1) (copyArr 16 [])) =
        .ok () :=
    validateTransferCreateMsg_eq_ok.mpr ⟨fun _ => rfl, hgeometry, Nat.zero_le _, rfl, rfl, rfl⟩
  have hnonce : (sampleWorld tid).nonce = .ok (copyArr 16 []) := rfl
  unfold askShard
  simp only [hreq, htarget, hnonce, hvalid]
  rfl

theorem step_sampleCreateOp (x : XferState .reference) (tid : ID) :
    ((xfer (copyArr 32) NanoPack.reference .reference).step x (sampleCreateOp tid)).1 =
      ⟨x.transfers.insert (hexEncode tid.toList) sampleBind,
        some (x.transfers.insert (hexEncode tid.toList) sampleBind)⟩ := by
  change (onXferCreate (copyArr 32) NanoPack.reference (sampleWorld tid) x
    (layout sampleXferFields)).1 = _
  unfold onXferCreate
  rw [askShard_sample]
  rfl

theorem record_sampleCreateOp (rec : Bytes → Option TransferBind) (tid : ID) :
    record (copyArr 32) NanoPack.reference id rec (sampleCreateOp tid) =
      Function.update rec tid.toList (some sampleBind) :=
  record_ok (copyArr 32) NanoPack.reference id rec (askShard_sample tid)

/-- A create leaves the binding of another transfer in the record. -/
theorem record_sampleCreateOps (rec : Bytes → Option TransferBind) :
    record (copyArr 32) NanoPack.reference id
      (record (copyArr 32) NanoPack.reference id rec (sampleCreateOp (copyArr 16 [1])))
      (sampleCreateOp (copyArr 16 [2])) (copyArr 16 [1]).toList = some sampleBind := by
  rw [record_sampleCreateOp, record_sampleCreateOp, Function.update_of_ne (by decide),
    Function.update_self]

theorem validURL_sampleCreateOp (tid : ID) :
    ValidURL (copyArr 32) NanoPack.reference (sampleCreateOp tid) := by
  intro w payload res bind hop hask
  cases hop
  rw [askShard_sample] at hask
  cases hask
  exact ⟨"http://s", by decide⟩

/-- A transfer created in one process is looked up in the next before another is created. -/
def lookupBetween : List XferOp :=
  [sampleCreateOp (copyArr 16 [1]), .restart, .lookup (copyArr 16 [1]).toList,
    sampleCreateOp (copyArr 16 [2])]

theorem bindings_survive_lookupBetween :
    recorded (copyArr 32) NanoPack.reference lookupBetween (copyArr 16 [1]).toList =
        some sampleBind ∧
      ((∀ pre, pre <+: lookupBetween → ∀ tid bind,
          recorded (copyArr 32) NanoPack.reference pre tid = some bind →
          (bindFor ((xfer (copyArr 32) NanoPack.reference .reference).run
            (newXferState .reference) pre) tid).2 = some bind) ↔
        (xfer (copyArr 32) NanoPack.reference .reference).Along
          (Remembers (copyArr 32) NanoPack.reference) (newXferState .reference) lookupBetween) := by
  refine ⟨record_sampleCreateOps _, bindings_survive_iff (copyArr 32) NanoPack.reference
    .reference BindingsJSON.reference_lawful lookupBetween ?_⟩
  intro op hop
  simp only [lookupBetween, List.mem_cons, List.not_mem_nil, or_false] at hop
  rcases hop with rfl | rfl | rfl | rfl
  · exact validURL_sampleCreateOp _
  · exact fun _ _ _ _ h => (nomatch h)
  · exact fun _ _ _ _ h => (nomatch h)
  · exact validURL_sampleCreateOp _

/-- Two transfers are created in two processes. -/
def twoProcesses : List XferOp :=
  [sampleCreateOp (copyArr 16 [1]), .restart, sampleCreateOp (copyArr 16 [2])]

/-- The second create drops the binding of the first transfer. -/
theorem second_process_forgets :
    recorded (copyArr 32) NanoPack.reference twoProcesses (copyArr 16 [1]).toList =
        some sampleBind ∧
      (bindFor ((xfer (copyArr 32) NanoPack.reference .reference).run (newXferState .reference)
        twoProcesses) (copyArr 16 [1]).toList).2 = none := by
  refine ⟨record_sampleCreateOps _, ?_⟩
  unfold twoProcesses
  rw [Machine.run_cons, Machine.run_cons, Machine.run_cons, Machine.run_nil,
    step_sampleCreateOp, step_sampleCreateOp]
  decide

end FileRelay
