import FileRelay.Courier
import FileRelay.Fallible

/-!
# Sessions of a bridge

A bridge serves one request after the other, and a new process starts with the files the last one
left. `courier` is the bridge as a machine over requests and restarts. `Does` says once what a
request can do : which reply it gets, on what answer of a server the reply rests, and what is left
of the state.

Over a whole session the bridge makes nothing up (`known_run`) : a mailbox it polls was attached by
a request of the session, and a server it asks about a transfer is the one that answered the create
of the transfer in the session, before or after restarts.
-/

namespace FileRelay

open NanoPack (Field Codec layout)
open Gather (gather)
open Fallible

/-! ## What a request does -/

section Does

variable {js : BindingsJSON} {s : Courier js}

/-- The message of `postMessage`. -/
def CourierWorld.message (H : Bytes → Digest) (w : CourierWorld s) (mailboxID : ID) (frame : Bytes)
    (nonce : ByteArr 16) : SendMessage where
  mailboxID := mailboxID.toList
  envelope := frame
  senderPub := w.courierPub.toList
  timestamp := w.timestamp
  nonce := nonce.toList
  signature :=
    (w.sign (canonicalMsgSend H w.courierPub mailboxID w.timestamp nonce frame)).toList
  ttlHintSec := UInt32.ofNat msgTTLSeconds.toNat
  burn := 1

/-- The chunk of `onXferPut`. -/
def XferPut.upload (req : XferPut) : ChunkUpload where
  transferID := req.transferID
  index := req.index
  payload := req.payload
  chunkHash := req.hash
  offset := req.offset

/-- The request of `onXferComplete`. -/
def CourierWorld.completion (w : CourierWorld s) (req : XferComplete) (nonce : ByteArr 16) :
    TransferComplete where
  transferID := req.transferID
  manifestHash := req.manifestHash
  mailboxID := []
  senderPub := w.courierPub.toList
  timestamp := w.timestamp
  nonce := nonce.toList
  signature := (w.sign (canonicalXferComplete w.courierPub (copyArr 16 req.transferID)
    (copyArr 32 req.manifestHash) w.timestamp nonce)).toList

/-- The binding a request goes by. -/
def Courier.Bound (s : Courier js) (transferID : Bytes) (bind : TransferBind) : Prop :=
  (bindFor s.xfer transferID).2 = some bind

/-- The server and the request of a download : the server the core names, with a ticket, or that of
the binding, with the secret of the mailbox. -/
inductive XferGet.Goes (s : Courier js) (req : XferGet) : Bytes → ChunkDownload → Prop
  | ticket (h : req.ticket.length = 32) :
    Goes s req req.shardURL ⟨req.transferID, req.index, 1, [], [], req.ticket⟩
  | owner {bind : TransferBind} (hb : s.Bound req.transferID bind) :
    Goes s req bind.shardURL ⟨req.transferID, req.index, 1, req.mailboxID, req.readSecret, []⟩

/-- The same for a resume. -/
inductive XferResume.Goes (s : Courier js) (req : XferResume) : Bytes → ResumeRequest → Prop
  | ticket (h : req.ticket.length = 32) :
    Goes s req req.shardURL ⟨req.transferID, [], [], req.ticket⟩
  | owner {bind : TransferBind} (hb : s.Bound req.transferID bind) :
    Goes s req bind.shardURL ⟨req.transferID, req.mailboxID, req.readSecret, []⟩

/-- What `onIdentityRegister` and `onRegister` ask the router. -/
inductive CourierWorld.Registers (np : Codec) (w : CourierWorld s) (payload : Bytes) :
    UInt8 → Register → Prop
  | identity {req : IdentityRegisterReq}
      (hreq : unmarshalIdentityRegisterReq np payload = .ok req) :
    Registers np w payload 17 ⟨req.pubkey, req.timestamp, req.nonce, req.signature⟩
  | scoped {req : RegisterReq} {key : ByteArr 32 × (Bytes → ByteArr 64)} {nonce : ByteArr 16}
      (hreq : unmarshalRegisterReq np payload = .ok req)
      (hkey : w.scopedKey req.userTag = .ok key) :
    Registers np w payload 9 ⟨key.1.toList, w.timestamp, nonce.toList,
      (key.2 (canonicalRegister key.1 w.timestamp nonce)).toList⟩

/-- The server at `base` has answered the `i`-th post of a request with status 200. -/
def CourierWorld.Gets (w : CourierWorld s) (i : ℕ) (base route body raw : Bytes) : Prop :=
  w.postBinary i base route body = .ok (200, raw)

/-- The state with a mailbox attached. -/
def Courier.attach (s : Courier js) (req : AttachReq) : Courier js where
  bridge := { s.bridge with
    mailboxes := s.bridge.mailboxes.insert req.mailboxID ⟨req.readSecret, req.shardURL⟩ }
  routers := s.routers.insert req.mailboxID req.routerURL
  routerURL := if s.routerURL = [] ∧ req.routerURL ≠ [] then req.routerURL else s.routerURL
  xfer := s.xfer

/-- The state without a mailbox. -/
def Courier.detach (s : Courier js) (id : Bytes) : Courier js :=
  { s with
    bridge := { s.bridge with mailboxes := s.bridge.mailboxes.erase id }
    routers := s.routers.erase id }

/-- The state after the binding of a transfer was looked up. -/
def Courier.lookedUp (s : Courier js) (transferID : Bytes) : Courier js :=
  { s with xfer := (bindFor s.xfer transferID).1 }

/-- What a request does : the state after it and the reply, with what a success rests on. -/
inductive Does (H : Bytes → Digest) (np : Codec) (w : CourierWorld s) :
    UInt8 → Bytes → Courier js → Outcome → Prop
  | failed {op : UInt8} {payload : Bytes} {s' : Courier js} (code : ℕ) (e : BridgeError)
      (hs : s' = s ∨ ∃ tid, s' = s.lookedUp tid) : Does H np w op payload s' (.failed code e)
  | initialized {payload : Bytes} (routerURL : Bytes) (failure : Option BridgeError) :
    Does H np w 1 payload { s with routerURL := routerURL } (.initialized failure)
  | capabilities {payload : Bytes} : Does H np w 8 payload s .capabilities
  | status {payload : Bytes} : Does H np w 7 payload s (.status s.bridge.running)
  | switched {payload : Bytes} (running : Bool) :
    Does H np w 2 payload { s with bridge := { s.bridge with running := running } } (.acked 2)
  | attached {payload : Bytes} {req : AttachReq} (hreq : unmarshalAttach np payload = .ok req) :
    Does H np w 4 payload (s.attach req) (.acked 4)
  | detached {payload : Bytes} (id : Bytes) : Does H np w 5 payload (s.detach id) (.acked 5)
  | sent {payload body raw url : Bytes} {req : SendReq} {mid : ID} {nonce : ByteArr 16}
      (hreq : unmarshalSend np payload = .ok req) (htarget : w.sendTarget np req = .ok (mid, url))
      (hbody : marshalSendMessage np (w.message H mid req.frame nonce) = .ok body)
      (hgets : w.Gets 1 url routeSend body raw) : Does H np w 3 payload s (.acked 3)
  | polled {payload : Bytes} {req : PollReq} {frames : List Bytes}
      (hreq : unmarshalPoll np payload = .ok req)
      (hframes : gather (pollAsk np w.shardPost req.limit.toNat) req.limit.toNat
        (pollTargets s.bridge w.order req) 0 [] = .ok frames) :
    Does H np w 6 payload s (.polled frames)
  | registered {op : UInt8} {payload url body raw : Bytes} {q : Register} {res : RegisterResponse}
      (hq : w.Registers np payload op q) (hbody : marshalRegister np q = .ok body)
      (hgets : w.Gets 1 url routeRegister body raw)
      (hres : unmarshalRegisterResponse np raw = .ok res) :
    Does H np w op payload s (registeredOutcome op (res, url))
  | resolved {payload : Bytes} {req : ResolveReq} {mid : ID} {url : Bytes}
      (hreq : unmarshalResolveReq np payload = .ok req)
      (hres : w.resolve np req.recipientPub (w.routerFor req.routerURL) = .ok (mid, url)) :
    Does H np w 10 payload s (.resolved mid.toList url)
  | created {payload : Bytes} {res : TransferCreateResponse} {bind : TransferBind}
      (hask : askShard H np (w.createWorld np payload) payload = .ok (res, bind)) :
    Does H np w 11 payload
      { s with xfer := (onXferCreate H np (w.createWorld np payload) s.xfer payload).1 }
      (.created ⟨res.transferID.toList, res.downloadSecret.toList, bind.shardURL, res.expiresAt⟩)
  | put {payload body raw : Bytes} {req : XferPut} {bind : TransferBind} {ack : ChunkAck}
      (hreq : unmarshalXferPut np payload = .ok req) (hbind : s.Bound req.transferID bind)
      (hbody : marshalChunkUpload np req.upload = .ok body)
      (hgets : w.Gets 1 bind.shardURL routeChunkPut body raw)
      (hres : unmarshalChunkAck np raw = .ok ack) :
    Does H np w 12 payload (s.lookedUp req.transferID) (.progress 12 ack.highestContiguous
      bind.chunkCount ack.missingRanges ack.bitmap ack.encoding)
  | resumed {payload url body raw : Bytes} {req : XferResume} {q : ResumeRequest}
      {res : ResumeResponse} {s' : Courier js} (hs : s' = s ∨ s' = s.lookedUp req.transferID)
      (hreq : unmarshalXferResume np payload = .ok req) (hgoes : req.Goes s url q)
      (hbody : marshalResumeRequest np q = .ok body) (hgets : w.Gets 1 url routeResume body raw)
      (hres : unmarshalResumeResponse np raw = .ok res) :
    Does H np w 13 payload s' (.progress 13 res.highestContiguous res.chunkCount
      res.missingRanges res.bitmap res.encoding)
  | got {payload url body raw : Bytes} {req : XferGet} {q : ChunkDownload}
      {res : ChunkDownloadResponse} {s' : Courier js} (hs : s' = s ∨ s' = s.lookedUp req.transferID)
      (hreq : unmarshalXferGet np payload = .ok req) (hgoes : req.Goes s url q)
      (hbody : marshalChunkDownload np q = .ok body) (hgets : w.Gets 1 url routeChunkGet body raw)
      (hres : unmarshalChunkDownloadResponse np raw = .ok res)
      (hhash : (H res.payload).toList = res.chunkHash) :
    Does H np w 14 payload s' (.chunk res.payload res.chunkHash)
  | completed {payload body raw : Bytes} {req : XferComplete} {bind : TransferBind}
      {nonce : ByteArr 16} {res : TransferCompleteResponse}
      (hreq : unmarshalXferComplete np payload = .ok req) (hbind : s.Bound req.transferID bind)
      (hbody : marshalTransferComplete np (w.completion req nonce) = .ok body)
      (hgets : w.Gets 1 bind.shardURL routeComplete body raw)
      (hres : unmarshalTransferCompleteResponse np raw = .ok res) :
    Does H np w 15 payload (s.lookedUp req.transferID) (.acked 15)
  | cancelled {payload body raw : Bytes} {req : XferCancel} {bind : TransferBind}
      (hreq : unmarshalXferCancel np payload = .ok req) (hbind : s.Bound req.transferID bind)
      (hbody : marshalTransferCancel np ⟨req.transferID, req.mailboxID, 0, req.readSecret⟩ =
        .ok body)
      (hgets : w.Gets 1 bind.shardURL routeCancel body raw) :
    Does H np w 16 payload (s.lookedUp req.transferID) (.acked 16)

/-! ### The handlers -/

variable {H : Bytes → Digest} {np : Codec} {w : CourierWorld s} {op : UInt8} {payload : Bytes}

theorem ofWire_eq_ok {α : Type} {x : Wire α} {a : α} : ofWire x = .ok a ↔ x = .ok a :=
  mapError_eq_ok_iff

theorem refuseIf_eq_ok {bad : Prop} [Decidable bad] {text : String} {u : Unit} :
    refuseIf bad text = .ok u ↔ ¬bad := by
  unfold refuseIf
  split_ifs with h
  · exact ⟨nofun, fun hn => absurd h hn⟩
  · exact ⟨fun _ => h, fun _ => rfl⟩

theorem xferAnswer_eq_ok {what : String} {x : Except String (ℕ × Bytes)} {raw : Bytes}
    (h : xferAnswer np what x = .ok raw) : x = .ok (200, raw) := by
  rcases x with e | ⟨st, raw'⟩
  · cases h
  · change (if st ≠ 200 then _ else Except.ok raw') = _ at h
    split_ifs at h with hst
    · split at h <;> cases h
    · cases h
      rw [not_not.mp hst]

/-- A handler that leaves the state alone fails, or does what its computation says. -/
theorem does_answered {x : Except BridgeError Outcome} {s' : Courier js}
    (hs : s' = s ∨ ∃ tid, s' = s.lookedUp tid)
    (h : ∀ o, x = .ok o → Does H np w op payload s' o) :
    Does H np w op payload s' (answered x) := by
  cases x with
  | error e => exact .failed _ e hs
  | ok o => exact h o rfl

theorem does_initialize :
    Does H np w 1 payload (onInitialize np w payload).1 (onInitialize np w payload).2 := by
  unfold onInitialize
  split
  · exact .initialized s.routerURL _
  · split_ifs
    · exact .initialized s.routerURL _
    · exact .initialized s.routerURL _
    · split
      · exact .initialized s.routerURL _
      · exact .initialized _ _
    · exact .initialized s.routerURL _

theorem does_startStop :
    Does H np w 2 payload (onStartStop np s payload).1 (onStartStop np s payload).2 := by
  unfold onStartStop
  split
  · exact .failed _ _ (.inl rfl)
  · exact .switched _

theorem does_send : Does H np w 3 payload s (onSend H np w payload) := by
  unfold onSend
  split_ifs
  · refine does_answered (.inl rfl) fun o ho => ?_
    obtain ⟨req, hreq, ho⟩ := bind_eq_ok_iff.mp ho
    obtain ⟨⟨mid, url⟩, htarget, ho⟩ := bind_eq_ok_iff.mp ho
    obtain ⟨⟨⟩, hpost, ho⟩ := bind_eq_ok_iff.mp ho
    cases ho
    obtain ⟨nonce, -, hpost⟩ := bind_eq_ok_iff.mp hpost
    obtain ⟨body, hbody, hpost⟩ := bind_eq_ok_iff.mp hpost
    obtain ⟨⟨st, raw⟩, hr, hpost⟩ := bind_eq_ok_iff.mp hpost
    split_ifs at hpost with hst
    · split at hpost <;> cases hpost
    · obtain rfl : st = 200 := not_not.mp hst
      exact .sent hreq htarget (ofWire_eq_ok.mp hbody) (mapError_eq_ok_iff.mp hr)
  · exact .failed _ _ (.inl rfl)

theorem does_attach :
    Does H np w 4 payload (onAttach np s payload).1 (onAttach np s payload).2 := by
  unfold onAttach
  split_ifs
  · split
    · exact .failed _ _ (.inl rfl)
    · rename_i req hreq
      exact .attached hreq
  · exact .failed _ _ (.inl rfl)

theorem does_detach :
    Does H np w 5 payload (onDetach np s payload).1 (onDetach np s payload).2 := by
  unfold onDetach
  split
  · exact .failed _ _ (.inl rfl)
  · exact .detached _

theorem does_poll : Does H np w 6 payload s (pollOutcome np w payload) := by
  unfold pollOutcome
  split_ifs
  · refine does_answered (.inl rfl) fun o ho => ?_
    obtain ⟨req, hreq, ho⟩ := bind_eq_ok_iff.mp ho
    obtain ⟨frames, hframes, ho⟩ := bind_eq_ok_iff.mp ho
    cases ho
    exact .polled (ofWire_eq_ok.mp hreq) hframes
  · exact .failed _ _ (.inl rfl)

theorem does_askRegister {what : String} {url : Bytes} {q : Register}
    {r : RegisterResponse × Bytes} (hq : w.Registers np payload op q)
    (h : w.askRegister np what url q = .ok r) :
    Does H np w op payload s (registeredOutcome op r) := by
  obtain ⟨body, hbody, h⟩ := bind_eq_ok_iff.mp h
  obtain ⟨raw, hraw, h⟩ := bind_eq_ok_iff.mp h
  obtain ⟨res, hres, h⟩ := bind_eq_ok_iff.mp h
  cases h
  exact .registered hq (ofWire_eq_ok.mp hbody) (xferAnswer_eq_ok hraw) (ofWire_eq_ok.mp hres)

theorem does_register : Does H np w 9 payload s (onRegister np w payload) := by
  refine does_answered (.inl rfl) fun o ho => ?_
  obtain ⟨r, hr, rfl⟩ := map_eq_ok_iff.mp ho
  obtain ⟨req, hreq, hr⟩ := bind_eq_ok_iff.mp hr
  obtain ⟨-, -, hr⟩ := bind_eq_ok_iff.mp hr
  obtain ⟨-, -, hr⟩ := bind_eq_ok_iff.mp hr
  obtain ⟨key, hkey, hr⟩ := bind_eq_ok_iff.mp hr
  obtain ⟨nonce, -, hr⟩ := bind_eq_ok_iff.mp hr
  exact does_askRegister (.scoped hreq (mapError_eq_ok_iff.mp hkey)) hr

theorem does_identityRegister : Does H np w 17 payload s (onIdentityRegister np w payload) := by
  refine does_answered (.inl rfl) fun o ho => ?_
  obtain ⟨r, hr, rfl⟩ := map_eq_ok_iff.mp ho
  obtain ⟨req, hreq, hr⟩ := bind_eq_ok_iff.mp hr
  obtain ⟨-, -, hr⟩ := bind_eq_ok_iff.mp hr
  exact does_askRegister (.identity hreq) hr

theorem does_resolve : Does H np w 10 payload s (onResolve np w payload) := by
  refine does_answered (.inl rfl) fun o ho => ?_
  obtain ⟨req, hreq, ho⟩ := bind_eq_ok_iff.mp ho
  obtain ⟨-, -, ho⟩ := bind_eq_ok_iff.mp ho
  obtain ⟨⟨mid, url⟩, hres, ho⟩ := bind_eq_ok_iff.mp ho
  cases ho
  exact .resolved hreq hres

theorem does_create :
    Does H np w 11 payload (onCreate H np w payload).1 (onCreate H np w payload).2 := by
  cases hask : askShard H np (w.createWorld np payload) payload with
  | error e =>
    have hfail : onXferCreate H np (w.createWorld np payload) s.xfer payload =
        (s.xfer, .error e) := by
      unfold onXferCreate
      rw [hask]
    unfold onCreate
    rw [hfail]
    exact .failed _ e (.inl rfl)
  | ok r =>
    have hout : (onXferCreate H np (w.createWorld np payload) s.xfer payload).2 =
        .ok ⟨r.1.transferID.toList, r.1.downloadSecret.toList, r.2.shardURL, r.1.expiresAt⟩ := by
      unfold onXferCreate
      rw [hask]
    unfold onCreate
    dsimp only
    rw [hout]
    exact .created hask

/-- The rule for a handler that goes by a binding. -/
theorem does_withBinding {α : Type} {req : Except BridgeError α} {transferID : α → Bytes}
    {body : α → Option TransferBind → Except BridgeError Outcome}
    (h : ∀ a o, req = .ok a → body a (bindFor s.xfer (transferID a)).2 = .ok o →
      Does H np w op payload (s.lookedUp (transferID a)) o) :
    Does H np w op payload (withBinding s req transferID body).1
      (withBinding s req transferID body).2 := by
  cases req with
  | error e => exact .failed _ e (.inl rfl)
  | ok a => exact does_answered (.inr ⟨transferID a, rfl⟩) fun o => h a o rfl

theorem boundTo_eq_ok {unknown : String} {b : Option TransferBind} {bind : TransferBind}
    (h : boundTo unknown b = .ok bind) : b = some bind := by
  cases b with
  | none => cases h
  | some b => exact congrArg some (Except.ok.inj h)

theorem boundMailbox_eq_ok {mailboxID : Bytes} {b : Option TransferBind} {bind : TransferBind}
    (h : boundMailbox mailboxID b = .ok bind) : b = some bind := by
  obtain ⟨bind', hb, h⟩ := bind_eq_ok_iff.mp h
  obtain ⟨-, -, h⟩ := bind_eq_ok_iff.mp h
  cases h
  exact boundTo_eq_ok hb

theorem does_xferPut :
    Does H np w 12 payload (onXferPut np w payload).1 (onXferPut np w payload).2 := by
  refine does_withBinding fun req o hreq ho => ?_
  obtain ⟨bind, hbind, ho⟩ := bind_eq_ok_iff.mp ho
  obtain ⟨body, hbody, ho⟩ := bind_eq_ok_iff.mp ho
  obtain ⟨raw, hraw, ho⟩ := bind_eq_ok_iff.mp ho
  obtain ⟨ack, hack, ho⟩ := bind_eq_ok_iff.mp ho
  cases ho
  exact .put hreq (boundTo_eq_ok hbind) (ofWire_eq_ok.mp hbody) (xferAnswer_eq_ok hraw)
    (ofWire_eq_ok.mp hack)

theorem does_resumeVia {req : XferResume} {url : Bytes} {q : ResumeRequest} {s' : Courier js}
    {o : Outcome} (hs : s' = s ∨ s' = s.lookedUp req.transferID)
    (hreq : unmarshalXferResume np payload = .ok req) (hgoes : req.Goes s url q)
    (h : w.resumeVia np url q = .ok o) : Does H np w 13 payload s' o := by
  obtain ⟨body, hbody, h⟩ := bind_eq_ok_iff.mp h
  obtain ⟨raw, hraw, h⟩ := bind_eq_ok_iff.mp h
  obtain ⟨res, hres, h⟩ := bind_eq_ok_iff.mp h
  cases h
  exact .resumed hs hreq hgoes (ofWire_eq_ok.mp hbody) (xferAnswer_eq_ok hraw)
    (ofWire_eq_ok.mp hres)

theorem does_xferResume :
    Does H np w 13 payload (onXferResume np w payload).1 (onXferResume np w payload).2 := by
  unfold onXferResume
  split
  · exact .failed _ _ (.inl rfl)
  · rename_i req hreq
    split_ifs with hticket
    · refine does_answered (.inl rfl) fun o ho => ?_
      obtain ⟨-, -, ho⟩ := bind_eq_ok_iff.mp ho
      exact does_resumeVia (.inl rfl) hreq (.ticket hticket) ho
    · refine does_withBinding fun req' o hreq' ho => ?_
      cases hreq'
      obtain ⟨bind, hbind, ho⟩ := bind_eq_ok_iff.mp ho
      exact does_resumeVia (.inr rfl) hreq (.owner (boundMailbox_eq_ok hbind)) ho

theorem does_getVia {req : XferGet} {url : Bytes} {q : ChunkDownload} {s' : Courier js}
    {o : Outcome} (hs : s' = s ∨ s' = s.lookedUp req.transferID)
    (hreq : unmarshalXferGet np payload = .ok req) (hgoes : req.Goes s url q)
    (h : w.getVia H np url q = .ok o) : Does H np w 14 payload s' o := by
  obtain ⟨body, hbody, h⟩ := bind_eq_ok_iff.mp h
  obtain ⟨raw, hraw, h⟩ := bind_eq_ok_iff.mp h
  obtain ⟨res, hres, h⟩ := bind_eq_ok_iff.mp h
  obtain ⟨⟨⟩, hhash, h⟩ := bind_eq_ok_iff.mp h
  cases h
  exact .got hs hreq hgoes (ofWire_eq_ok.mp hbody) (xferAnswer_eq_ok hraw) (ofWire_eq_ok.mp hres)
    (hexEncode_inj (not_not.mp (refuseIf_eq_ok.mp hhash)))

theorem does_xferGet :
    Does H np w 14 payload (onXferGet H np w payload).1 (onXferGet H np w payload).2 := by
  unfold onXferGet
  split
  · exact .failed _ _ (.inl rfl)
  · rename_i req hreq
    split_ifs with hticket
    · refine does_answered (.inl rfl) fun o ho => ?_
      obtain ⟨-, -, ho⟩ := bind_eq_ok_iff.mp ho
      exact does_getVia (.inl rfl) hreq (.ticket hticket) ho
    · refine does_withBinding fun req' o hreq' ho => ?_
      cases hreq'
      obtain ⟨bind, hbind, ho⟩ := bind_eq_ok_iff.mp ho
      exact does_getVia (.inr rfl) hreq (.owner (boundMailbox_eq_ok hbind)) ho

theorem does_xferComplete :
    Does H np w 15 payload (onXferComplete np w payload).1 (onXferComplete np w payload).2 := by
  refine does_withBinding fun req o hreq ho => ?_
  obtain ⟨bind, hbind, ho⟩ := bind_eq_ok_iff.mp ho
  obtain ⟨nonce, -, ho⟩ := bind_eq_ok_iff.mp ho
  obtain ⟨body, hbody, ho⟩ := bind_eq_ok_iff.mp ho
  obtain ⟨raw, hraw, ho⟩ := bind_eq_ok_iff.mp ho
  obtain ⟨res, hres, ho⟩ := bind_eq_ok_iff.mp ho
  cases ho
  exact .completed hreq (boundTo_eq_ok hbind) (ofWire_eq_ok.mp hbody) (xferAnswer_eq_ok hraw)
    (ofWire_eq_ok.mp hres)

theorem does_xferCancel :
    Does H np w 16 payload (onXferCancel np w payload).1 (onXferCancel np w payload).2 := by
  refine does_withBinding fun req o hreq ho => ?_
  obtain ⟨bind, hbind, ho⟩ := bind_eq_ok_iff.mp ho
  obtain ⟨body, hbody, ho⟩ := bind_eq_ok_iff.mp ho
  obtain ⟨raw, hraw, ho⟩ := bind_eq_ok_iff.mp ho
  cases ho
  exact .cancelled hreq (boundMailbox_eq_ok hbind) (ofWire_eq_ok.mp hbody) (xferAnswer_eq_ok hraw)

theorem does_ite {c : Prop} [Decidable c] {x y : Courier js × Outcome}
    (hx : c → Does H np w op payload x.1 x.2) (hy : ¬c → Does H np w op payload y.1 y.2) :
    Does H np w op payload (if c then x else y).1 (if c then x else y).2 := by
  split_ifs with h
  · exact hx h
  · exact hy h

/-- Every request does what `Does` says. -/
theorem does_dispatch (w : CourierWorld s) (op : UInt8) (payload : Bytes) :
    Does H np w op payload (dispatch H np w op payload).1 (dispatch H np w op payload).2 := by
  unfold dispatch
  refine does_ite (fun h => h ▸ does_initialize) fun _ => ?_
  refine does_ite (fun h => h ▸ .capabilities) fun _ => ?_
  refine does_ite (fun h => h ▸ does_startStop) fun _ => ?_
  refine does_ite (fun h => h ▸ does_send) fun _ => ?_
  refine does_ite (fun h => h ▸ does_attach) fun _ => ?_
  refine does_ite (fun h => h ▸ does_detach) fun _ => ?_
  refine does_ite (fun h => h ▸ does_poll) fun _ => ?_
  refine does_ite (fun h => h ▸ .status) fun _ => ?_
  refine does_ite (fun h => h ▸ does_register) fun _ => ?_
  refine does_ite (fun h => h ▸ does_identityRegister) fun _ => ?_
  refine does_ite (fun h => h ▸ does_resolve) fun _ => ?_
  refine does_ite (fun h => h ▸ does_create) fun _ => ?_
  refine does_ite (fun h => h ▸ does_xferPut) fun _ => ?_
  refine does_ite (fun h => h ▸ does_xferResume) fun _ => ?_
  refine does_ite (fun h => h ▸ does_xferGet) fun _ => ?_
  refine does_ite (fun h => h ▸ does_xferComplete) fun _ => ?_
  refine does_ite (fun h => h ▸ does_xferCancel) fun _ => ?_
  exact .failed _ _ (.inl rfl)

end Does

/-! ## Sessions -/

section Sessions

/-- What reaches a bridge : a request of the core with what it finds outside, or a new process. -/
inductive CourierInput (js : BindingsJSON)
  | request (world : (s : Courier js) → CourierWorld s) (op : UInt8) (payload : Bytes)
  | restart

variable {js : BindingsJSON}

/-- The operation and the payload of a request. -/
def CourierInput.asked : CourierInput js → Option (UInt8 × Bytes)
  | request _ op payload => some (op, payload)
  | restart => none

/-- `main` of the bridge over the files the last process left. -/
def Courier.restart (s : Courier js) : Courier js :=
  ⟨⟨false, ∅⟩, ∅, [], s.xfer.restart⟩

variable (js) in
/-- The first process. -/
def newCourier : Courier js :=
  ⟨⟨false, ∅⟩, ∅, [], newXferState js⟩

/-- The bridge as a machine. -/
def courier (H : Bytes → Digest) (np : Codec) (js : BindingsJSON) :
    Machine (Courier js) (CourierInput js) (Option Outcome) where
  step s
    | .request world op payload =>
      ((dispatch H np (world s) op payload).1, some (dispatch H np (world s) op payload).2)
    | .restart => (s.restart, none)

/-- A request of a session with its reply. -/
abbrev CourierTurn (js : BindingsJSON) := CourierInput js × Option Outcome

variable (np : Codec)

/-- The request attaches a mailbox. -/
def Attaches (tr : List (CourierTurn js)) (req : AttachReq) : Prop :=
  ∃ world payload, (.request world 4 payload, some (.acked 4)) ∈ tr ∧
    unmarshalAttach np payload = .ok req

/-- A transfer was created, with what the core was told. -/
def Creates (tr : List (CourierTurn js)) (r : XferCreated) : Prop :=
  ∃ world payload, (.request world 11 payload, some (.created r)) ∈ tr

/-- The servers of all creates have URLs that JSON keeps. -/
def PlainURLs (tr : List (CourierTurn js)) : Prop :=
  ∀ r, Creates tr r → ValidUTF8 r.shardURL

/-- What the bridge knows it was told in the session : the mailboxes by the core, the bindings by
the server that answered the create. -/
structure Known (tr : List (CourierTurn js)) (s : Courier js) : Prop where
  attached : ∀ id mb, s.bridge.mailboxes.lookup id = some mb → ∃ req, Attaches np tr req ∧
    req.mailboxID = id ∧ mb = ⟨req.readSecret, req.shardURL⟩
  bound : ∃ rec, Tracks rec s.xfer ∧ ∀ tid bind, rec (hexEncode tid) = some bind →
    ∃ r, Creates tr r ∧ r.transferID = tid ∧ r.shardURL = bind.shardURL

variable {np : Codec} {H : Bytes → Digest} {tr : List (CourierTurn js)} {s s' : Courier js}

theorem Attaches.mono {tr' : List (CourierTurn js)} {req : AttachReq} (h : Attaches np tr req)
    (hsub : tr ⊆ tr') : Attaches np tr' req := by
  obtain ⟨world, payload, hmem, hreq⟩ := h
  exact ⟨world, payload, hsub hmem, hreq⟩

theorem Creates.mono {tr' : List (CourierTurn js)} {r : XferCreated} (h : Creates tr r)
    (hsub : tr ⊆ tr') : Creates tr' r := by
  obtain ⟨world, payload, hmem⟩ := h
  exact ⟨world, payload, hsub hmem⟩

theorem Known.mono {tr' : List (CourierTurn js)} (h : Known np tr s) (hsub : tr ⊆ tr') :
    Known np tr' s where
  attached id mb hid := by
    obtain ⟨req, hreq, hrest⟩ := h.attached id mb hid
    exact ⟨req, hreq.mono hsub, hrest⟩
  bound := by
    obtain ⟨rec, ht, hrec⟩ := h.bound
    refine ⟨rec, ht, fun tid bind hb => ?_⟩
    obtain ⟨r, hr, hrest⟩ := hrec tid bind hb
    exact ⟨r, hr.mono hsub, hrest⟩

/-- A turn that attaches and creates nothing. -/
theorem Known.quiet (H : Bytes → Digest) (h : Known np tr s) (hjs : js.Lawful)
    (hmb : ∀ id mb, s'.bridge.mailboxes.lookup id = some mb →
      s.bridge.mailboxes.lookup id = some mb)
    (hx : s'.xfer = s.xfer ∨ s'.xfer = s.xfer.restart ∨ ∃ tid, s'.xfer = (bindFor s.xfer tid).1) :
    Known np tr s' where
  attached id mb hid := h.attached id mb (hmb id mb hid)
  bound := by
    obtain ⟨rec, ht, hrec⟩ := h.bound
    refine ⟨rec, ?_, hrec⟩
    rcases hx with hx | hx | ⟨tid, hx⟩
    · rwa [hx]
    · rw [hx]
      exact tracks_step H np hjs ht (show ValidURL H np .restart from fun _ _ _ _ h => nomatch h)
    · rw [hx]
      exact tracks_step H np hjs ht
        (show ValidURL H np (.lookup tid) from fun _ _ _ _ h => nomatch h)

/-- A request keeps the bridge to what it was told. -/
theorem known_does (hjs : js.Lawful) (h : Known np tr s)
    {world : (s : Courier js) → CourierWorld s} {op : UInt8} {payload : Bytes} {o : Outcome}
    (hdoes : Does H np (world s) op payload s' o)
    (hplain : PlainURLs (tr ++ [(.request world op payload, some o)])) :
    Known np (tr ++ [(.request world op payload, some o)]) s' := by
  have hsub : tr ⊆ tr ++ [(.request world op payload, some o)] := List.subset_append_left _ _
  replace h := h.mono hsub
  have hsame : ∀ {s' : Courier js}, s'.bridge.mailboxes = s.bridge.mailboxes →
      (s'.xfer = s.xfer ∨ ∃ tid, s'.xfer = (bindFor s.xfer tid).1) →
      Known np (tr ++ [(.request world op payload, some o)]) s' :=
    fun hmb hx => h.quiet H hjs (fun _ _ hid => hmb ▸ hid) (hx.imp_right .inr)
  cases hdoes with
  | failed code e hs =>
    rcases hs with rfl | ⟨tid, rfl⟩
    · exact hsame rfl (.inl rfl)
    · exact hsame rfl (.inr ⟨tid, rfl⟩)
  | initialized | capabilities | status | switched | sent | polled | registered | resolved =>
    exact hsame rfl (.inl rfl)
  | put | completed | cancelled => exact hsame rfl (.inr ⟨_, rfl⟩)
  | resumed hs | got hs =>
    rcases hs with rfl | rfl
    · exact hsame rfl (.inl rfl)
    · exact hsame rfl (.inr ⟨_, rfl⟩)
  | detached id =>
    refine h.quiet H hjs (fun id' mb hid => ?_) (.inl rfl)
    change (s.bridge.mailboxes.erase id).lookup id' = some mb at hid
    by_cases hne : id' = id
    · rw [hne, Finmap.lookup_erase] at hid
      cases hid
    · rwa [Finmap.lookup_erase_ne hne] at hid
  | @attached payload req hreq =>
    refine ⟨fun id mb hid => ?_, h.bound⟩
    change (s.bridge.mailboxes.insert req.mailboxID _).lookup id = some mb at hid
    rw [GoMap.lookup_insert_eq] at hid
    split_ifs at hid with hne
    · cases hid
      exact ⟨req, ⟨world, payload, List.mem_append_right _ List.mem_cons_self, hreq⟩, hne.symm,
        rfl⟩
    · exact h.attached id mb hid
  | @created payload res bind hask =>
    have hnew : Creates (tr ++ [(.request world 11 payload, some (.created
        ⟨res.transferID.toList, res.downloadSecret.toList, bind.shardURL, res.expiresAt⟩))])
        ⟨res.transferID.toList, res.downloadSecret.toList, bind.shardURL, res.expiresAt⟩ :=
      ⟨world, payload, List.mem_append_right _ List.mem_cons_self⟩
    refine ⟨h.attached, ?_⟩
    obtain ⟨rec, ht, hrec⟩ := h.bound
    have hurl : ValidURL H np (.create ((world s).createWorld np payload) payload) := by
      rintro w payload' res' bind' ⟨⟩ hask'
      cases hask.symm.trans hask'
      exact hplain _ hnew
    refine ⟨_, tracks_step H np hjs ht hurl, fun tid b hb => ?_⟩
    · rw [record_ok H np _ _ hask] at hb
      by_cases hid : tid = res.transferID.toList
      · rw [hid, Function.update_self] at hb
        cases hb
        exact ⟨_, hnew, hid.symm, rfl⟩
      · rw [Function.update_of_ne fun he => hid (hexEncode_inj he)] at hb
        exact hrec tid b hb

/-- The bridge makes nothing up, in any session. -/
theorem known_run (hjs : js.Lawful) (ins : List (CourierInput js))
    (hplain : PlainURLs ((courier H np js).trace (newCourier js) ins)) :
    Known np ((courier H np js).trace (newCourier js) ins)
      ((courier H np js).run (newCourier js) ins) := by
  induction ins using List.reverseRecOn with
  | nil =>
    refine ⟨fun id mb h => absurd h (GoMap.lookup_empty_ne_some id mb), fun _ => none, ?_, nofun⟩
    exact tracks_run H np hjs [] (by simp)
  | append_singleton ins x ih =>
    rw [Machine.trace_concat] at hplain ⊢
    rw [Machine.run_concat]
    have hsub := List.subset_append_left ((courier H np js).trace (newCourier js) ins)
      [(x, ((courier H np js).step ((courier H np js).run (newCourier js) ins) x).2)]
    have h := ih fun r hr => hplain r (hr.mono hsub)
    cases x with
    | request world op payload => exact known_does hjs h (does_dispatch _ op payload) hplain
    | restart =>
      exact (h.mono hsub).quiet H hjs
        (fun id mb hid => absurd hid (GoMap.lookup_empty_ne_some id mb)) (.inr (.inl rfl))

/-- A binding that a request goes by is that of a create of the session. -/
theorem Known.created_of_bound (h : Known np tr s) {tid : Bytes} {bind : TransferBind}
    (hb : s.Bound tid bind) : ∃ r, Creates tr r ∧ r.transferID = tid ∧
      r.shardURL = bind.shardURL := by
  obtain ⟨rec, ht, hrec⟩ := h.bound
  refine hrec tid bind (ht.inv.written _ _ ?_)
  have hget := congrArg Prod.snd (bindFor_get ht tid)
  dsimp only at hget
  rw [← WriteBack.get_eq ht.inv, ← hget]
  exact hb

end Sessions

end FileRelay
