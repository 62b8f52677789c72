import FileRelay.Addresses

/-!
# From bridge to bridge

The parties of the relay do not speak to it themselves. They tell a bridge what to do and see its
replies. A `Session` is a bridge at work while the relay runs : each of its requests falls between
two moments of the run, and what its servers answer in that time are answers of the run.

`bridges_deliver` says of files, in terms of the replies of two bridges alone, what `Files` says of
requests : whatever happens at the relay, and however often the bridges are restarted, chunks that
one bridge reported as put are the chunks the other hands over. `KeyMail` does it for messages.
-/

namespace FileRelay

open NanoPack (Codec layout)
open Pool (started history answers turns)
open Fallible

deriving instance DecidableEq for Outcome

namespace Deployment

variable (d : Deployment) {js : BindingsJSON}

/-- The requests of a bridge with its replies, from its first process on. -/
def session (ins : List (CourierInput js)) : List (CourierTurn js) :=
  (courier d.H d.np js).trace (newCourier js) ins

/-- A bridge at work while the relay runs. Its `n`-th request is served between the moments `n` and
`n + 1` of the run. -/
structure Session (locate : Locate) (es : List RelayEvent) (moment : ℕ → List RelayEvent)
    (ins : List (CourierInput js)) : Prop where
  later : ∀ n, moment n <+: moment (n + 1)
  within : ∀ n, moment n <+: es
  wired : ∀ n world op payload, ins[n]? = some (.request world op payload) →
    ∀ s, d.Wired locate (moment n) (moment (n + 1)) (world s)
  plain : PlainURLs (d.session ins)

variable {d} {locate : Locate} {es : List RelayEvent} {moment : ℕ → List RelayEvent}
  {ins : List (CourierInput js)}

/-- What a request of a session did, what the bridge knew, and when it was. -/
theorem Session.turn_at (h : d.Session locate es moment ins) (hjs : js.Lawful)
    {pre post : List (CourierInput js)} {world : (s : Courier js) → CourierWorld s} {op : UInt8}
    {payload : Bytes} (hins : ins = pre ++ .request world op payload :: post) : ∃ s s' o,
      (courier d.H d.np js).step ((courier d.H d.np js).run (newCourier js) pre)
        (.request world op payload) = (s', some o) ∧
      Known d.np (d.session ins) s ∧ Does d.H d.np (world s) op payload s' o ∧
      d.Wired locate (moment pre.length) (moment (pre.length + 1)) (world s) := by
  subst hins
  have hsub : (courier d.H d.np js).trace (newCourier js) pre ⊆
      d.session (pre ++ .request world op payload :: post) := by
    rw [session, Machine.trace_append]
    exact List.subset_append_left _ _
  have hknown := (known_run hjs pre fun r hr => h.plain r (hr.mono hsub)).mono hsub
  exact ⟨_, _, _, rfl, hknown, does_dispatch _ op payload,
    h.wired pre.length world op payload (by simp) _⟩

/-- What a request of a session did, and what the bridge knew. -/
theorem Session.turn (h : d.Session locate es moment ins) (hjs : js.Lawful)
    {world : (s : Courier js) → CourierWorld s} {op : UInt8} {payload : Bytes} {o : Outcome}
    (hmem : (.request world op payload, some o) ∈ d.session ins) : ∃ s s',
      Known d.np (d.session ins) s ∧ Does d.H d.np (world s) op payload s' o ∧
      d.Wired locate [] es (world s) := by
  obtain ⟨pre, post, hins, ho⟩ := Machine.mem_trace.mp hmem
  obtain ⟨s, s', o', hstep, hknown, hdoes, hw⟩ := h.turn_at hjs hins
  rw [hstep] at ho
  cases ho
  exact ⟨s, s', hknown, hdoes, hw.mono (h.within _)⟩

/-- A session replies to what has reached it. -/
theorem asked_of_session {world : (s : Courier js) → CourierWorld s} {op : UInt8} {payload : Bytes}
    {o : Option Outcome} (h : (.request world op payload, o) ∈ d.session ins) :
    some (op, payload) ∈ ins.map CourierInput.asked := by
  obtain ⟨pre, post, rfl, -⟩ := Machine.mem_trace.mp h
  exact List.mem_map_of_mem (List.mem_append_right _ List.mem_cons_self)

/-- The reply to the `n`-th request. -/
theorem mem_session {n : ℕ} {x : CourierInput js} {o : Option Outcome} (hin : ins[n]? = some x)
    (hout : ((d.session ins).map Prod.snd)[n]? = some o) : (x, o) ∈ d.session ins := by
  rw [List.getElem?_map] at hout
  obtain ⟨y, hy, rfl⟩ := Option.map_eq_some_iff.mp hout
  have hfst : ((d.session ins).map Prod.fst)[n]? = some y.1 := by
    rw [List.getElem?_map, hy]
    rfl
  rw [session, Machine.map_fst_trace, hin] at hfst
  obtain rfl := Option.some.inj hfst
  exact List.mem_of_getElem? hy

theorem outcome_of_creates {r : XferCreated} (h : Creates (d.session ins) r) :
    some (.created r) ∈ (d.session ins).map Prod.snd := by
  obtain ⟨world, payload, hmem⟩ := h
  exact List.mem_map_of_mem hmem

/-! ## Files -/

section Files

variable (d) (ins)

/-- A chunk was put through the bridge, as the bridge says. -/
def BridgePut (tid : ID) (index : ℕ) (p : Bytes) : Prop :=
  ∃ world payload o req, (.request world 12 payload, some o) ∈ d.session ins ∧
    (∀ code e, o ≠ .failed code e) ∧ unmarshalXferPut d.np payload = .ok req ∧
    req.transferID = tid.toList ∧ req.index.toNat = index ∧ req.payload = p

/-- The bridge has handed a chunk over. -/
def BridgeGot (tid : ID) (index : ℕ) (p : Bytes) : Prop :=
  ∃ world payload hash req, (.request world 14 payload, some (.chunk p hash)) ∈ d.session ins ∧
    unmarshalXferGet d.np payload = .ok req ∧ req.transferID = tid.toList ∧
    req.index.toNat = index

/-- A transfer was created through the bridge, as the bridge says. -/
def BridgeCreated (tid : ID) (req : XferCreate) : Prop :=
  ∃ world payload r, (.request world 11 payload, some (.created r)) ∈ d.session ins ∧
    unmarshalXferCreate d.np payload = .ok req ∧ r.transferID = tid.toList

/-- The servers that the session knows for the transfer are shard `i` : the one that answered its
create and the one that the core names to a bridge with a ticket. -/
structure Reaches (locate : Locate) (tid : ID) (i : ℕ) : Prop where
  created : ∀ r, Creates (d.session ins) r → r.transferID = tid.toList → ShardAt locate r.shardURL i
  named : ∀ world payload o req, (.request world 14 payload, some o) ∈ d.session ins →
    unmarshalXferGet d.np payload = .ok req → req.transferID = tid.toList →
    req.ticket.length = 32 → ShardAt locate req.shardURL i

variable {d} {ins} {tid : ID} {i : ℕ}

theorem uploaded_of_bridgePut (hnp : d.np.Lawful) (hjs : js.Lawful)
    (h : d.Session locate es moment ins) (hat : d.Reaches ins locate tid i) {index : ℕ} {p : Bytes}
    (hput : d.BridgePut ins tid index p) : ∃ k, d.Uploaded es i tid k index p := by
  obtain ⟨world, payload, o, req, hmem, hok, hreq, hid, rfl, rfl⟩ := hput
  obtain ⟨s, s', hknown, hdoes, hw⟩ := h.turn hjs hmem
  obtain ⟨req', bind, hreq', hbind, hup⟩ := uploaded_of_put hnp hw hdoes hok
  cases hreq.symm.trans hreq'
  obtain ⟨r, hr, hrid, hurl⟩ := hknown.created_of_bound hbind
  have hup := hup i (hurl ▸ hat.created r hr (hrid.trans hid))
  rwa [hid, copyArr_self] at hup

theorem downloaded_of_bridgeGot (hnp : d.np.Lawful) (hjs : js.Lawful)
    (h : d.Session locate es moment ins) (hat : d.Reaches ins locate tid i) {index : ℕ} {p : Bytes}
    (hgot : d.BridgeGot ins tid index p) : ∃ k, d.Downloaded es i tid k index p := by
  obtain ⟨world, payload, hash, req, hmem, hreq, hid, rfl⟩ := hgot
  obtain ⟨s, s', hknown, hdoes, hw⟩ := h.turn hjs hmem
  obtain ⟨req', url, q, hreq', hgoes, hdown⟩ := downloaded_of_got hnp hw hdoes
  cases hreq.symm.trans hreq'
  have hurl : ShardAt locate url i := by
    cases hgoes with
    | ticket ht => exact hat.named world payload _ req hmem hreq hid ht
    | owner hb =>
      obtain ⟨r, hr, hrid, hurl⟩ := hknown.created_of_bound hb
      exact hurl ▸ hat.created r hr (hrid.trans hid)
  have hdown := hdown i hurl
  rwa [hid, copyArr_self] at hdown

theorem created_of_bridgeCreated (hnp : d.np.Lawful) (hjs : js.Lawful)
    (h : d.Session locate es moment ins) (hat : d.Reaches ins locate tid i) {req : XferCreate}
    (hcreated : d.BridgeCreated ins tid req) : ∃ k q ticket, d.Created es i tid k q ticket ∧
      q.totalSize = req.total ∧ q.chunkCount = req.chunkCount := by
  obtain ⟨world, payload, r, hmem, hreq, hid⟩ := hcreated
  obtain ⟨s, s', -, hdoes, hw⟩ := h.turn hjs hmem
  obtain ⟨req', q, tid', ticket, hreq', hid', -, htotal, hcount, hmade⟩ :=
    created_of_does hnp hw hdoes
  cases hreq.symm.trans hreq'
  obtain rfl : tid' = tid := List.Vector.eq _ _ (hid'.symm.trans hid)
  obtain ⟨k, hk⟩ := hmade i (hat.created r ⟨world, payload, hmem⟩ hid)
  exact ⟨k, q, ticket, hk, htotal, hcount⟩

/-- What the cores behind two bridges can rely on. -/
structure BridgesDeliver (d : Deployment) (es : List RelayEvent) (i : ℕ) (tid : ID)
    (sender reader : List (CourierInput js)) : Prop where
  /-- Both see the same chunks. -/
  same : ∀ {index p p'}, d.BridgeGot sender tid index p → d.BridgeGot reader tid index p' → p = p'
  /-- The file has the size that was announced. -/
  size : ∀ {req} {out : ℕ → Bytes}, d.BridgeCreated sender tid req →
    (∀ index < req.chunkCount.toNat, d.BridgeGot reader tid index (out index)) →
    ((List.range req.chunkCount.toNat).map out).flatten.length = req.total.toNat
  /-- The file that was put is the file that is handed over. -/
  data : ∀ {data : Bytes} {size : ℤ} {pieces : List Bytes} {out : ℕ → Bytes},
    d.PayloadsApart es i → splitOpaque data size = .ok pieces →
    (∀ index p, pieces[index]? = some p → d.BridgePut sender tid index p) →
    (∀ index < pieces.length, d.BridgeGot reader tid index (out index)) →
    ((List.range pieces.length).map out).flatten = data

/-- A file that one bridge takes in is the file that another bridge hands over. -/
theorem bridges_deliver (d : Deployment) (hnp : d.np.Lawful) (hjs : js.Lawful) (locate : Locate)
    (es : List RelayEvent) (i : ℕ) (tid : ID) (hfresh : d.NoIDTwice es i)
    {moment moment' : ℕ → List RelayEvent} {sender reader : List (CourierInput js)}
    (hs : d.Session locate es moment sender) (hr : d.Session locate es moment' reader)
    (hsat : d.Reaches sender locate tid i) (hrat : d.Reaches reader locate tid i) :
    d.BridgesDeliver es i tid sender reader where
  same h h' := by
    obtain ⟨k, hk⟩ := downloaded_of_bridgeGot hnp hjs hs hsat h
    obtain ⟨k', hk'⟩ := downloaded_of_bridgeGot hnp hjs hr hrat h'
    exact heldChunk_unique hfresh (heldChunk_of_downloaded hnp hk) (heldChunk_of_downloaded hnp hk')
  size hcreated hall := by
    obtain ⟨k, q, ticket, hk, htotal, hcount⟩ := created_of_bridgeCreated hnp hjs hs hsat hcreated
    rw [← hcount] at hall
    rw [← htotal, ← hcount]
    exact size_eq hnp hfresh hk fun index hi =>
      downloaded_of_bridgeGot hnp hjs hr hrat (hall index hi)
  data hapart hsplit hput hget :=
    data_eq hnp hfresh hapart hsplit
      (fun index p hp => uploaded_of_bridgePut hnp hjs hs hsat (hput index p hp))
      fun index hi => downloaded_of_bridgeGot hnp hjs hr hrat (hget index hi)

end Files

/-! ## Two bridges -/

/-- The shard has the URL `a`, the router the URL `r`. -/
def sampleLocate : Locate
  | 97 :: path => some (.shard 0, path)
  | 114 :: path => some (.router, path)
  | _ => none

/-- A request of a bridge. -/
def bridgePost (route : Route) (body : Wire Bytes) : HTTPRequest :=
  posted route.path (body.toOption.getD [])

/-- A registration, then a transfer to its mailbox, its two chunks, and reads of them by the sender
and by somebody else, as bridges ask for them. -/
def sampleShared : List RelayEvent :=
  let put (index : UInt32) (p : Bytes) : Host × HTTPRequest :=
    (.shard 0, bridgePost .put (marshalChunkUpload NanoPack.reference
      (sampleChunk index p (copyArr 32 p).toList)))
  let get (index : UInt32) : Host × HTTPRequest :=
    (.shard 0, bridgePost .get (marshalChunkDownload NanoPack.reference (sampleGet index)))
  inTurn sampleEnv
    [(.router, bridgePost .register (marshalRegister NanoPack.reference sampleRegister)),
      (.shard 0, bridgePost .create (marshalTransferCreate NanoPack.reference
        { sampleTransfer with mailboxID := sampleMessage.mailboxID })),
      put 1 [3], put 0 [1, 2], get 1, get 0, get 1, get 0]

/-- The moment at which request `k` arrives. -/
def sampleMoment (k : ℕ) : List RelayEvent :=
  sampleShared.take (7 * k)

/-- What a bridge finds outside that makes request `k` of a run. -/
noncomputable def sampleWorld (es : List RelayEvent) (k : ℕ) (s : Courier .reference) :
    CourierWorld s where
  order := ⟨s.bridge.mailboxes.entries.toList, Multiset.coe_toList _⟩
  routerOrder := ⟨s.routers.entries.toList, Multiset.coe_toList _⟩
  config _ := none
  post _ := sampleDeployment.replyOf sampleLocate es k
  nonce := .ok (copyArr 16 [])
  timestamp := 100000
  courierPub := copyArr 32 []
  sign _ := copyArr 64 []
  scopedKey _ := .error "no key"

/-- A bridge that makes the requests of the run from number `k` on. -/
noncomputable def sampleBridge (k : ℕ) (reqs : List (UInt8 × Bytes)) :
    List (CourierInput .reference) :=
  reqs.zipIdx.map fun x =>
    .request (sampleWorld (sampleMoment (k + x.2 + 1)) (k + x.2)) x.1.1 x.1.2

def samplePutPayload (index : UInt32) (p : Bytes) : Bytes :=
  layout [⟨1, sampleID.toList⟩, ⟨2, putU32 index⟩, ⟨3, p⟩, ⟨4, (copyArr 32 p).toList⟩,
    ⟨5, putU64 (index.toUInt64 * 2)⟩]

/-- A read with the ticket. -/
def sampleGetPayload (index : UInt32) : Bytes :=
  layout [⟨1, sampleID.toList⟩, ⟨2, putU32 index⟩, ⟨5, sampleTicket.toList⟩, ⟨6, ascii "a"⟩]

def sampleCreatePayload : Bytes :=
  layout [⟨1, putU64 3⟩, ⟨2, putU32 2⟩, ⟨3, putU32 2⟩, ⟨5, sampleMessage.mailboxID⟩, ⟨7, ascii "a"⟩]

/-- A bridge that creates the transfer, puts the chunks and reads them back. -/
noncomputable def sampleSender : List (CourierInput .reference) :=
  sampleBridge 1 [(11, sampleCreatePayload), (12, samplePutPayload 1 [3]),
    (12, samplePutPayload 0 [1, 2]), (14, sampleGetPayload 1), (14, sampleGetPayload 0)]

/-- A bridge that reads the chunks. -/
noncomputable def sampleReader : List (CourierInput .reference) :=
  sampleBridge 6 [(14, sampleGetPayload 1), (14, sampleGetPayload 0)]

/-- What the two bridges answer. -/
theorem outcomes_sampleBridges :
    (sampleDeployment.session sampleSender).map Prod.snd =
      [some (.created ⟨sampleID.toList, sampleTicket.toList, ascii "a", 86500000⟩),
        some (.progress 12 0 2 [] [2] 0), some (.progress 12 2 2 [] [3] 0),
        some (.chunk [3] (copyArr 32 [3]).toList),
        some (.chunk [1, 2] (copyArr 32 [1, 2]).toList)] ∧
    (sampleDeployment.session sampleReader).map Prod.snd =
      [some (.chunk [3] (copyArr 32 [3]).toList),
        some (.chunk [1, 2] (copyArr 32 [1, 2]).toList)] := by
  decide +kernel

theorem shardAt_sampleLocate : ShardAt sampleLocate (ascii "a") 0 := by
  intro route _
  cases route <;> rfl

theorem wired_sampleWorld {before after : List RelayEvent} {k : ℕ}
    (hk : (started before).length ≤ k) (s : Courier .reference) :
    sampleDeployment.Wired sampleLocate before after (sampleWorld after k s) :=
  wired_of_replyOf hk fun _ => rfl

theorem length_started_sampleMoment (k : ℕ) : (started (sampleMoment k)).length ≤ k := by
  rcases Nat.lt_or_ge k 8 with hk | hk
  · revert k
    decide
  · have hall : sampleMoment k = sampleShared :=
      List.take_of_length_le ((by decide : sampleShared.length ≤ 7 * 8).trans
        (Nat.mul_le_mul_left 7 hk))
    rw [hall]
    exact (by decide : (started sampleShared).length ≤ 8).trans hk

theorem session_sampleBridge {k : ℕ} {reqs : List (UInt8 × Bytes)}
    (h : PlainURLs (sampleDeployment.session (sampleBridge k reqs))) :
    sampleDeployment.Session sampleLocate sampleShared (fun n => sampleMoment (k + n))
      (sampleBridge k reqs) where
  later n := List.take_prefix_take_left (by omega)
  within n := List.take_prefix _ _
  wired n world op payload hin s := by
    rw [sampleBridge, List.getElem?_map, List.getElem?_zipIdx] at hin
    obtain ⟨x, hx, hreq⟩ := Option.map_eq_some_iff.mp hin
    obtain ⟨req, -, rfl⟩ := Option.map_eq_some_iff.mp hx
    cases hreq
    rw [Nat.zero_add]
    exact wired_sampleWorld (length_started_sampleMoment (k + n)) s
  plain := h

theorem shardURL_sampleSender {r : XferCreated}
    (h : Creates (sampleDeployment.session sampleSender) r) : r.shardURL = ascii "a" := by
  have hout := outcome_of_creates h
  rw [outcomes_sampleBridges.1] at hout
  simp only [List.mem_cons, Option.some.injEq, Outcome.created.injEq, reduceCtorEq,
    List.not_mem_nil, or_false] at hout
  rw [hout]

theorem not_creates_sampleReader (r : XferCreated) :
    ¬Creates (sampleDeployment.session sampleReader) r := by
  intro h
  have hout := outcome_of_creates h
  rw [outcomes_sampleBridges.2] at hout
  simp at hout

theorem session_sampleSender : sampleDeployment.Session sampleLocate sampleShared
    (fun n => sampleMoment (1 + n)) sampleSender :=
  session_sampleBridge fun r hr => by
    rw [shardURL_sampleSender hr]
    exact ⟨"a", rfl⟩

theorem session_sampleReader : sampleDeployment.Session sampleLocate sampleShared
    (fun n => sampleMoment (6 + n)) sampleReader :=
  session_sampleBridge fun r hr => absurd hr (not_creates_sampleReader r)

theorem unmarshal_samplePayloads :
    unmarshalXferCreate NanoPack.reference sampleCreatePayload =
      .ok ⟨3, 2, 2, [], sampleMessage.mailboxID, [], ascii "a"⟩ ∧
    unmarshalXferPut NanoPack.reference (samplePutPayload 0 [1, 2]) =
      .ok ⟨sampleID.toList, 0, [1, 2], (copyArr 32 [1, 2]).toList, 0⟩ ∧
    unmarshalXferPut NanoPack.reference (samplePutPayload 1 [3]) =
      .ok ⟨sampleID.toList, 1, [3], (copyArr 32 [3]).toList, 2⟩ ∧
    unmarshalXferGet NanoPack.reference (sampleGetPayload 0) =
      .ok ⟨sampleID.toList, 0, [], [], sampleTicket.toList, ascii "a"⟩ ∧
    unmarshalXferGet NanoPack.reference (sampleGetPayload 1) =
      .ok ⟨sampleID.toList, 1, [], [], sampleTicket.toList, ascii "a"⟩ := by
  decide +kernel

theorem unmarshal_sampleGetPayload {index : UInt32} (h : index = 0 ∨ index = 1) :
    unmarshalXferGet NanoPack.reference (sampleGetPayload index) =
      .ok ⟨sampleID.toList, index, [], [], sampleTicket.toList, ascii "a"⟩ := by
  obtain ⟨-, -, -, hzero, hone⟩ := unmarshal_samplePayloads
  rcases h with rfl | rfl
  · exact hzero
  · exact hone

theorem shardAt_sampleGetPayload {payload : Bytes} {req : XferGet}
    (h : payload = sampleGetPayload 1 ∨ payload = sampleGetPayload 0)
    (hreq : unmarshalXferGet NanoPack.reference payload = .ok req) :
    ShardAt sampleLocate req.shardURL 0 := by
  rcases h with rfl | rfl
  · cases hreq.symm.trans (unmarshal_sampleGetPayload (.inr rfl))
    exact shardAt_sampleLocate
  · cases hreq.symm.trans (unmarshal_sampleGetPayload (.inl rfl))
    exact shardAt_sampleLocate

theorem reaches_sampleSender : sampleDeployment.Reaches sampleSender sampleLocate sampleID 0 where
  created r hr _ := by
    rw [shardURL_sampleSender hr]
    exact shardAt_sampleLocate
  named world payload o req hmem hreq _ _ := by
    have hasked := asked_of_session hmem
    refine shardAt_sampleGetPayload ?_ hreq
    simpa [sampleSender, sampleBridge, CourierInput.asked] using hasked

theorem reaches_sampleReader : sampleDeployment.Reaches sampleReader sampleLocate sampleID 0 where
  created r hr := absurd hr (not_creates_sampleReader r)
  named world payload o req hmem hreq _ _ := by
    have hasked := asked_of_session hmem
    refine shardAt_sampleGetPayload ?_ hreq
    simpa [sampleReader, sampleBridge, CourierInput.asked] using hasked

theorem created_sampleSender :
    sampleDeployment.BridgeCreated sampleSender sampleID
      ⟨3, 2, 2, [], sampleMessage.mailboxID, [], ascii "a"⟩ :=
  ⟨_, _, _, mem_session (n := 0) rfl (by rw [outcomes_sampleBridges.1]; rfl),
    unmarshal_samplePayloads.1, rfl⟩

/-- The pieces of the file are put. -/
theorem put_sampleSender : sampleDeployment.BridgePut sampleSender sampleID 0 [1, 2] ∧
    sampleDeployment.BridgePut sampleSender sampleID 1 [3] :=
  ⟨⟨_, _, _, _, mem_session (n := 2) rfl (by rw [outcomes_sampleBridges.1]; rfl),
    (fun _ _ h => by cases h), unmarshal_samplePayloads.2.1, rfl, rfl, rfl⟩,
    _, _, _, _, mem_session (n := 1) rfl (by rw [outcomes_sampleBridges.1]; rfl),
    (fun _ _ h => by cases h), unmarshal_samplePayloads.2.2.1, rfl, rfl, rfl⟩

theorem got_of_outcome {ins : List (CourierInput .reference)}
    {world : (s : Courier .reference) → CourierWorld s} {n : ℕ} {index : UInt32} {p hash : Bytes}
    (hindex : index = 0 ∨ index = 1)
    (hin : ins[n]? = some (.request world 14 (sampleGetPayload index)))
    (hout : ((sampleDeployment.session ins).map Prod.snd)[n]? = some (some (.chunk p hash))) :
    sampleDeployment.BridgeGot ins sampleID index.toNat p :=
  ⟨world, _, hash, _, mem_session hin hout, unmarshal_sampleGetPayload hindex, rfl, rfl⟩

/-- The pieces of the file. -/
def samplePiece (index : ℕ) : Bytes :=
  [[1, 2], [3]].getD index []

/-- Both bridges have read both pieces. -/
theorem got_samplePiece {index : ℕ} (h : index < 2) :
    sampleDeployment.BridgeGot sampleSender sampleID index (samplePiece index) ∧
      sampleDeployment.BridgeGot sampleReader sampleID index (samplePiece index) := by
  match index, h with
  | 0, _ =>
    exact ⟨got_of_outcome (n := 4) (.inl rfl) rfl (by rw [outcomes_sampleBridges.1]; rfl),
      got_of_outcome (n := 1) (.inl rfl) rfl (by rw [outcomes_sampleBridges.2]; rfl)⟩
  | 1, _ =>
    exact ⟨got_of_outcome (n := 3) (.inr rfl) rfl (by rw [outcomes_sampleBridges.1]; rfl),
      got_of_outcome (n := 0) (.inr rfl) rfl (by rw [outcomes_sampleBridges.2]; rfl)⟩

theorem asked_sampleShared {c : ChunkUpload}
    (h : sampleDeployment.Asked sampleShared (.shard 0) (.put c)) :
    c = sampleChunk 0 [1, 2] (copyArr 32 [1, 2]).toList ∨
      c = sampleChunk 1 [3] (copyArr 32 [3]).toList := by
  obtain ⟨r, hmem, hasks⟩ := h
  have hroute : ∀ {route body}, r = bridgePost route body → route = .put := by
    rintro route body rfl
    exact Option.some.inj ((route_of_spells (spells_of_path rfl)).symm.trans hasks.route)
  have hput : ∀ {c'}, (marshalChunkUpload NanoPack.reference c').toOption.isSome = true →
      r = bridgePost .put (marshalChunkUpload NanoPack.reference c') → c = c' := by
    rintro c' hsome rfl
    cases hbody : marshalChunkUpload NanoPack.reference c' with
    | error e =>
      rw [hbody] at hsome
      cases hsome
    | ok body =>
      have hasks' : (bridgePost .put (.ok body)).Asks NanoPack.reference (.put c') :=
        asks_of_posts NanoPack.reference_lawful trivial hbody ⟨rfl, rfl, rfl, rfl, rfl⟩
      rw [hbody] at hasks
      exact Ask.put.inj (asks_unique hasks hasks')
  have hlist : started sampleShared = [(.router, bridgePost .register _),
    (.shard 0, bridgePost .create _), (.shard 0, bridgePost .put (marshalChunkUpload _ _)),
    (.shard 0, bridgePost .put (marshalChunkUpload _ _)), (.shard 0, bridgePost .get _),
    (.shard 0, bridgePost .get _), (.shard 0, bridgePost .get _),
    (.shard 0, bridgePost .get _)] := rfl
  rw [hlist] at hmem
  simp only [List.mem_cons, List.not_mem_nil, or_false, Prod.mk.injEq, true_and, reduceCtorEq,
    false_and, false_or] at hmem
  rcases hmem with hr | hr | hr | hr | hr | hr | hr
  · cases hroute hr
  · exact .inr (hput (by decide +kernel) hr)
  · exact .inl (hput (by decide +kernel) hr)
  all_goals cases hroute hr

theorem payloadsApart_sampleShared : sampleDeployment.PayloadsApart sampleShared 0 := by
  intro c c' hc hc' hdigest
  rcases asked_sampleShared hc with rfl | rfl <;> rcases asked_sampleShared hc' with rfl | rfl
  · rfl
  · exact absurd hdigest (by decide)
  · exact absurd hdigest (by decide)
  · rfl

/-- The file that the sender has put is the file that the reader hands over, and both hand over the
same pieces. -/
theorem bridges_deliver_sampleShared :
    sampleDeployment.BridgesDeliver sampleShared 0 sampleID sampleSender sampleReader ∧
    sampleDeployment.PayloadsApart sampleShared 0 ∧
    (∀ index < 2, sampleDeployment.BridgeGot sampleReader sampleID index (samplePiece index)) ∧
    (∀ index < 2, ∀ p, sampleDeployment.BridgeGot sampleSender sampleID index p →
      p = samplePiece index) ∧
    ((List.range 2).map samplePiece).flatten.length = 3 ∧
    ((List.range 2).map samplePiece).flatten = [1, 2, 3] := by
  have hdeliver := bridges_deliver sampleDeployment NanoPack.reference_lawful
    BindingsJSON.reference_lawful sampleLocate sampleShared 0 sampleID
    (by unfold NoIDTwice; decide +kernel) session_sampleSender session_sampleReader
    reaches_sampleSender reaches_sampleReader
  have hsplit : splitOpaque [1, 2, 3] 2 = .ok [[1, 2], [3]] := by decide
  refine ⟨hdeliver, payloadsApart_sampleShared, fun index h => (got_samplePiece h).2,
    fun index h p hp => hdeliver.same hp (got_samplePiece h).2,
    hdeliver.size created_sampleSender fun index h => (got_samplePiece h).2,
    hdeliver.data payloadsApart_sampleShared hsplit (fun index p hp => ?_)
      fun index h => (got_samplePiece h).2⟩
  match index, hp with
  | 0, hp =>
    cases hp
    exact put_sampleSender.1
  | 1, hp =>
    cases hp
    exact put_sampleSender.2

end Deployment

end FileRelay
