import FileRelay.Provenance
import FileRelay.Reports
import FileRelay.RoundTrip

/-!
# Files on their way

A chunk is stored once. A record that is there later was there before and has only grown (`Later`),
so as long as a shard draws no id for two transfers, all that is ever seen of a chunk of a transfer
are the same bytes (`heldChunk_unique`) : whoever reads it, whenever, and however uploads and
downloads are interleaved. With this `file_delivered` says what a sender can rely on that has seen
its uploads acknowledged, although anybody who knows the id of a transfer may put chunks into it.

A chunk that was acknowledged can be read with the ticket of its transfer until somebody has
cancelled the transfer or its time is over (`acknowledged_available`).
-/

namespace FileRelay

open Pool (started history answers turns)
open Chunking (Fits piece chunkLength)

variable {H : Bytes → Digest}

/-! ## The store -/

/-- What is there later was there before, and has only grown. -/
def Later (o o' : Option TransferData) : Prop :=
  ∀ t', o' = some t' → ∃ t, o = some t ∧ Extends t t'

theorem later_refl (o : Option TransferData) : Later o o :=
  fun t ht => ⟨t, ht, .refl t⟩

theorem Later.trans {o o' o'' : Option TransferData} (h : Later o o') (h' : Later o' o'') :
    Later o o'' := by
  intro t'' ht''
  obtain ⟨t', ht', hgrown'⟩ := h' t'' ht''
  obtain ⟨t, ht, hgrown⟩ := h t' ht'
  exact ⟨t, ht, hgrown.trans hgrown'⟩

theorem later_step {s : MemStore} (inv : StoreInv H s) (e : Event) {tid : ID}
    (hno : transferCreated (e, ((store H).step s e).2) ≠ some tid) :
    Later (s.transfers.lookup tid) (((store H).step s e).1.transfers.lookup tid) := by
  have step := step_transfer H s e tid
  generalize ((store H).step s e).1.transfers.lookup tid = o at step
  rcases step with _ | ⟨r, ticket, -, -, -, hout⟩ | ⟨ht, -, hopen⟩ |
    ⟨c, -, -, -, ht, -, hc, hn, -⟩ | ⟨r, -, -, ht, -, hopen, -⟩ | _ | _
  · exact later_refl _
  · rw [hout] at hno
    exact absurd rfl hno
  · rintro _ ⟨⟩
    exact ⟨_, ht, { Extends.refl _ with sealed := fun h => absurd h hopen }⟩
  · rintro _ ⟨⟩
    exact ⟨_, ht, extends_storeChunk e.now (inv tid _ ht) hc hn⟩
  · rintro _ ⟨⟩
    exact ⟨_, ht, { Extends.refl _ with sealed := fun h => absurd h hopen }⟩
  · exact nofun
  · exact nofun

theorem later_run {tid : ID} : ∀ (es : List Event) {s : MemStore}, StoreInv H s →
    tid ∉ ((store H).trace s es).filterMap transferCreated →
    Later (s.transfers.lookup tid) (((store H).run s es).transfers.lookup tid)
  | [], _, _, _ => later_refl _
  | e :: es, s, inv, hno => by
    rw [Machine.trace_cons, List.mem_filterMap] at hno
    push Not at hno
    refine (later_step inv e (hno _ List.mem_cons_self)).trans ?_
    refine later_run es (storeInv_step s e inv) fun hmem => ?_
    obtain ⟨x, hx, hid⟩ := List.mem_filterMap.mp hmem
    exact hno x (List.mem_cons_of_mem _ hx) hid

/-- Only a call that removes it takes a record away. -/
theorem kept_step {s : MemStore} {e : Event} {tid : ID} (hr : ¬Removes H tid s e)
    (h : (s.transfers.lookup tid).isSome = true) :
    (((store H).step s e).1.transfers.lookup tid).isSome = true := by
  have step := step_transfer H s e tid
  generalize ((store H).step s e).1.transfers.lookup tid = o at step
  rcases step with _ | _ | _ | _ | _ | ⟨mid, secret, hop, -, -, hout⟩ | ⟨hop, ht, late⟩
  · exact h
  · rfl
  · rfl
  · rfl
  · rfl
  · exact absurd (.inl ⟨⟨mid, secret, hop⟩, hout⟩) hr
  · exact absurd (.inr ⟨hop, _, ht, late⟩) hr

/-- The chunks of `SplitOpaque` put together. -/
theorem flatten_splitOpaque {data : Bytes} {size : ℤ} {pieces : List Bytes}
    (h : splitOpaque data size = .ok pieces) : pieces.flatten = data := by
  by_cases hdata : data = []
  · subst hdata
    unfold splitOpaque at h
    split_ifs at h
    rw [← Except.ok.inj h]
    rfl
  · have hsize : 0 < size := by
      unfold splitOpaque at h
      split_ifs at h with hbad
      omega
    lift size to ℕ using hsize.le
    have hfits := Chunking.fits_of_div (Int.natCast_pos.mp hsize) (List.length_pos_iff.mpr hdata)
    rw [splitOpaque_eq hfits h, hfits.flatten_pieces]

/-! ## The relay -/

/-- The request asks for one chunk of the transfer with a ticket, under a path that the mux of a
shard knows. -/
def HTTPRequest.ReadsChunk (r : HTTPRequest) (np : NanoPack.Codec) (tid : ID) (index : ℕ)
    (ticket : ByteArr 32) : Prop :=
  r.Spells .get ∧ ∃ q, r.Asks np (.get q) ∧ copyArr 16 q.transferID = tid ∧ q.index.toNat = index ∧
    q.ticket = ticket.toList ∧ q.count = 1

namespace Deployment

variable (d : Deployment) (es : List RelayEvent) (i : ℕ) (tid : ID)

/-- At a moment of the run a chunk of the transfer was `p`. -/
def HeldChunk (index : ℕ) (p : Bytes) : Prop :=
  ∃ pre t, pre <+: es ∧ ((d.run pre).object.stores i).transfers.lookup tid = some t ∧
    t.chunks.lookup index = some p

/-- Request `k` has put a chunk and was told so. -/
def Uploaded (k index : ℕ) (p : Bytes) : Prop :=
  ∃ r c resp, (started es)[k]? = some (.shard i, r) ∧ r.Asks d.np (.put c) ∧
    copyArr 16 c.transferID = tid ∧ c.index.toNat = index ∧ c.payload = p ∧
    resp ∈ answers k (d.trace es) ∧ resp.status = 200

/-- Request `k` has asked for a chunk, and reads it off its answer. -/
def Downloaded (k index : ℕ) (p : Bytes) : Prop :=
  ∃ r q resp hash, (started es)[k]? = some (.shard i, r) ∧ r.Asks d.np (.get q) ∧
    copyArr 16 q.transferID = tid ∧ q.index.toNat = index ∧ resp ∈ answers k (d.trace es) ∧
    resp.status = 200 ∧
    unmarshalChunkDownloadResponse d.np resp.body = .ok ⟨tid.toList, q.index, p, hash⟩

/-- Request `k` has created the transfer, and reads its id and its ticket off its answer. -/
def Created (k : ℕ) (q : TransferCreate) (ticket : ByteArr 32) : Prop :=
  ∃ r resp exp, (started es)[k]? = some (.shard i, r) ∧ r.Asks d.np (.create q) ∧
    resp ∈ answers k (d.trace es) ∧ resp.status = 200 ∧
    unmarshalTransferCreateResponse d.np resp.body = .ok ⟨tid, exp, q.chunkSize, ticket⟩

/-- No two payloads that were sent to the shard have one digest. -/
def PayloadsApart : Prop :=
  ∀ c c', d.Asked es (.shard i) (.put c) → d.Asked es (.shard i) (.put c') →
    d.H c.payload = d.H c'.payload → c.payload = c'.payload

variable {d es i tid}

/-- A record at two moments of the run. -/
theorem extends_relay (hfresh : d.NoIDTwice es i) {pre mid post : List RelayEvent}
    (hes : es = pre ++ mid ++ post) {t t' : TransferData}
    (ht : ((d.run pre).object.stores i).transfers.lookup tid = some t)
    (ht' : ((d.run (pre ++ mid)).object.stores i).transfers.lookup tid = some t') :
    Extends t t' := by
  -- The create of the record is before, and there is no other.
  have hno : tid ∉ ((d.relay.pool.trace (d.run pre) mid).filterMap (storeStep i)).filterMap
      transferCreated := by
    intro hmem
    obtain ⟨e, r, ticket, hcreate, -, -⟩ := transfer_recorded pre ht []
    rw [List.append_nil] at hcreate
    have hbefore : tid ∈ (d.storeTrace i pre).filterMap transferCreated :=
      List.mem_filterMap.mpr ⟨_, hcreate, rfl⟩
    rw [NoIDTwice, hes, storeTrace_append, storeTrace_append, List.filterMap_append,
      List.filterMap_append] at hfresh
    exact (List.nodup_append.mp (List.nodup_append.mp hfresh).1).2.2 _ hbefore _ hmem rfl
  have inv : StoreInv d.H ((d.run pre).object.stores i) := by
    rw [← store_run]
    exact storeInv_run storeInv_newMemStore _
  have hlater := later_run _ inv (by rwa [(d.projects_store i).trace])
  rw [(d.projects_store i).run] at hlater
  obtain ⟨t₀, ht₀, hgrown⟩ := hlater t' (by rwa [run, Machine.run_append] at ht')
  obtain rfl := Option.some.inj (ht.symm.trans ht₀)
  exact hgrown

/-- All that is ever seen of a chunk are the same bytes. -/
theorem heldChunk_unique (hfresh : d.NoIDTwice es i) {index : ℕ} {p p' : Bytes}
    (h : d.HeldChunk es i tid index p) (h' : d.HeldChunk es i tid index p') : p = p' := by
  have hordered : ∀ {pre pre' t t' p p'}, pre <+: pre' → pre' <+: es →
      ((d.run pre).object.stores i).transfers.lookup tid = some t →
      t.chunks.lookup index = some p →
      ((d.run pre').object.stores i).transfers.lookup tid = some t' →
      t'.chunks.lookup index = some p' → p = p' := by
    rintro pre _ t t' p p' ⟨mid, rfl⟩ ⟨post, hes⟩ ht hp ht' hp'
    have hkept := (extends_relay hfresh hes.symm ht ht').chunks index p hp
    exact Option.some.inj (hkept.symm.trans hp')
  obtain ⟨pre, t, hpre, ht, hp⟩ := h
  obtain ⟨pre', t', hpre', ht', hp'⟩ := h'
  rcases List.prefix_or_prefix_of_prefix hpre hpre' with hle | hle
  · exact hordered hle hpre' ht hp ht' hp'
  · exact (hordered hle hpre ht' hp' ht hp).symm

/-- An accepted put leaves a chunk with the digest of its payload. -/
theorem heldChunk_of_put {pre : List RelayEvent} {k n : ℕ} {env : Env} {c : ChunkUpload}
    (h : d.CallsAt es pre k env (.store i (.putChunk c)) (Except.ok n)) :
    ∃ p, d.HeldChunk es i (copyArr 16 c.transferID) c.index.toNat p ∧ d.H p = d.H c.payload := by
  have hres : (putChunk d.H ((d.run pre).object.stores i) env.now c).2 = .ok n := h.served.1.symm
  obtain ⟨t, p, ht, hp, hsame⟩ := putChunk_accepted d.H hres
  obtain ⟨post, hes⟩ := h.place
  refine ⟨p, ⟨pre ++ [.advance k env], t, ⟨post, by simp [hes]⟩, ?_, hp⟩, ?_⟩
  · rw [run, Machine.run_concat]
    change ((d.relay.pool.step (d.run pre) _).1.object.stores i).transfers.lookup _ = _
    rw [h.served.2]
    change (Function.update (d.run pre).object.stores i _ i).transfers.lookup _ = _
    rw [Function.update_self]
    exact ht
  · rcases hsame with rfl | ⟨-, hh⟩
    · rfl
    · exact hh

theorem heldChunk_of_uploaded (hnp : d.np.Lawful) {k index : ℕ} {p : Bytes}
    (h : d.Uploaded es i tid k index p) :
    ∃ p₀, d.HeldChunk es i tid index p₀ ∧ d.H p₀ = d.H p := by
  obtain ⟨r, c, resp, hx, hasks, rfl, rfl, rfl, hresp, hstatus⟩ := h
  obtain ⟨last, reply, a, pre, env, -, -, hat, hput, -⟩ :=
    told_of_status hnp hx hasks hresp hstatus
  obtain ⟨n, hmem⟩ := hput c rfl
  obtain ⟨h₀, h₁, hh⟩ := List.append_of_mem hmem
  obtain ⟨pre', env', hat', -⟩ := calls_of_history hh
  obtain ⟨post, rfl⟩ := hat.place
  exact heldChunk_of_put (hat'.mono _)

/-- What a request reads off its answer is what the record holds. -/
theorem heldChunk_of_downloaded (hnp : d.np.Lawful) {k index : ℕ} {p : Bytes}
    (h : d.Downloaded es i tid k index p) : d.HeldChunk es i tid index p := by
  obtain ⟨r, q, resp, hash, hx, hasks, rfl, rfl, hresp, hstatus, hbody⟩ := h
  obtain ⟨c, reply, a, pre, env, hcall, hreply, hat, -, hread⟩ :=
    told_of_status hnp hx hasks hresp hstatus
  have hprefix : pre <+: es := by
    obtain ⟨post, hes⟩ := hat.place
    exact ⟨_, hes.symm⟩
  have inv : ∀ {t}, ((d.run pre).object.stores i).transfers.lookup (copyArr 16 q.transferID) =
      some t → WellFormed d.H t := by
    intro t ht
    rw [← store_run] at ht
    exact storeInv_run storeInv_newMemStore _ _ _ ht
  -- The two ways to read a chunk end in the same look into the record.
  have hfound : ∀ {out : Bytes × Bytes} {t},
      ((d.run pre).object.stores i).transfers.lookup (copyArr 16 q.transferID) = some t →
      readChunk t q.index.toNat = .ok out →
      reply = .chunk ⟨(copyArr 16 q.transferID).toList, q.index, out.1, out.2⟩ →
        d.HeldChunk es i (copyArr 16 q.transferID) q.index.toNat p := by
    rintro ⟨payload, hash'⟩ t ht hchunk rfl
    have hp := (readChunk_wellFormed (inv ht) hchunk).1
    cases hbody.symm.trans (hread trivial)
    exact ⟨pre, t, hprefix, ht, hp⟩
  rw [Ask.lastCall] at hcall
  split_ifs at hcall with hmode
  · cases hcall
    rcases a with e | out
    · cases hreply
    · obtain ⟨t, ht, -, hchunk⟩ := getChunkByTicket_eq_ok hat.served.1.symm
      exact hfound ht hchunk (Option.some.inj hreply).symm
  · cases hcall
    rcases a with e | out
    · cases hreply
    · obtain ⟨t, s', ht, -, hchunk⟩ := getChunk_eq_ok hat.served.1.symm
      exact hfound ht hchunk (Option.some.inj hreply).symm

theorem Asked.mono {pre : List RelayEvent} {host : Host} {ask : Ask} (h : d.Asked pre host ask)
    (hpre : pre <+: es) : d.Asked es host ask := by
  obtain ⟨r, hr, hasks⟩ := h
  obtain ⟨post, rfl⟩ := hpre
  rw [Asked, Pool.started_append]
  exact ⟨r, List.mem_append_left _ hr, hasks⟩

theorem asked_of_heldChunk {index : ℕ} {p : Bytes} (h : d.HeldChunk es i tid index p) :
    ∃ c, d.Asked es (.shard i) (.put c) ∧ copyArr 16 c.transferID = tid ∧ c.index.toNat = index ∧
      c.payload = p := by
  obtain ⟨pre, t, hpre, ht, hp⟩ := h
  obtain ⟨c, hasked, hrest⟩ := chunk_authentic ht hp
  exact ⟨c, hasked.mono hpre, hrest⟩

/-- The call behind the answer to a create. -/
theorem create_of_created (hnp : d.np.Lawful) {k : ℕ} {q : TransferCreate} {ticket : ByteArr 32}
    (h : d.Created es i tid k q ticket) : ∃ pre env deadline,
      d.CallsAt es pre k env (.store i (.createTransfer q))
        (Except.ok (tid, ticket.toList, deadline)) ∧ validateTransferCreateMsg q = .ok () := by
  obtain ⟨r, resp, exp, hx, hasks, hresp, hstatus, hbody⟩ := h
  obtain ⟨c, reply, a, pre, env, hcall, hreply, hat, -, hread⟩ :=
    told_of_status hnp hx hasks hresp hstatus
  cases hcall
  rcases a with e | ⟨tid', ticket', deadline⟩
  · cases hreply
  · cases hreply
    have hout := createTransfer_outcome d.H ((d.run pre).object.stores i) env.now q env.id env.draw
    have hres : (createTransfer d.H ((d.run pre).object.stores i) env.now q env.id env.draw).2 =
        .ok (tid', ticket', deadline) := hat.served.1.symm
    generalize createTransfer d.H ((d.run pre).object.stores i) env.now q env.id env.draw = res
      at hout hres
    generalize env.draw = draw at hout
    cases hout with
    | rejected => cases hres
    | stored arr hvalid =>
      cases hres
      have hsame := hbody.symm.trans (hread trivial)
      rw [copyArr_self, copyArr_self] at hsame
      cases hsame
      exact ⟨pre, env, _, hat, hvalid⟩

/-- The record of a transfer has the geometry its creator asked for. -/
theorem fixed_of_created (hnp : d.np.Lawful) (hfresh : d.NoIDTwice es i) {k : ℕ}
    {q : TransferCreate} {ticket : ByteArr 32} (h : d.Created es i tid k q ticket)
    {pre : List RelayEvent} (hpre : pre <+: es) {t : TransferData}
    (ht : ((d.run pre).object.stores i).transfers.lookup tid = some t) :
    ∃ time, t.fixed = (createdTransfer d.H q ticket time).fixed := by
  obtain ⟨pre', env, deadline, hat, -⟩ := create_of_created hnp h
  obtain ⟨post, rfl⟩ := hpre
  obtain ⟨e, q', ticket', hmem, hop, hfixed⟩ := transfer_recorded pre ht post
  obtain ⟨rfl, hticket⟩ := create_unique hfresh hat.mem_storeTrace hmem
  obtain rfl : q = q' := by
    injection hop
  obtain rfl : ticket = ticket' := List.Vector.eq _ _ hticket
  exact ⟨env.now, hfixed⟩

/-- A chunk that was read has the length that the geometry of its transfer gives it. -/
theorem length_of_heldChunk (hnp : d.np.Lawful) (hfresh : d.NoIDTwice es i) {k index : ℕ}
    {q : TransferCreate} {ticket : ByteArr 32} (h : d.Created es i tid k q ticket) {p : Bytes}
    (hheld : d.HeldChunk es i tid index p) :
    p.length = chunkLength q.totalSize.toNat q.chunkSize.toNat q.chunkCount.toNat index := by
  obtain ⟨pre, t, hpre, ht, hp⟩ := hheld
  obtain ⟨time, hfixed⟩ := fixed_of_created hnp hfresh h hpre ht
  have wf : WellFormed d.H t := by
    rw [← store_run] at ht
    exact storeInv_run storeInv_newMemStore _ _ _ ht
  have hgeometry : (t.totalSize, t.chunkSize, t.chunkCount) =
      (q.totalSize.toNat, q.chunkSize.toNat, q.chunkCount.toNat) :=
    congrArg (fun f => f.2.2.1) hfixed
  obtain ⟨htotal, hsize, hcount⟩ : t.totalSize = q.totalSize.toNat ∧
      t.chunkSize = q.chunkSize.toNat ∧ t.chunkCount = q.chunkCount.toNat := by
    simpa using hgeometry
  rw [← htotal, ← hsize, ← hcount]
  have hlt := wf.key_lt index (Finmap.mem_of_lookup_eq_some hp)
  unfold chunkLength
  split_ifs with hfull
  · exact wf.length_full index p hp hfull
  · obtain rfl : index = t.chunkCount - 1 := by omega
    exact wf.length_last p hp

/-- What the parties of a transfer can rely on. Readers of a chunk read the same bytes, with the
digest of every upload that was acknowledged, and somebody has sent them. The chunks of a file have
together the size that was announced. A sender that cuts its data into pieces, and to which all of
them were acknowledged, has delivered the data. -/
structure FileDelivered (d : Deployment) (es : List RelayEvent) (i : ℕ) (tid : ID) : Prop where
  same : ∀ {k k' index p p'}, d.Downloaded es i tid k index p →
    d.Downloaded es i tid k' index p' → p = p'
  digest : ∀ {k k' index p p'}, d.Uploaded es i tid k index p →
    d.Downloaded es i tid k' index p' → d.H p = d.H p'
  sent : ∀ {k index p}, d.Downloaded es i tid k index p → ∃ c, d.Asked es (.shard i) (.put c) ∧
    copyArr 16 c.transferID = tid ∧ c.index.toNat = index ∧ c.payload = p
  size : ∀ {k q ticket} {out : ℕ → Bytes}, d.Created es i tid k q ticket →
    (∀ index < q.chunkCount.toNat, ∃ k, d.Downloaded es i tid k index (out index)) →
    ((List.range q.chunkCount.toNat).map out).flatten.length = q.totalSize.toNat
  data : ∀ {data : Bytes} {size : ℤ} {pieces : List Bytes} {out : ℕ → Bytes},
    d.PayloadsApart es i → splitOpaque data size = .ok pieces →
    (∀ index p, pieces[index]? = some p → ∃ k, d.Uploaded es i tid k index p) →
    (∀ index < pieces.length, ∃ k, d.Downloaded es i tid k index (out index)) →
    ((List.range pieces.length).map out).flatten = data

/-- An acknowledged upload and a download of one chunk. -/
theorem digest_eq (hnp : d.np.Lawful) (hfresh : d.NoIDTwice es i) {k k' index : ℕ} {p p' : Bytes}
    (h : d.Uploaded es i tid k index p) (h' : d.Downloaded es i tid k' index p') :
    d.H p = d.H p' := by
  obtain ⟨p₀, hheld, hh⟩ := heldChunk_of_uploaded hnp h
  obtain rfl := heldChunk_unique hfresh hheld (heldChunk_of_downloaded hnp h')
  exact hh.symm

theorem size_eq (hnp : d.np.Lawful) (hfresh : d.NoIDTwice es i) {k : ℕ} {q : TransferCreate}
    {ticket : ByteArr 32} {out : ℕ → Bytes} (h : d.Created es i tid k q ticket)
    (hall : ∀ index < q.chunkCount.toNat, ∃ k, d.Downloaded es i tid k index (out index)) :
    ((List.range q.chunkCount.toNat).map out).flatten.length = q.totalSize.toNat := by
  obtain ⟨-, -, -, -, hvalid⟩ := create_of_created hnp h
  obtain ⟨-, hgeometry, -⟩ := validateTransferCreateMsg_eq_ok.mp hvalid
  obtain ⟨-, -, -, hfits⟩ := validateTransferCreate_spec hgeometry
  rw [List.length_flatten, List.map_map, ← hfits.sum_chunkLength]
  congr 1
  refine List.map_congr_left fun index hindex => ?_
  obtain ⟨k', hk'⟩ := hall index (List.mem_range.mp hindex)
  exact length_of_heldChunk hnp hfresh h (heldChunk_of_downloaded hnp hk')

theorem data_eq (hnp : d.np.Lawful) (hfresh : d.NoIDTwice es i) {data : Bytes} {size : ℤ}
    {pieces : List Bytes} {out : ℕ → Bytes} (hapart : d.PayloadsApart es i)
    (hsplit : splitOpaque data size = .ok pieces)
    (hput : ∀ index p, pieces[index]? = some p → ∃ k, d.Uploaded es i tid k index p)
    (hget : ∀ index < pieces.length, ∃ k, d.Downloaded es i tid k index (out index)) :
    ((List.range pieces.length).map out).flatten = data := by
  have hpieces : (List.range pieces.length).map out = pieces := by
    refine List.ext_getElem (by simp) fun index h h' => ?_
    rw [List.getElem_map, List.getElem_range]
    obtain ⟨k, hk⟩ := hput index _ (List.getElem?_eq_getElem h')
    obtain ⟨k', hk'⟩ := hget index h'
    obtain ⟨c', hc', -, -, hpay⟩ := asked_of_heldChunk (heldChunk_of_downloaded hnp hk')
    have hdigest := digest_eq hnp hfresh hk hk'
    obtain ⟨r, c, resp, hx, hasks, -, -, hpay', -, -⟩ := hk
    have hc : d.Asked es (.shard i) (.put c) := ⟨r, List.mem_of_getElem? hx, hasks⟩
    rw [← hpay, ← hpay'] at hdigest ⊢
    exact (hapart c c' hc hc' hdigest).symm
  rw [hpieces]
  exact flatten_splitOpaque hsplit

theorem file_delivered (d : Deployment) (hnp : d.np.Lawful) (es : List RelayEvent) (i : ℕ)
    (tid : ID) (hfresh : d.NoIDTwice es i) : d.FileDelivered es i tid where
  same h h' := heldChunk_unique hfresh (heldChunk_of_downloaded hnp h)
    (heldChunk_of_downloaded hnp h')
  digest := digest_eq hnp hfresh
  sent h := asked_of_heldChunk (heldChunk_of_downloaded hnp h)
  size := size_eq hnp hfresh
  data := data_eq hnp hfresh

/-! ### A file of two chunks -/

theorem noIDTwice_sampleFile : sampleDeployment.NoIDTwice sampleFile 0 := by
  unfold NoIDTwice
  decide +kernel

theorem asks_sampleFile :
    (samplePost .create (marshalTransferCreate NanoPack.reference sampleTransfer)).Asks
      NanoPack.reference (.create sampleTransfer) ∧
    (samplePut 0 [1, 2]).Asks NanoPack.reference (.put (sampleChunk 0 [1, 2] [])) ∧
    (samplePut 1 [3]).Asks NanoPack.reference (.put (sampleChunk 1 [3] [])) ∧
    ∀ index : UInt32, index = 0 ∨ index = 1 →
      (samplePost .get (marshalChunkDownload NanoPack.reference (sampleGet index))).Asks
        NanoPack.reference (.get (sampleGet index)) := by
  have hroute : ∀ route body, (samplePost route body).route = some route :=
    fun _ _ => route_of_spells (spells_of_path rfl)
  refine ⟨⟨rfl, hroute _ _, (by decide +kernel : decodeRequest _ _ _ = _)⟩,
    ⟨rfl, hroute _ _, (by decide +kernel : decodeRequest _ _ _ = _)⟩,
    ⟨rfl, hroute _ _, (by decide +kernel : decodeRequest _ _ _ = _)⟩, ?_⟩
  rintro index (rfl | rfl) <;>
    exact ⟨rfl, hroute _ _, (by decide +kernel : decodeRequest _ _ _ = _)⟩

/-- The answer to the create. -/
def sampleTransferResponse : Bytes :=
  (marshalTransferCreateResponse NanoPack.reference
    ⟨sampleID.toList, 86500000, 2, sampleTicket.toList⟩).toOption.getD []

/-- The answer to a read. -/
def sampleChunkResponse (index : UInt32) (p : Bytes) : Bytes :=
  (marshalChunkDownloadResponse NanoPack.reference
    ⟨sampleID.toList, index, p, (copyArr 32 p).toList⟩).toOption.getD []

theorem answers_sampleFile :
    let tr := sampleDeployment.trace sampleFile
    answers 0 tr = [writeProto 64 sampleTransferResponse] ∧
      (answers 1 tr).map Response.status = [200] ∧
      answers 2 tr = [writeProto 68 (sampleChunkResponse 1 [3])] ∧
      (answers 3 tr).map Response.status = [200] ∧
      answers 4 tr = [writeProto 68 (sampleChunkResponse 0 [1, 2])] := by
  decide +kernel

theorem created_sampleFile :
    sampleDeployment.Created sampleFile 0 sampleID 0 sampleTransfer sampleTicket := by
  have hbody : marshalTransferCreateResponse NanoPack.reference
      ⟨sampleID.toList, 86500000, 2, sampleTicket.toList⟩ = .ok sampleTransferResponse := by
    decide +kernel
  have hread := unmarshalTransferCreateResponse_marshal NanoPack.reference_lawful hbody
  rw [copyArr_self, copyArr_self] at hread
  refine ⟨_, writeProto 64 sampleTransferResponse, _, rfl, asks_sampleFile.1, ?_, rfl, hread⟩
  rw [answers_sampleFile.1]
  exact List.mem_cons_self

/-- The two pieces were put. -/
theorem uploaded_sampleFile : sampleDeployment.Uploaded sampleFile 0 sampleID 1 1 [3] ∧
    sampleDeployment.Uploaded sampleFile 0 sampleID 3 0 [1, 2] := by
  obtain ⟨-, hone, -, hzero, -⟩ := answers_sampleFile
  obtain ⟨resp, hresp, hstatus⟩ := List.map_eq_singleton_iff.mp hone
  obtain ⟨resp', hresp', hstatus'⟩ := List.map_eq_singleton_iff.mp hzero
  obtain ⟨-, hasks₀, hasks₁, -⟩ := asks_sampleFile
  exact ⟨⟨_, _, resp, rfl, hasks₁, copyArr_self _, rfl, rfl, hresp ▸ List.mem_cons_self, hstatus⟩,
    _, _, resp', rfl, hasks₀, copyArr_self _, rfl, rfl, hresp' ▸ List.mem_cons_self, hstatus'⟩

/-- The two pieces were read. -/
theorem downloaded_sampleFile : sampleDeployment.Downloaded sampleFile 0 sampleID 2 1 [3] ∧
    sampleDeployment.Downloaded sampleFile 0 sampleID 4 0 [1, 2] := by
  obtain ⟨-, -, hone, -, hzero⟩ := answers_sampleFile
  obtain ⟨-, -, -, hasks⟩ := asks_sampleFile
  exact ⟨⟨_, _, _, (copyArr 32 [3]).toList, rfl, hasks 1 (.inr rfl), copyArr_self _, rfl,
    hone ▸ List.mem_cons_self, rfl, by decide +kernel⟩, _, _, _, (copyArr 32 [1, 2]).toList,
    rfl, hasks 0 (.inl rfl), copyArr_self _, rfl, hzero ▸ List.mem_cons_self, rfl,
    by decide +kernel⟩

theorem asked_sampleFile {c : ChunkUpload}
    (h : sampleDeployment.Asked sampleFile (.shard 0) (.put c)) :
    c = sampleChunk 0 [1, 2] [] ∨ c = sampleChunk 1 [3] [] := by
  obtain ⟨r, hmem, hasks⟩ := h
  have hroute : ∀ {route body}, r = samplePost route body → route = .put := by
    rintro route body rfl
    exact Option.some.inj ((route_of_spells (spells_of_path rfl)).symm.trans hasks.route)
  have hlist : started sampleFile = [(.shard 0, samplePost .create _), (.shard 0, samplePut 1 [3]),
    (.shard 0, samplePost .get _), (.shard 0, samplePut 0 [1, 2]), (.shard 0, samplePost .get _)] :=
    rfl
  rw [hlist] at hmem
  simp only [List.mem_cons, List.not_mem_nil, or_false, Prod.mk.injEq, true_and] at hmem
  rcases hmem with hr | hr | hr | hr | hr
  · cases hroute hr
  · subst hr
    exact .inr (Ask.put.inj (asks_unique hasks asks_sampleFile.2.2.1))
  · cases hroute hr
  · subst hr
    exact .inl (Ask.put.inj (asks_unique hasks asks_sampleFile.2.1))
  · cases hroute hr

theorem payloadsApart_sampleFile : sampleDeployment.PayloadsApart sampleFile 0 := by
  intro c c' hc hc' hdigest
  rcases asked_sampleFile hc with rfl | rfl <;> rcases asked_sampleFile hc' with rfl | rfl
  · rfl
  · exact absurd hdigest (by decide)
  · exact absurd hdigest (by decide)
  · rfl

/-- The three bytes that were put in two pieces are the three bytes that were read. -/
theorem file_delivered_sampleFile : sampleDeployment.FileDelivered sampleFile 0 sampleID ∧
    splitOpaque [1, 2, 3] 2 = .ok [[1, 2], [3]] ∧
    ∃ out : ℕ → Bytes, (∀ index < 2, ∃ k,
        sampleDeployment.Downloaded sampleFile 0 sampleID k index (out index)) ∧
      ((List.range 2).map out).flatten.length = 3 ∧
      ((List.range 2).map out).flatten = [1, 2, 3] := by
  have hfile := file_delivered sampleDeployment NanoPack.reference_lawful sampleFile 0 sampleID
    noIDTwice_sampleFile
  have hsplit : splitOpaque [1, 2, 3] 2 = .ok [[1, 2], [3]] := by decide
  let out : ℕ → Bytes := fun index => [[1, 2], [3]].getD index []
  have hget : ∀ index < 2, ∃ k,
      sampleDeployment.Downloaded sampleFile 0 sampleID k index (out index)
    | 0, _ => ⟨4, downloaded_sampleFile.2⟩
    | 1, _ => ⟨2, downloaded_sampleFile.1⟩
  refine ⟨hfile, hsplit, out, hget, hfile.size created_sampleFile hget,
    hfile.data payloadsApart_sampleFile hsplit (fun index p hp => ?_) hget⟩
  match index, hp with
  | 0, hp =>
    cases hp
    exact ⟨3, uploaded_sampleFile.2⟩
  | 1, hp =>
    cases hp
    exact ⟨1, uploaded_sampleFile.1⟩

/-! ## Acknowledged chunks are available -/

variable (d es i tid) in
/-- Somebody has cancelled the transfer and was told so. -/
def Cancelled : Prop :=
  ∃ k r q resp, (started es)[k]? = some (.shard i, r) ∧ r.Asks d.np (.cancel q) ∧
    copyArr 16 q.transferID = tid ∧ answers k (d.trace es) = [resp] ∧ resp.status = 200

/-- The relay removes a transfer for no other reason. -/
theorem kept_relay (hnp : d.np.Lawful) (hno : ¬d.Cancelled es i tid)
    {pre mid post : List RelayEvent} (hes : es = pre ++ mid ++ post)
    (h : (((d.run pre).object.stores i).transfers.lookup tid).isSome = true) :
    (((d.run (pre ++ mid)).object.stores i).transfers.lookup tid).isSome = true := by
  have hkeeps : (store d.H).Along (fun s e => ¬Removes d.H tid s e) ((d.run pre).object.stores i)
      (((d.relay.pool.trace (d.run pre) mid).filterMap (storeStep i)).map Prod.fst) := by
    refine Machine.along_of_places fun es₀ e es₁ hplace hremoves => ?_
    have hmem : (e, ((store d.H).step ((store d.H).run ((d.run pre).object.stores i) es₀) e).2) ∈
        d.storeTrace i es := by
      rw [hes, storeTrace_append, storeTrace_append, ← (d.projects_store i).trace (d.run pre)]
      exact List.mem_append_left _ (List.mem_append_right _
        (Machine.mem_trace.mpr ⟨es₀, es₁, hplace, rfl⟩))
    obtain ⟨pre', k, env, c, a, hat, he, hout⟩ := calls_of_mem hmem
    rcases hremoves with ⟨⟨mid, secret, hop⟩, hcancelled⟩ | ⟨hop, -⟩
    · subst he
      cases c <;> cases hop
      obtain ⟨⟨host, r⟩, hx, hhost, q, hasks, hid, -, -⟩ := hat.entitled
      cases hhost
      rw [hcancelled] at hout
      cases hout
      obtain ⟨resp, hresp, hstatus, -, -⟩ := reported hnp hat rfl
      exact hno ⟨k, r, q, resp, hat.started_mono hx, hasks, hid.symm, hresp, hstatus⟩
    · subst he
      cases c <;> cases hop
  have hrun := Machine.along_induction (P := fun s => (s.transfers.lookup tid).isSome = true)
    (fun s e hr => kept_step hr) hkeeps h
  rw [(d.projects_store i).run] at hrun
  rwa [run, Machine.run_append]

/-- A chunk of a live transfer is read with its ticket. -/
theorem getChunkByTicket_live {s : MemStore} {now : ℤ} {ticket : ByteArr 32} {index : UInt32}
    {p : Bytes} {t : TransferData} (wf : WellFormed d.H t)
    (ht : s.transfers.lookup tid = some t) (hlive : t.state ≠ .complete → now < t.expiresAt)
    (hticket : t.downloadSecretHash = d.H ticket.toList)
    (hp : t.chunks.lookup index.toNat = some p) :
    (getChunkByTicket d.H s now tid ticket.toList index).2 = .ok (p, (d.H p).toList) := by
  have hok : checkTicketLocked d.H t ticket.toList = .ok () :=
    by simp [checkTicketLocked, hticket]
  have hread : readChunk t index.toNat = .ok (p, (d.H p).toList) := by
    unfold readChunk
    rw [if_neg (not_le.mpr (wf.key_lt _ (Finmap.mem_of_lookup_eq_some hp))), hp,
      wf.hash_eq _ p hp]
    rfl
  unfold getChunkByTicket
  rw [onTransfer_live _ ht hlive, hok]
  exact hread

variable (d es i tid) in
/-- The transfer was not sealed and past its deadline when request `k` was served. -/
def Overdue (k : ℕ) : Prop :=
  ∃ pre env post t, es = pre ++ .advance k env :: post ∧
    ((d.run pre).object.stores i).transfers.lookup tid = some t ∧ t.state ≠ .complete ∧
    t.expiresAt ≤ env.now

/-- A request for a chunk that is answered has called its store. -/
theorem reads_call {k : ℕ} {r : HTTPRequest} {q : ChunkDownload} {ticket : ByteArr 32}
    {resp : Response} (hx : (started es)[k]? = some (.shard i, r)) (hspells : r.Spells .get)
    (hasks : r.Asks d.np (.get q)) (hticket : q.ticket = ticket.toList) (hcount : q.count = 1)
    (hresp : resp ∈ answers k (d.trace es)) : ∃ pre env, ∃ a : Result (Bytes × Bytes),
      d.CallsAt es pre k env
        (.store i (.getChunkByTicket (copyArr 16 q.transferID) ticket.toList q.index)) a := by
  have hmode : q.ticketMode = true := by
    unfold ChunkDownload.ticketMode
    rw [hticket]
    exact decide_eq_true ticket.toList_length
  have hdecodes : decodeRequest r 256 (unmarshalChunkDownload d.np) = .ok q := hasks.decodes
  obtain ⟨next, hnext⟩ : ∃ next, d.relay.handler (.shard i, r) = .call (.store i
      (.getChunkByTicket (copyArr 16 q.transferID) ticket.toList q.index)) next := by
    change ∃ next, d.shardServe i r = _
    rw [d.shardServe_of_spells i (by decide) hspells]
    change ∃ next, d.handleGet i r = _
    unfold handleGet Host.onPost
    rw [if_neg (not_not.mpr hasks.post), hdecodes]
    change ∃ next, (if q.count ≠ 1 then _ else getCall i q _) = _
    rw [if_neg (not_not.mpr hcount)]
    unfold getCall
    rw [if_pos hmode, ← hticket]
    exact ⟨_, rfl⟩
  obtain ⟨a, h, hhead⟩ := Server.history_head hx hnext hresp
  obtain ⟨pre, env, hat, -⟩ := calls_of_history (h := []) hhead
  exact ⟨pre, env, a, hat⟩

/-- A chunk that was acknowledged before it is asked for with the ticket of its transfer is served,
unless somebody has cancelled the transfer or its time is over. -/
theorem acknowledged_available (d : Deployment) (hnp : d.np.Lawful) (es : List RelayEvent) (i : ℕ)
    (tid : ID) (hfresh : d.NoIDTwice es i) {kc k k' index : ℕ} {q : TransferCreate}
    {ticket : ByteArr 32} (hcreated : d.Created es i tid kc q ticket) {pre : List RelayEvent}
    (hpre : pre <+: es) {p : Bytes} (hup : d.Uploaded pre i tid k index p)
    (hlate : (started pre).length ≤ k') {r : HTTPRequest}
    (hx : (started es)[k']? = some (.shard i, r)) (hreads : r.ReadsChunk d.np tid index ticket)
    {resp : Response} (hresp : resp ∈ answers k' (d.trace es)) :
    (∃ p', d.Downloaded es i tid k' index p' ∧ d.H p' = d.H p) ∨ d.Cancelled es i tid ∨
      d.Overdue es i tid k' := by
  obtain ⟨hspells, g, hasks, rfl, rfl, hticket, hcount⟩ := hreads
  obtain ⟨pre₂, env, a, hat⟩ := reads_call hx hspells hasks hticket hcount hresp
  obtain ⟨post₂, hes₂⟩ := hat.place
  obtain ⟨p₀, ⟨pre₁, t₁, hpre₁, ht₁, hp₁⟩, hdigest⟩ := heldChunk_of_uploaded hnp hup
  -- The store is called after the chunk was there.
  have horder : pre₁ <+: pre₂ := by
    refine hpre₁.trans ((List.prefix_or_prefix_of_prefix hpre ⟨_, hes₂.symm⟩).resolve_right ?_)
    rintro ⟨mid, rfl⟩
    obtain ⟨x, hx₂, -⟩ := hat.entitled
    have hlt := (List.getElem?_eq_some_iff.mp hx₂).1
    rw [Pool.started_append, List.length_append] at hlate
    omega
  obtain ⟨mid, rfl⟩ := horder
  have hes : es = pre₁ ++ mid ++ .advance k' env :: post₂ := hes₂
  by_cases hcancel : d.Cancelled es i (copyArr 16 g.transferID)
  · exact .inr (.inl hcancel)
  have hthere := kept_relay hnp hcancel hes (by rw [ht₁]; rfl)
  obtain ⟨t₂, ht₂⟩ := Option.isSome_iff_exists.mp hthere
  have hp₂ := (extends_relay hfresh hes ht₁ ht₂).chunks _ _ hp₁
  by_cases hlive : t₂.state ≠ .complete → env.now < t₂.expiresAt
  · obtain ⟨time, hfixed⟩ := fixed_of_created hnp hfresh hcreated ⟨_, hes₂.symm⟩ ht₂
    have wf : WellFormed d.H t₂ := by
      rw [← store_run] at ht₂
      exact storeInv_run storeInv_newMemStore _ _ _ ht₂
    have hsecret : t₂.downloadSecretHash = d.H ticket.toList := congrArg (fun f => f.2.1) hfixed
    obtain rfl : a = .ok (p₀, (d.H p₀).toList) :=
      hat.served.1.trans (getChunkByTicket_live wf ht₂ hlive hsecret hp₂)
    obtain ⟨resp', hall, hstatus, -, hread⟩ := reported hnp hat rfl
    rw [hall, List.mem_singleton] at hresp
    subst hresp
    exact .inl ⟨p₀, ⟨r, g, resp, _, hx, hasks, rfl, rfl, hall ▸ List.mem_singleton_self resp,
      hstatus, hread trivial⟩, hdigest⟩
  · push Not at hlive
    exact .inr (.inr ⟨_, env, post₂, t₂, hes₂, ht₂, hlive⟩)

theorem acknowledged_available_sampleFile :
    (∃ p, sampleDeployment.Downloaded sampleFile 0 sampleID 2 1 p ∧ copyArr 32 p = copyArr 32 [3]) ∨
      sampleDeployment.Cancelled sampleFile 0 sampleID ∨
      sampleDeployment.Overdue sampleFile 0 sampleID 2 := by
  have huploaded : sampleDeployment.Uploaded (sampleFile.take 14) 0 sampleID 1 1 [3] := by
    obtain ⟨resp, hresp, hstatus⟩ := List.map_eq_singleton_iff.mp (by decide +kernel :
      (answers 1 (sampleDeployment.trace (sampleFile.take 14))).map Response.status = [200])
    exact ⟨_, _, resp, rfl, asks_sampleFile.2.2.1, copyArr_self _, rfl, rfl,
      hresp ▸ List.mem_cons_self, hstatus⟩
  have hreads : (samplePost .get (marshalChunkDownload NanoPack.reference (sampleGet 1))).ReadsChunk
      NanoPack.reference sampleID 1 sampleTicket :=
    ⟨spells_of_path rfl, sampleGet 1, asks_sampleFile.2.2.2 1 (.inr rfl), copyArr_self _, rfl,
      rfl, rfl⟩
  obtain ⟨-, -, hanswer, -⟩ := answers_sampleFile
  exact acknowledged_available _ NanoPack.reference_lawful _ _ _ noIDTwice_sampleFile
    created_sampleFile (List.take_prefix 14 _) huploaded (by decide) rfl hreads
    (hanswer ▸ List.mem_cons_self)

end Deployment

end FileRelay
