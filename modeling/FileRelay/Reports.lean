import FileRelay.Answers

/-!
# What takes effect is reported

A handler of a shard makes one last call, and what its store answers there is what the request is
told. The reply of a store that runs the relay can always be encoded (`encodes_reply`) : ids have 16
bytes and tickets 32, a batch is within the limits of its encoder, chunks and views have the sizes
of a transfer that was let in. So no success of a store is turned into an error on the way out
(`reported`), and in particular no message is burned that is not in the body of a response.

Two handlers call their stores more than once. The one of a put stores the chunk and then asks for
the progress of the transfer, which can be gone by then. What is reported is the last call.
-/

namespace FileRelay

open NanoPack (Codec layout)
open Pool (started history answers turns)

/-! ## What a read has found -/

section Reads

variable {H : Bytes → Digest} {s : MemStore} {now : ℤ} {tid mid : ID}

theorem getChunk_eq_ok {secret : Bytes} {index : UInt32} {out : Bytes × Bytes}
    (h : (getChunk H s now tid mid secret index).2 = .ok out) : ∃ t s',
      s.transfers.lookup tid = some t ∧ ownerAuth H s t mid secret now = .ok s' ∧
        readChunk t index.toNat = .ok out := by
  obtain ⟨t, ht, -, hr⟩ := onTransfer_eq_ok h
  cases ha : ownerAuth H s t mid secret now with
  | error e =>
    rw [ha] at hr
    cases hr
  | ok s' =>
    rw [ha] at hr
    exact ⟨t, s', ht, ha, hr⟩

theorem getChunkByTicket_eq_ok {ticket : Bytes} {index : UInt32} {out : Bytes × Bytes}
    (h : (getChunkByTicket H s now tid ticket index).2 = .ok out) : ∃ t,
      s.transfers.lookup tid = some t ∧ checkTicketLocked H t ticket = .ok () ∧
        readChunk t index.toNat = .ok out := by
  obtain ⟨t, ht, -, hr⟩ := onTransfer_eq_ok h
  cases ha : checkTicketLocked H t ticket with
  | error e =>
    rw [ha] at hr
    cases hr
  | ok u =>
    rw [ha] at hr
    exact ⟨t, ht, ha, hr⟩

/-- The view of a live transfer. -/
theorem served_view {views : ResumeView × TransferView} (h : Served H s now tid views.1 views.2) :
    ∃ t, s.transfers.lookup tid = some t ∧ views.1 = t.resumeView := by
  have hfound : ∃ t, s.transfers.lookup tid = some t := by
    rcases h with h | ⟨mid, secret, h⟩ | ⟨ticket, h⟩
    all_goals
      obtain ⟨t, ht, -, -⟩ := onTransfer_eq_ok h
      exact ⟨t, ht⟩
  obtain ⟨t, ht⟩ := hfound
  exact ⟨t, ht, served_eq ht h⟩

/-- A chunk that is read has the size and the digest of a chunk. -/
theorem readChunk_wellFormed {t : TransferData} (wf : WellFormed H t) {index : ℕ}
    {payload hash : Bytes} (h : readChunk t index = .ok (payload, hash)) :
    t.chunks.lookup index = some payload ∧ hash = (H payload).toList ∧ 0 < payload.length ∧
      payload.length ≤ maxChunkBytes := by
  unfold readChunk at h
  split_ifs at h with hlt
  cases hp : t.chunks.lookup index with
  | none =>
    rw [hp] at h
    cases h
  | some p =>
    rw [hp] at h
    obtain ⟨rfl, rfl⟩ := Prod.mk.inj (Except.ok.inj h)
    have hsize := wf.fits.size_pos
    have hmax := wf.chunkSize_le
    refine ⟨rfl, by rw [wf.hash_eq index p hp]; rfl, ?_⟩
    by_cases hfull : index < t.chunkCount - 1
    · rw [wf.length_full index p hp hfull]
      exact ⟨hsize, hmax⟩
    · obtain rfl : index = t.chunkCount - 1 := by omega
      rw [wf.length_last p hp]
      exact ⟨wf.last_pos, wf.last_le.trans hmax⟩

end Reads

/-! ## Replies can be encoded -/

section Encodes

variable {H : Bytes → Digest} {np : Codec}

theorem encodes_fields (hnp : np.Lawful) {fs : List NanoPack.Field} (hfs : fs.length ≤ 255) :
    ∃ body, encodeFields np fs = .ok body :=
  ⟨_, encodeFields_eq hnp hfs⟩

/-- An encoder goes on after a check that passes. -/
theorem encodes_after {bad : Prop} [Decidable bad] {code : ErrCode} {detail : String}
    {x : Wire Bytes} (hok : ¬bad) (hx : ∃ body, x = .ok body) :
    ∃ body, (rejectIf bad code detail >>= fun _ => x) = .ok body := by
  rw [rejectIf_neg hok, ok_bind]
  exact hx

theorem encodes_chunk (hnp : np.Lawful) {t : TransferData} (wf : WellFormed H t) (tid : ID)
    {index : UInt32} {out : Bytes × Bytes} (h : readChunk t index.toNat = .ok out) :
    ∃ body, (Reply.chunk ⟨tid.toList, index, out.1, out.2⟩).encode np = .ok body := by
  obtain ⟨-, hhash, hpos, hmax⟩ := readChunk_wellFormed wf h
  have hok : ¬(tid.toList.length ≠ 16 ∨ out.1.length = 0 ∨ maxChunkBytes < out.1.length ∨
      out.2.length ≠ 32) := by
    rintro (h | h | h | h)
    · exact h tid.toList_length
    · omega
    · omega
    · exact h (hhash ▸ (H out.1).toList_length)
  exact encodes_after hok (encodes_fields hnp (by simp))

theorem encodes_progress (hnp : np.Lawful) (t : TransferData) (tid : ID) :
    ∃ body, (Reply.chunkAck (chunkAckOf tid t.resumeView)).encode np = .ok body :=
  ⟨_, marshalChunkAck_eq hnp tid.toList_length (ranges_wire t).1 (ranges_wire t).2⟩

theorem encodes_resume (hnp : np.Lawful) {t : TransferData} (wf : WellFormed H t) (tid : ID) :
    ∃ body, (Reply.resumed (resumeResponseOf tid t.resumeView)).encode np = .ok body := by
  have hcount : (resumeResponseOf tid t.resumeView).chunkCount.toNat = t.chunkCount := by
    change (UInt32.ofNat t.resumeView.chunkCount).toNat = _
    rw [(resumeView_counts t).1, toNat_ofNat_of_le wf.chunkCount_le]
  refine ⟨_, marshalResumeResponse_eq hnp tid.toList_length (fun h0 => ?_)
    (hcount ▸ wf.chunkCount_le)⟩
  have hpos := wf.fits.count_pos
  rw [← hcount, h0] at hpos
  exact absurd hpos (by decide)

/-- In every state a store reaches, what it answers to the last call of a handler can be encoded. -/
theorem encodes_reply (hnp : np.Lawful) (es : List Event) (env : Env) {c : StoreCall} {a : c.Answer}
    {reply : Reply} (ha : a = (c.run H (runStore H es) env).2) (h : c.reply a = some reply) :
    ∃ body, reply.encode np = .ok body := by
  have inv : ∀ {tid t}, (runStore H es).transfers.lookup tid = some t → WellFormed H t :=
    fun ht => storeInv_run storeInv_newMemStore es _ _ ht
  cases c with
  | createMailbox => cases h
  | mailboxExists => cases h
  | checkAndMarkReplay => cases h
  | putChunk => cases h
  | getTransfer => cases h
  | sendMessage m =>
    rcases a with e | ⟨id, queued⟩ <;> cases h
    exact encodes_after (not_not.mpr id.toList_length) (encodes_fields hnp (by simp))
  | receiveMessages mid secret limit peek =>
    rcases a with e | ⟨batch, consumed⟩ <;> cases h
    have hres : receiveMessages H (runStore H es) env.now mid secret limit peek =
        ((receiveMessages H (runStore H es) env.now mid secret limit peek).1,
          .ok (batch, consumed)) := Prod.ext rfl ha.symm
    exact ⟨_, marshalReceiveMessagesResponse_eq hnp (deliverable_run H es hres) consumed⟩
  | ackMessages mid secret ids disposition =>
    rcases a with e | ⟨acked, remaining⟩ <;> cases h
    exact encodes_fields hnp (by simp)
  | createTransfer t =>
    rcases a with e | ⟨tid, ticket, exp⟩ <;> cases h
    have hout := createTransfer_outcome H (runStore H es) env.now t env.id env.draw
    change _ = (createTransfer H (runStore H es) env.now t env.id env.draw).2 at ha
    generalize createTransfer H (runStore H es) env.now t env.id env.draw = res at hout ha
    generalize env.draw = draw at hout
    cases hout with
    | rejected => cases ha
    | stored arr =>
      cases ha
      exact encodes_after (not_not.mpr env.id.toList_length)
        (encodes_after (not_not.mpr arr.toList_length) (encodes_fields hnp (by simp)))
  | progress tid =>
    rcases a with e | views <;> cases h
    obtain ⟨t, -, hview⟩ := served_view (H := H) (.inl ha.symm)
    rw [hview]
    exact encodes_progress hnp t tid
  | getChunk tid mid secret index =>
    rcases a with e | ⟨payload, hash⟩ <;> cases h
    obtain ⟨t, s', ht, -, hread⟩ := getChunk_eq_ok ha.symm
    exact encodes_chunk hnp (inv ht) tid hread
  | getChunkByTicket tid ticket index =>
    rcases a with e | ⟨payload, hash⟩ <;> cases h
    obtain ⟨t, ht, -, hread⟩ := getChunkByTicket_eq_ok ha.symm
    exact encodes_chunk hnp (inv ht) tid hread
  | resume tid mid secret =>
    rcases a with e | views <;> cases h
    obtain ⟨t, ht, hview⟩ := served_view (H := H) (.inr (.inl ⟨mid, secret, ha.symm⟩))
    rw [hview]
    exact encodes_resume hnp (inv ht) tid
  | resumeByTicket tid ticket =>
    rcases a with e | views <;> cases h
    obtain ⟨t, ht, hview⟩ := served_view (H := H) (.inr (.inr ⟨ticket, ha.symm⟩))
    rw [hview]
    exact encodes_resume hnp (inv ht) tid
  | completeTransfer t =>
    rcases a with e | ⟨isSealed, present, count⟩ <;> cases h
    exact encodes_fields hnp (by simp)
  | cancelTransfer tid mid secret =>
    rcases a with e | u <;> cases h
    exact encodes_fields hnp (by simp)

end Encodes

/-! ## The relay -/

namespace Deployment

variable {d : Deployment} {es pre : List RelayEvent} {k i : ℕ} {env : Env}

/-- The calls with a reply are those of the handlers of shards. -/
theorem shard_of_reply {x : Host × HTTPRequest} {h : History} {c : StoreCall} {a : c.Answer}
    {reply : Reply} (hent : d.Entitled x h (.store i c)) (hreply : c.reply a = some reply) :
    x.1 = .shard i := by
  cases c <;> first | cases hreply | exact hent.1

/-- The reply after a last call that has one. -/
theorem tells_of_reply {x : Host × HTTPRequest} {h : History} {c : StoreCall} {a : c.Answer}
    {reply reply' : Reply} (hx : x.1 = .shard i) (hreply : c.reply a = some reply)
    (ht : d.Tells x (h ++ [answeredBy i c a]) reply') : reply' = reply := by
  generalize hh : h ++ [answeredBy i c a] = h' at ht
  cases ht with
  | hello now => cases (List.append_inj' hh rfl).2
  | registered => cases hx
  | resolved => cases hx
  | table => cases hx
  | store hasks hcall hput hreply' =>
    cases (List.append_inj' hh rfl).2
    exact Option.some.inj (hreply'.symm.trans hreply)

/-- A request whose handler has made its last call is told what the store answered, if that was a
success. -/
theorem reported (hnp : d.np.Lawful) {c : StoreCall} {a : c.Answer} {reply : Reply}
    (h : d.CallsAt es pre k env (.store i c) a) (hreply : c.reply a = some reply) :
    ∃ resp, answers k (d.trace es) = [resp] ∧ resp.status = 200 ∧
      resp.schema = some reply.schema ∧ (reply.Fits resp.body → reply.ReadFrom d.np resp.body) := by
  obtain ⟨x, resp, hx, hresp, hacc⟩ := h.finished (StoreCall.final_of_reply hreply)
  obtain ⟨x', hx', hent⟩ := h.entitled
  obtain rfl := Option.some.inj (hx.symm.trans hx')
  have hshard := shard_of_reply hent hreply
  refine ⟨resp, hresp, ?_⟩
  cases hacc with
  | told reply' body ht hbody hresp' =>
    subst hresp'
    obtain rfl := tells_of_reply hshard hreply ht
    refine ⟨reply'.status_response body, reply'.schema_response body, fun hfit => ?_⟩
    rw [Reply.body_response] at hfit ⊢
    exact Reply.readFrom_encode hnp hbody hfit
  | refused e he hfail hresp' =>
    have hrun := h.served.1
    change a = (c.run d.H ((d.run pre).object.stores i) env).2 at hrun
    rw [← store_run] at hrun
    obtain ⟨body, hbody⟩ := encodes_reply hnp _ env hrun hreply
    exact absurd hbody (hfail _ i c a reply body rfl hreply)
  | turned hx hh => simp at hh

/-- A request asks for one thing. -/
theorem asks_unique {np : Codec} {r : HTTPRequest} {ask ask' : Ask} (h : r.Asks np ask)
    (h' : r.Asks np ask') : ask = ask' := by
  have hroute : ask.route = ask'.route := Option.some.inj (h.route.symm.trans h'.route)
  cases ask <;> cases ask' <;> first
    | (cases hroute; done)
    | exact congrArg _ (Except.ok.inj (h.decodes.symm.trans h'.decodes))

/-- What a request was told with status 200. -/
theorem told_of_status (hnp : d.np.Lawful) {r : HTTPRequest} {ask : Ask} {resp : Response}
    (hx : (started es)[k]? = some (.shard i, r)) (hasks : r.Asks d.np ask)
    (hresp : resp ∈ answers k (d.trace es)) (hstatus : resp.status = 200) :
    ∃ c reply, ∃ a : c.Answer, ∃ pre env, ask.lastCall = some c ∧ c.reply a = some reply ∧
      d.CallsAt es pre k env (.store i c) a ∧
      (∀ u, ask = .put u → ∃ n : ℕ,
        answeredBy i (.putChunk u) (Except.ok n) ∈ history k (d.trace pre)) ∧
      (reply.Fits resp.body → reply.ReadFrom d.np resp.body) := by
  obtain ⟨x, hx', hrep⟩ := replied_run hnp hresp
  obtain rfl := Option.some.inj (hx.symm.trans hx')
  cases hrep with
  | failed e hcode => exact absurd (hcode.symm.trans hstatus) (Host.statusFor_ne _ e.code)
  | turned _ hpage => exact absurd hstatus hpage.status_ne
  | told reply ht _ _ hread =>
    generalize hh : history k (d.trace es) = h at ht
    cases ht with
    | hello now hroute =>
      have hne : ask.route = .hello := Option.some.inj (hasks.route.symm.trans hroute)
      cases ask <;> cases hne
    | store hasks' hcall hput hreply =>
      obtain rfl := asks_unique hasks hasks'
      obtain ⟨pre, env, hat, hpre⟩ := calls_of_history hh
      exact ⟨_, reply, _, pre, env, hcall, hreply, hat, hpre ▸ hput, hread⟩

/-- The status of an answer is honest : a shard answers a request with status 200 exactly if its
store has answered the last call for it with a success, and then the client reads off the answer
what that was. -/
theorem status_honest (d : Deployment) (hnp : d.np.Lawful) (es : List RelayEvent) (k i : ℕ)
    (r : HTTPRequest) (ask : Ask) (hx : (started es)[k]? = some (.shard i, r))
    (hasks : r.Asks d.np ask) (resp : Response) (hresp : resp ∈ answers k (d.trace es)) :
    (resp.status = 200 ↔ ∃ c, ∃ a : c.Answer, ask.lastCall = some c ∧ (c.reply a).isSome = true ∧
      answeredBy i c a ∈ history k (d.trace es)) ∧
    ∀ c (a : c.Answer) reply, answeredBy i c a ∈ history k (d.trace es) → c.reply a = some reply →
      reply.Fits resp.body → reply.ReadFrom d.np resp.body := by
  have hreported : ∀ {c} {a : c.Answer} {reply}, answeredBy i c a ∈ history k (d.trace es) →
      c.reply a = some reply → resp.status = 200 ∧
        (reply.Fits resp.body → reply.ReadFrom d.np resp.body) := by
    intro c a reply hmem hreply
    obtain ⟨h, h', hh⟩ := List.append_of_mem hmem
    obtain ⟨pre, env, hat, -⟩ := calls_of_history hh
    obtain ⟨resp', hall, hstatus, -, hread⟩ := reported hnp hat hreply
    rw [hall, List.mem_singleton] at hresp
    exact hresp ▸ ⟨hstatus, hread⟩
  refine ⟨⟨fun hstatus => ?_, ?_⟩, fun c a reply hmem hreply => (hreported hmem hreply).2⟩
  · obtain ⟨c, reply, a, pre, env, hcall, hreply, hat, -⟩ :=
      told_of_status hnp hx hasks hresp hstatus
    obtain ⟨post, hes⟩ := hat.place
    exact ⟨c, a, hcall, by rw [hreply]; rfl, hat.mem_history hes⟩
  · rintro ⟨c, a, -, hsome, hmem⟩
    obtain ⟨reply, hreply⟩ := Option.isSome_iff_exists.mp hsome
    exact (hreported hmem hreply).1

theorem status_honest_sampleMail : ∃ resp, answers 1 (sampleDeployment.trace sampleMail) = [resp] ∧
    resp.status = 200 ∧ ∃ c, ∃ a : c.Answer, some (.sendMessage sampleMessage) = some c ∧
      (c.reply a).isSome = true ∧
      answeredBy 0 c a ∈ history 1 (sampleDeployment.trace sampleMail) := by
  have hasks : (samplePost .send (marshalSendMessage NanoPack.reference sampleMessage)).Asks
      NanoPack.reference (.send sampleMessage) :=
    ⟨rfl, by decide +kernel, (by decide +kernel : decodeRequest _ _ _ = _)⟩
  obtain ⟨resp, hresp, hstatus⟩ := List.map_eq_singleton_iff.mp (by decide +kernel :
    (answers 1 (sampleDeployment.trace sampleMail)).map Response.status = [200])
  have hmem : resp ∈ answers 1 (sampleDeployment.trace sampleMail) := by
    rw [hresp]
    exact List.mem_cons_self
  exact ⟨resp, hresp, hstatus, (status_honest sampleDeployment NanoPack.reference_lawful sampleMail
    1 0 _ _ (by decide +kernel) hasks resp hmem).1.mp hstatus⟩

end Deployment

end FileRelay
