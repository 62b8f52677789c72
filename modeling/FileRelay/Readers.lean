import FileRelay.Credentials
import FileRelay.Files

/-!
# Who reads

A request that reads, acknowledges or cancels presents a credential : the secret of a mailbox, the
secret of the mailbox a transfer is bound to, or the ticket of a transfer. `reads_permitted` traces
every such request that was answered with status 200 back to the request that was given the
credential. A secret is the one drawn for the last registration of its mailbox before the read, so
one that was replaced opens the mailbox no more (`LastRegistered`), and that registration was signed
with a key of the mailbox. A ticket is the one its creator was told. Digests are compared, so this
is said of their arguments up to a collision.

The one way without a credential is the owner's path to a transfer that was created for no mailbox.
-/

namespace FileRelay

open Pool (started history answers turns)

/-- What a request is let in with. -/
inductive Credential
  | mailbox (mid : ID) (secret : Bytes)
  | owner (tid mid : ID) (secret : Bytes)
  | ticket (tid : ID) (ticket : Bytes)

/-- The credential of a call that reads, acknowledges or cancels. -/
def StoreCall.credential : StoreCall → Option Credential
  | receiveMessages mid secret _ _ => some (.mailbox mid secret)
  | ackMessages mid secret _ _ => some (.mailbox mid secret)
  | getChunk tid mid secret _ => some (.owner tid mid secret)
  | resume tid mid secret => some (.owner tid mid secret)
  | cancelTransfer tid mid secret => some (.owner tid mid secret)
  | getChunkByTicket tid ticket _ => some (.ticket tid ticket)
  | resumeByTicket tid ticket => some (.ticket tid ticket)
  | _ => none

/-- The store accepts the credential. -/
def Credential.Accepted (H : Bytes → Digest) (s : MemStore) : Credential → Prop
  | .mailbox mid secret => ∃ mb, s.mailboxes.lookup mid = some mb ∧
      secretMatches H mb.readSecretHash secret = true
  | .owner tid mid secret => ∃ t, s.transfers.lookup tid = some t ∧ (t.hasMailbox = true →
      t.mailboxID = mid ∧ ∃ mb, s.mailboxes.lookup mid = some mb ∧
        secretMatches H mb.readSecretHash secret = true)
  | .ticket tid tk => ∃ t, s.transfers.lookup tid = some t ∧ tk.length = 32 ∧
      H tk = t.downloadSecretHash

section Store

variable {H : Bytes → Digest} {s : MemStore}

theorem accepted_of_ownerAuth {s' : MemStore} {t : TransferData} {now : ℤ} {tid mid : ID}
    {secret : Bytes} (ht : s.transfers.lookup tid = some t)
    (ha : ownerAuth H s t mid secret now = .ok s') :
    (Credential.owner tid mid secret).Accepted H s := by
  refine ⟨t, ht, fun hm => ?_⟩
  rcases (ownerAuth_eq_ok H).mp ha with ⟨hno, -⟩ | ⟨-, hid, mb, hmb, -, hsec, -⟩
  · rw [hm] at hno
    cases hno
  · exact ⟨hid, mb, hmb, hsec⟩

theorem accepted_of_receive {now limit : ℤ} {mid : ID} {secret : Bytes} {peek : Bool}
    {out : List StoredMessage × Bool}
    (h : (receiveMessages H s now mid secret limit peek).2 = .ok out) :
    (Credential.mailbox mid secret).Accepted H s := by
  have hout := receiveMessages_outcome H s now mid secret limit peek
  generalize receiveMessages H s now mid secret limit peek = res at hout h
  rcases hout with ⟨e⟩ | ⟨hmb, -, hsec⟩
  · cases h
  · exact ⟨_, hmb, hsec⟩

theorem accepted_of_ack {now : ℤ} {mid : ID} {secret : Bytes} {ids : List Bytes}
    {disposition : UInt8} {out : ℕ × ℕ}
    (h : (ackMessages H s now mid secret ids disposition).2 = .ok out) :
    (Credential.mailbox mid secret).Accepted H s := by
  have hout := ackMessages_outcome H s now mid secret ids disposition
  generalize ackMessages H s now mid secret ids disposition = res at hout h
  rcases hout with ⟨e⟩ | ⟨e, -, -⟩ | ⟨hmb, -, hsec, -⟩
  · cases h
  · cases h
  · exact ⟨_, hmb, hsec⟩

theorem accepted_of_cancel {now : ℤ} {tid mid : ID} {secret : Bytes}
    (h : (cancelTransfer H s now tid mid secret).2 = .ok ()) :
    (Credential.owner tid mid secret).Accepted H s := by
  have hout := cancelTransfer_outcome H s now tid mid secret
  generalize cancelTransfer H s now tid mid secret = res at hout h
  rcases hout with ⟨e⟩ | ⟨ht, ha⟩
  · cases h
  · exact accepted_of_ownerAuth ht ha

/-- A call with a reply had its credential accepted. -/
theorem accepted_of_reply {env : Env} {c : StoreCall} {a : c.Answer} {cred : Credential}
    {reply : Reply} (ha : a = (c.run H s env).2) (hcred : c.credential = some cred)
    (hreply : c.reply a = some reply) : cred.Accepted H s := by
  cases c with
  | receiveMessages mid secret limit peek =>
    cases hcred
    rcases a with e | out
    · cases hreply
    · exact accepted_of_receive ha.symm
  | ackMessages mid secret ids disposition =>
    cases hcred
    rcases a with e | out
    · cases hreply
    · exact accepted_of_ack ha.symm
  | getChunk tid mid secret index =>
    cases hcred
    rcases a with e | out
    · cases hreply
    · obtain ⟨t, s', ht, hauth⟩ := auth_of_getChunk ha.symm
      exact accepted_of_ownerAuth ht hauth
  | resume tid mid secret =>
    cases hcred
    rcases a with e | out
    · cases hreply
    · obtain ⟨t, s', ht, hauth⟩ := auth_of_resume ha.symm
      exact accepted_of_ownerAuth ht hauth
  | cancelTransfer tid mid secret =>
    cases hcred
    rcases a with e | out
    · cases hreply
    · exact accepted_of_cancel ha.symm
  | getChunkByTicket tid ticket index =>
    cases hcred
    rcases a with e | out
    · cases hreply
    · exact ticket_of_getChunkByTicket ha.symm
  | resumeByTicket tid ticket =>
    cases hcred
    rcases a with e | out
    · cases hreply
    · exact ticket_of_resumeByTicket ha.symm
  | _ => cases hcred

end Store

/-! ## The relay -/

namespace Deployment

variable {d : Deployment} {es : List RelayEvent} {i : ℕ}

/-- The call after `pre` is the last that registered the mailbox, and set the digest of its
secret. -/
structure LastRegistered (d : Deployment) (es : List RelayEvent) (i : ℕ) (mid : ID) (hash : Digest)
    (pre : List RelayEvent) (k : ℕ) : Prop where
  call : ∃ env b, d.CallsAt es pre k env (.store i (.createMailbox mid hash)) b
  last : ∀ pre' k' env' hash' b',
    d.CallsAt es pre' k' env' (.store i (.createMailbox mid hash')) b' → pre' <+: pre

/-- A mailbox has the secret of its last registration. -/
theorem lastRegistered_of_mailbox (es : List RelayEvent) {mid : ID} {mb : MailboxData}
    (hmb : ((d.run es).object.stores i).mailboxes.lookup mid = some mb) :
    ∃ pre k, d.LastRegistered es i mid mb.readSecretHash pre k := by
  induction es using List.reverseRecOn generalizing mb with
  | nil => cases hmb
  | append_singleton es e ih =>
    have hstep : (d.run (es ++ [e])).object = (d.relay.pool.step (d.run es) e).1.object := by
      rw [run, Machine.run_concat]
      rfl
    rw [hstep] at hmb
    by_cases hcreate : ∃ k env hash b,
        d.CallsAt (es ++ [e]) es k env (.store i (.createMailbox mid hash)) b
    · obtain ⟨k, env, hash, b, hat⟩ := hcreate
      obtain rfl : e = .advance k env := by
        obtain ⟨post, hes⟩ := hat.place
        exact (List.cons.inj (List.append_cancel_left hes)).1
      -- The step sets the digest.
      rw [hat.served.2] at hmb
      change (Function.update (d.run es).object.stores i _ i).mailboxes.lookup mid = _ at hmb
      rw [Function.update_self] at hmb
      obtain ⟨mb', hmb', rfl⟩ := Router.lookup_createMailbox (H := d.H)
        ((d.run es).object.stores i) env.now mid hash
      obtain rfl := Option.some.inj (hmb'.symm.trans hmb)
      refine ⟨es, k, ⟨env, b, hat⟩, fun pre' k' env' hash' b' hat' => ?_⟩
      rcases hat'.concat_cases with ⟨rfl, -⟩ | hat'
      · exact List.prefix_rfl
      · exact hat'.isPrefix
    · -- Any other step keeps it.
      have hkept : ∃ mb₀, ((d.run es).object.stores i).mailboxes.lookup mid = some mb₀ ∧
          mb.readSecretHash = mb₀.readSecretHash := by
        cases hs : storeStep i (e, (d.relay.pool.step (d.run es) e).2) with
        | none =>
          rw [(d.projects_store i).quiet _ _ hs] at hmb
          exact ⟨mb, hmb, rfl⟩
        | some y =>
          have hmade : ((store d.H).step ((d.run es).object.stores i) y.1).1 =
              (d.relay.pool.step (d.run es) e).1.object.stores i :=
            congrArg Prod.fst ((d.projects_store i).made _ _ _ hs)
          rw [← hmade] at hmb
          rcases mailbox_origin hmb with hop | hkept
          · obtain ⟨k, k', env, c, a, resp, hx, rfl⟩ := storeStep_eq_some.mp hs
            obtain ⟨rfl, hout⟩ := Prod.mk.inj hx
            cases c <;> cases hop
            exact absurd ⟨k, env, _, a, ⟨[], rfl⟩, congrArg Pool.Output.call hout⟩ hcreate
          · exact hkept
      obtain ⟨mb₀, hmb₀, hhash⟩ := hkept
      obtain ⟨pre, k, ⟨env, b, hat⟩, hlast⟩ := ih hmb₀
      rw [hhash]
      refine ⟨pre, k, ⟨env, b, hat.mono [e]⟩, fun pre' k' env' hash' b' hat' => ?_⟩
      rcases hat'.concat_cases with ⟨rfl, -⟩ | hat''
      · exact absurd ⟨k', env', hash', b', hat'⟩ hcreate
      · exact hlast pre' k' env' hash' b' hat''

variable (d es i) in
/-- The secret was drawn for the registration of the mailbox that was the last one after `pre`, and
that registration was signed with a key of the mailbox. -/
def Opens (pre : List RelayEvent) (mid : ID) (secret : Bytes) : Prop :=
  ∃ pre₀ k₀ r q now, ∃ drawn : ByteArr 32,
    d.LastRegistered pre i mid (d.H drawn.toList) pre₀ k₀ ∧
    (started es)[k₀]? = some (.router, r) ∧ r.Asks d.np (.register q) ∧
    authRegister d.verify q now = .ok () ∧ mid = d.mailboxOf q.clientPub ∧
    ⟨.draw, some drawn⟩ ∈ history k₀ (d.trace pre₀) ∧ secret.length = 32 ∧
    d.H secret = d.H drawn.toList

variable (d es i) in
/-- A request served after `pre` was given its credential. -/
def Permits (pre : List RelayEvent) : Credential → Prop
  | .mailbox mid secret => d.Opens es i pre mid secret
  | .owner tid mid secret => ∃ k q ticket, d.Created es i tid k q ticket ∧
      (q.mailboxID.length = 16 → copyArr 16 q.mailboxID = mid ∧ d.Opens es i pre mid secret)
  | .ticket tid tk => ∃ k q ticket, d.Created es i tid k q ticket ∧ tk.length = 32 ∧
      d.H tk = d.H ticket.toList

theorem opens_of_mailbox {pre : List RelayEvent} (hpre : pre <+: es) {mid : ID} {mb : MailboxData}
    {secret : Bytes} (hmb : ((d.run pre).object.stores i).mailboxes.lookup mid = some mb)
    (hsec : secretMatches d.H mb.readSecretHash secret = true) : d.Opens es i pre mid secret := by
  obtain ⟨pre₀, k₀, hlast⟩ := lastRegistered_of_mailbox pre hmb
  obtain ⟨env, b, hat⟩ := hlast.call
  obtain ⟨post, rfl⟩ := hpre
  obtain ⟨⟨host, r⟩, hx, hhost, q, now, drawn, hreg, hmid, hhash, -⟩ := hat.entitled
  cases hhost
  obtain ⟨hlen, hdigest⟩ := secretMatches_iff.mp hsec
  rw [hhash] at hlast hdigest
  refine ⟨pre₀, k₀, r, q, now, drawn, hlast, (hat.mono post).started_mono hx, hreg.asks,
    hreg.signed, hmid, ?_, hlen, hdigest⟩
  rw [hreg.calls]
  simp

/-- The creator of a transfer was told its id and its ticket. -/
theorem created_of_transfer (hnp : d.np.Lawful) {pre : List RelayEvent} (hpre : pre <+: es)
    {tid : ID} {t : TransferData}
    (ht : ((d.run pre).object.stores i).transfers.lookup tid = some t) :
    ∃ k q ticket time, d.Created es i tid k q ticket ∧
      t.fixed = (createdTransfer d.H q ticket time).fixed := by
  obtain ⟨post, rfl⟩ := hpre
  obtain ⟨e, q, ticket, hmem, hop, hfixed⟩ := transfer_recorded pre ht post
  obtain ⟨pre', k, env, c, a, hat, rfl, hout⟩ := calls_of_mem hmem
  cases c with
  | createTransfer q' =>
    obtain rfl : q' = q := by
      injection hop
    obtain rfl : a = .ok (tid, ticket.toList, deadline env.now uploadTTLSeconds) := by
      injection hout.symm
    obtain ⟨⟨host, r⟩, hx, hhost, hasks, -⟩ := hat.entitled
    cases hhost
    obtain ⟨resp, hresp, hstatus, -, hread⟩ := reported hnp hat rfl
    have hbody := hread trivial
    rw [Reply.ReadFrom, copyArr_self, copyArr_self] at hbody
    exact ⟨k, q', ticket, env.now, ⟨r, resp, _, hat.started_mono hx, hasks,
      hresp ▸ List.mem_singleton_self resp, hstatus, hbody⟩, hfixed⟩
  | _ => cases hop

theorem permits_of_accepted (hnp : d.np.Lawful) {pre : List RelayEvent} (hpre : pre <+: es)
    {cred : Credential} (h : cred.Accepted d.H ((d.run pre).object.stores i)) :
    d.Permits es i pre cred := by
  cases cred with
  | mailbox mid secret =>
    obtain ⟨mb, hmb, hsec⟩ := h
    exact opens_of_mailbox hpre hmb hsec
  | owner tid mid secret =>
    obtain ⟨t, ht, howner⟩ := h
    obtain ⟨k, q, ticket, time, hcreated, hfixed⟩ := created_of_transfer hnp hpre ht
    refine ⟨k, q, ticket, hcreated, fun hlen => ?_⟩
    have hbound : (t.mailboxID, t.hasMailbox) = (copyArr 16 q.mailboxID, true) := by
      have hfirst := congrArg Prod.fst hfixed
      rw [show (createdTransfer d.H q ticket time).fixed.1 = (copyArr 16 q.mailboxID, true) by
        simp [createdTransfer, newTransfer, TransferData.fixed, hlen]] at hfirst
      exact hfirst
    obtain ⟨hmid, hhas⟩ := Prod.mk.inj hbound
    obtain ⟨hid, mb, hmb, hsec⟩ := howner hhas
    exact ⟨hmid.symm.trans hid, opens_of_mailbox hpre hmb hsec⟩
  | ticket tid tk =>
    obtain ⟨t, ht, hlen, hdigest⟩ := h
    obtain ⟨k, q, ticket, time, hcreated, hfixed⟩ := created_of_transfer hnp hpre ht
    have hsecret : t.downloadSecretHash = d.H ticket.toList := congrArg (fun f => f.2.1) hfixed
    exact ⟨k, q, ticket, hcreated, hlen, hdigest.trans hsecret⟩

/-- Every request that reads, acknowledges or cancels, and is answered with status 200, was served
with a credential it was given. -/
theorem reads_permitted (d : Deployment) (hnp : d.np.Lawful) (es : List RelayEvent) {k i : ℕ}
    {r : HTTPRequest} {ask : Ask} {c : StoreCall} {cred : Credential} {resp : Response}
    (hx : (started es)[k]? = some (.shard i, r)) (hasks : r.Asks d.np ask)
    (hcall : ask.lastCall = some c) (hcred : c.credential = some cred)
    (hresp : resp ∈ answers k (d.trace es)) (hstatus : resp.status = 200) :
    ∃ pre env, ∃ a : c.Answer, d.CallsAt es pre k env (.store i c) a ∧ d.Permits es i pre cred := by
  obtain ⟨c', reply, a, pre, env, hcall', hreply, hat, -⟩ :=
    told_of_status hnp hx hasks hresp hstatus
  obtain rfl := Option.some.inj (hcall.symm.trans hcall')
  exact ⟨pre, env, a, hat,
    permits_of_accepted hnp hat.isPrefix (accepted_of_reply hat.served.1 hcred hreply)⟩

theorem reads_permitted_sampleMail : ∃ pre,
    sampleDeployment.Opens sampleMail 0 pre (sampleDeployment.mailboxOf sampleRegister.clientPub)
      sampleTicket.toList := by
  have hasks : (samplePost .receive (marshalReceiveMessages NanoPack.reference sampleReceive)).Asks
      NanoPack.reference (.receive sampleReceive) :=
    ⟨rfl, by decide +kernel, (by decide +kernel : decodeRequest _ _ _ = _)⟩
  obtain ⟨resp, hresp, hstatus⟩ := List.map_eq_singleton_iff.mp (by decide +kernel :
    (answers 2 (sampleDeployment.trace sampleMail)).map Response.status = [200])
  have hmem : resp ∈ answers 2 (sampleDeployment.trace sampleMail) := by
    rw [hresp]
    exact List.mem_cons_self
  obtain ⟨pre, -, -, -, hopens⟩ := reads_permitted sampleDeployment NanoPack.reference_lawful
    sampleMail (i := 0) (by decide +kernel) hasks rfl rfl hmem hstatus
  have hmid : copyArr 16 sampleReceive.mailboxID =
      sampleDeployment.mailboxOf sampleRegister.clientPub := copyArr_self _
  exact ⟨pre, hmid ▸ hopens⟩

end Deployment

end FileRelay
