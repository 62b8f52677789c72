import FileRelay.Traffic

/-!
# Answers

`Replied` is the contract of a response : its status and schema, and what the decoder of that schema
makes of its body. A shard that answers with status 200 says what its store answered to the last
call of the handler, and the router what it has registered, found or signed (`Tells`). Every other
answer is an error body that the decoder of errors accepts, with the status of its code, or the page
of the mux of a shard for a path that it does not pass on.

`answered_once` puts this together with the bound on the calls of a handler : under every
interleaving each request is answered at most once, by `Replied`, and it is answered after
`maxCalls` turns of its handler.
-/

namespace FileRelay

open Pool (started history answers turns)

/-- `httpStatusFor` of a host. -/
def Host.statusFor : Host → ErrCode → ℕ
  | .router => Router.httpStatusFor
  | .shard _ => httpStatusFor

theorem Host.statusFor_ne (host : Host) (c : ErrCode) : host.statusFor c ≠ 200 := by
  cases host with
  | router => exact Router.httpStatusFor_ne c
  | shard i => exact httpStatusFor_ne c

namespace Deployment

variable (d : Deployment)

/-- The contract of a response. -/
inductive Replied (x : Host × HTTPRequest) (h : History) (resp : Response) : Prop
  | told (reply : Reply) (ht : d.Tells x h reply) (hstatus : resp.status = 200)
      (hschema : resp.schema = some reply.schema)
      (hread : reply.Fits resp.body → reply.ReadFrom d.np resp.body)
  | failed (e : ProtocolError) (hstatus : resp.status = x.1.statusFor e.code)
      (hschema : resp.schema = some 51) (hread : unmarshalError d.np resp.body = .ok e.wire)
  | turned (hx : x.1 ≠ .router) (hresp : d.TurnedAway x.2 resp)

variable {d}

theorem replied_error (hnp : d.np.Lawful) {x : Host × HTTPRequest} {h : History}
    {e : ProtocolError} (he : e.Brief) : d.Replied x h (x.1.writeError d.np e) := by
  obtain ⟨_ | i, r⟩ := x
  · exact .failed e rfl rfl (unmarshalError_errorBody hnp he)
  · change d.Replied _ h (Shard.writeError d.np e)
    unfold Shard.writeError
    split_ifs
    · exact .failed { e with retryAfter := 60 } rfl rfl (unmarshalError_errorBody hnp he)
    · exact .failed e rfl rfl (unmarshalError_errorBody hnp he)

/-- Every answer of a run keeps the contract. -/
theorem replied_run (hnp : d.np.Lawful) {es : List RelayEvent} {k : ℕ} {resp : Response}
    (h : resp ∈ answers k (d.trace es)) : ∃ x, (started es)[k]? = some x ∧
      d.Replied x (history k (d.trace es)) resp := by
  obtain ⟨x, hx, hacc⟩ := accounted_run h
  refine ⟨x, hx, ?_⟩
  cases hacc with
  | told reply body ht hbody hresp =>
    subst hresp
    refine .told reply ht (reply.status_response body) (reply.schema_response body) fun hfit => ?_
    rw [Reply.body_response] at hfit ⊢
    exact Reply.readFrom_encode hnp hbody hfit
  | refused e he _ hresp => exact hresp ▸ replied_error hnp he
  | turned hx _ hresp => exact .turned hx hresp

/-- A request that arrives after the events `pre` is answered at most once, with a response that
keeps the contract, and it is answered when its handler has had `maxCalls` turns. -/
theorem answered_once (d : Deployment) (hnp : d.np.Lawful) (pre post : List RelayEvent)
    (x : Host × HTTPRequest) :
    (answers (started pre).length (d.trace (pre ++ .start x :: post))).length ≤ 1 ∧
    (∀ resp ∈ answers (started pre).length (d.trace (pre ++ .start x :: post)),
      d.Replied x (history (started pre).length (d.trace (pre ++ .start x :: post))) resp) ∧
    (d.maxCalls ≤ turns (started pre).length post →
      ∃ resp, answers (started pre).length (d.trace (pre ++ .start x :: post)) = [resp]) := by
  refine ⟨?_, fun resp hresp => ?_, fun hturns => ?_⟩
  · exact d.length_answers _ _
  · obtain ⟨x', hx', hrep⟩ := replied_run hnp hresp
    have hx : (started (pre ++ .start x :: post))[(started pre).length]? = some x := by
      rw [Pool.started_append, List.getElem?_append_right (le_refl _), Nat.sub_self]
      rfl
    obtain rfl := Option.some.inj (hx.symm.trans hx')
    exact hrep
  · have hstart : (d.relay.pool.step (d.run pre) (.start x)).1.tasks[(started pre).length]? =
        some (d.serveHTTP x) := by
      rw [Server.step_start, ← d.length_tasks]
      exact List.getElem?_concat_length
    obtain ⟨resp, hresp⟩ := Server.answered_of_advances (S := d.relay) post hstart
      (d.bounded_serveHTTP x) hturns
    refine ⟨resp, ?_⟩
    have hrun : d.run (pre ++ .start x :: post) =
        d.relay.pool.run (d.relay.pool.step (d.run pre) (.start x)).1 post := by
      rw [run, Machine.run_append, Machine.run_cons]
      rfl
    rw [answers_run, hrun, hresp]
    rfl

theorem answered_once_hello :
    let x : Host × HTTPRequest := (.shard 0, ⟨.get, Route.hello.path, [], 0, [], false⟩)
    let es : List RelayEvent := .start x :: List.replicate 6 (.advance 0 ⟨5, copyArr 16 [], none⟩)
    ∃ resp, answers 0 (sampleDeployment.trace es) = [resp] ∧
      sampleDeployment.Replied x (history 0 (sampleDeployment.trace es)) resp := by
  intro x es
  obtain ⟨-, hall, hex⟩ := answered_once sampleDeployment NanoPack.reference_lawful []
    (List.replicate 6 (.advance 0 ⟨5, copyArr 16 [], none⟩)) x
  obtain ⟨resp, hresp⟩ := hex (by decide)
  exact ⟨resp, hresp, hall resp (hresp ▸ List.mem_singleton_self resp)⟩

end Deployment

end FileRelay
