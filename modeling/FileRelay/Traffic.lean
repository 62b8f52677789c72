import FileRelay.Conduct

/-!
# Runs of the relay

A run of `relay` is any order in which requests arrive and handlers make their calls, with any clock
readings and draws. Inside a run, store `i` is a run of `store` with the calls that `storeTrace`
picks (`store_run`, `store_trace`), so what is proved about the store holds in the relay. `CallsAt`
is a step at which a task makes a call : the task is that of a request that entitles it to the call
(`CallsAt.entitled`), and every answer is accounted for (`accounted_run`).

No handler makes more than `maxCalls` calls (`bounded_serveHTTP`).
-/

namespace FileRelay

open Pool (started history answers turns)

/-- A request arrives, or a handler makes its next call. -/
abbrev RelayEvent := Pool.Event Env (Host × HTTPRequest)

/-- A step of the relay with what it did. -/
abbrev RelayStep := RelayEvent × Pool.Output RelayCall RelayCall.Answer Response

/-- The call of store `i` in a step, with its output. -/
def storeStep (i : ℕ) : RelayStep → Option (Event × Output)
  | (.advance _ env, ⟨_, some ⟨.store j c, a⟩, _⟩) =>
    if j = i then some (⟨env.now, c.op env⟩, c.output a) else none
  | _ => none

theorem storeStep_eq_some {i : ℕ} {x : RelayStep} {y : Event × Output} :
    storeStep i x = some y ↔ ∃ k k' env c, ∃ a : c.Answer, ∃ resp,
      x = (.advance k env, ⟨k', some ⟨.store i c, a⟩, resp⟩) ∧
        y = (⟨env.now, c.op env⟩, c.output a) := by
  constructor
  · intro h
    rcases x with ⟨_ | ⟨k, env⟩, k', _ | ⟨c, a⟩, resp⟩
    · cases h
    · cases h
    · cases h
    · cases c with
      | store j c =>
        change (if j = i then some (⟨env.now, c.op env⟩, c.output a) else none) = some y at h
        split_ifs at h with hj
        subst hj
        exact ⟨k, k', env, c, a, resp, rfl, (Option.some.inj h).symm⟩
      | _ => cases h
  · rintro ⟨k, k', env, c, a, resp, rfl, rfl⟩
    exact if_pos rfl

/-- Of two places in a list one is the other, or one is before the other. -/
theorem places {α : Type} {l pre pre' post post' : List α} {x x' : α} (h : l = pre ++ x :: post)
    (h' : l = pre' ++ x' :: post') : pre = pre' ∨ (∃ mid, pre' = pre ++ x :: mid) ∨
      ∃ mid, pre = pre' ++ x' :: mid := by
  rcases List.append_eq_append_iff.mp (h.symm.trans h') with ⟨a, rfl, ha⟩ | ⟨a, rfl, ha⟩
  · cases a with
    | nil => exact .inl (List.append_nil _).symm
    | cons y a =>
      obtain ⟨rfl, -⟩ := List.cons.inj ha
      exact .inr (.inl ⟨a, rfl⟩)
  · cases a with
    | nil => exact .inl (List.append_nil _)
    | cons y a =>
      obtain ⟨rfl, -⟩ := List.cons.inj ha
      exact .inr (.inr ⟨a, rfl⟩)

namespace Deployment

variable (d : Deployment)

/-- The relay after the events. -/
def run (es : List RelayEvent) : Pool Relay RelayCall RelayCall.Answer Response :=
  d.relay.pool.run (Server.idle newRelay) es

def trace (es : List RelayEvent) : List RelayStep :=
  d.relay.pool.trace (Server.idle newRelay) es

/-- The calls of store `i` in a run, with their outputs. -/
def storeTrace (i : ℕ) (es : List RelayEvent) : List (Event × Output) :=
  (d.trace es).filterMap (storeStep i)

/-- The calls of store `i` in a run. -/
def storeEvents (i : ℕ) (es : List RelayEvent) : List Event :=
  (d.storeTrace i es).map Prod.fst

/-! ## The stores -/

/-- Each store is run by the calls it gets. -/
theorem projects_store (i : ℕ) : d.relay.pool.Projects (store d.H)
    (fun s => s.object.stores i) (storeStep i) where
  made s e x hx := by
    obtain ⟨k, k', env, c, a, resp, hstep, rfl⟩ := storeStep_eq_some.mp hx
    obtain ⟨rfl, hout⟩ := Prod.mk.inj hstep
    obtain ⟨j, env', c', next, he, hj, hx⟩ := d.relay.call_step (congrArg Pool.Output.call hout)
    cases he
    cases hx
    rw [d.relay.step_call hj]
    change callStore d.H (s.object.stores i) env.now (c.op env) = _
    rw [c.callStore_op]
    simp [relay, serveCall]
  quiet s e hx := by
    rcases d.relay.step_cases s e with ⟨r, rfl⟩ | ⟨k, env, c, next, rfl, hk⟩ | ⟨k, env, rfl, -, hs⟩
    · rfl
    · rw [d.relay.step_call hk] at hx ⊢
      cases c with
      | store j c =>
        have hne : j ≠ i := by
          rintro rfl
          exact absurd hx (by simp [storeStep])
        exact Function.update_of_ne hne.symm _ _
      | _ => rfl
    · rw [hs]

theorem store_run (i : ℕ) (es : List RelayEvent) :
    runStore d.H (d.storeEvents i es) = (d.run es).object.stores i :=
  (d.projects_store i).run (Server.idle newRelay) es

theorem storeTrace_append (i : ℕ) (es fs : List RelayEvent) : d.storeTrace i (es ++ fs) =
    d.storeTrace i es ++ (d.relay.pool.trace (d.run es) fs).filterMap (storeStep i) := by
  unfold storeTrace trace
  rw [Machine.trace_append, List.filterMap_append]
  rfl

theorem store_trace (i : ℕ) (es : List RelayEvent) :
    (store d.H).trace newMemStore (d.storeEvents i es) = d.storeTrace i es :=
  (d.projects_store i).trace (Server.idle newRelay) es

variable {d}

/-! ## Calls -/

/-- The step after the events `pre` is one of task `k`, which makes call `c` and is answered `a`. -/
structure CallsAt (d : Deployment) (es pre : List RelayEvent) (k : ℕ) (env : Env) (c : RelayCall)
    (a : c.Answer) : Prop where
  place : ∃ post, es = pre ++ .advance k env :: post
  call : (d.relay.pool.step (d.run pre) (.advance k env)).2.call = some ⟨c, a⟩

namespace CallsAt

variable {es pre : List RelayEvent} {k : ℕ} {env : Env} {c : RelayCall} {a : c.Answer}

/-- The relay answers the call as it stands. -/
theorem served (h : d.CallsAt es pre k env c a) : a = (serveCall d.H (d.run pre).object env c).2 ∧
    (d.relay.pool.step (d.run pre) (.advance k env)).1.object =
      (serveCall d.H (d.run pre).object env c).1 := by
  obtain ⟨j, env', c', next, he, hj, hx⟩ := d.relay.call_step h.call
  cases he
  cases hx
  rw [d.relay.step_call hj]
  exact ⟨rfl, rfl⟩

/-- The task is that of a request that entitles it to the call. -/
theorem entitled (h : d.CallsAt es pre k env c a) : ∃ x, (started pre)[k]? = some x ∧
    d.Entitled x (history k (d.trace pre)) c := by
  obtain ⟨x, hx, hQ, -⟩ := Server.holds_made (I := fun _ => True) trivial
    (fun s env c _ => ⟨trivial, serveCall_brief d.H s env c⟩) (fun x => d.conduct x) h.call
  exact ⟨x, hx, hQ.1⟩

/-- The task has not made its last call before. -/
theorem unfinished (h : d.CallsAt es pre k env c a) : Unfinished (history k (d.trace pre)) := by
  obtain ⟨x, -, hQ, -⟩ := Server.holds_made (I := fun _ => True) trivial
    (fun s env c _ => ⟨trivial, serveCall_brief d.H s env c⟩) (fun x => d.conduct x) h.call
  exact hQ.2

theorem mono (h : d.CallsAt es pre k env c a) (more : List RelayEvent) :
    d.CallsAt (es ++ more) pre k env c a := by
  obtain ⟨post, rfl⟩ := h.place
  exact ⟨⟨post ++ more, by simp⟩, h.call⟩

theorem isPrefix (h : d.CallsAt es pre k env c a) : pre <+: es := by
  obtain ⟨post, hes⟩ := h.place
  exact ⟨_, hes.symm⟩

/-- A call in a run with one more event. -/
theorem concat_cases {e : RelayEvent} (h : d.CallsAt (es ++ [e]) pre k env c a) :
    (pre = es ∧ e = .advance k env) ∨ d.CallsAt es pre k env c a := by
  obtain ⟨post, hes⟩ := h.place
  rcases List.eq_nil_or_concat post with rfl | ⟨post, e', rfl⟩
  · obtain ⟨rfl, hlast⟩ := List.append_inj' hes rfl
    exact .inl ⟨rfl, (List.cons.inj hlast).1⟩
  · rw [List.concat_eq_append, ← List.cons_append, ← List.append_assoc] at hes
    exact .inr ⟨⟨post, (List.append_inj' hes rfl).1⟩, h.call⟩

theorem mem (h : d.CallsAt es pre k env c a) : .advance k env ∈ es := by
  obtain ⟨post, rfl⟩ := h.place
  simp

/-- The step is one of the task, and the call is in its history from then on. -/
theorem history_concat (h : d.CallsAt es pre k env c a) :
    history k (d.trace (pre ++ [.advance k env])) = history k (d.trace pre) ++ [⟨c, a⟩] := by
  have hcall : (d.relay.pool.step (d.relay.pool.run (Server.idle newRelay) pre)
      (.advance k env)).2.call = some ⟨c, a⟩ := h.call
  have htask : (d.relay.pool.step (d.relay.pool.run (Server.idle newRelay) pre)
      (.advance k env)).2.task = k := by
    obtain ⟨j, env', c', next, he, hj, -⟩ := d.relay.call_step hcall
    cases he
    rw [d.relay.step_call hj]
  rw [trace, Machine.trace_concat, Pool.history_concat, if_pos htask, hcall]
  rfl

theorem mem_history (h : d.CallsAt es pre k env c a) {pre' mid : List RelayEvent}
    (hmid : pre' = pre ++ .advance k env :: mid) : ⟨c, a⟩ ∈ history k (d.trace pre') := by
  rw [hmid, List.append_cons, trace, Machine.trace_append, Pool.history_append]
  refine List.mem_append_left _ ?_
  change _ ∈ history k (d.trace _)
  rw [h.history_concat]
  exact List.mem_append_right _ List.mem_cons_self

/-- A task makes one last call. -/
theorem final_unique {pre' : List RelayEvent} {env' : Env} {c' : RelayCall} {a' : c'.Answer}
    (h : d.CallsAt es pre k env c a) (h' : d.CallsAt es pre' k env' c' a') (hc : c.final = true)
    (hc' : c'.final = true) : pre = pre' := by
  have hfinished : ∀ {pre c env mid} {a : c.Answer}, d.CallsAt es pre k env c a → c.final = true →
      ∀ {pre' c' env'} {a' : c'.Answer}, d.CallsAt es pre' k env' c' a' →
        pre' ≠ pre ++ .advance k env :: mid := fun h hc _ _ _ _ h' hmid =>
    Bool.false_ne_true ((h'.unfinished _ (h.mem_history hmid)).symm.trans hc)
  obtain ⟨post, hes⟩ := h.place
  obtain ⟨post', hes'⟩ := h'.place
  rcases places hes hes' with heq | ⟨mid, hmid⟩ | ⟨mid, hmid⟩
  · exact heq
  · exact (hfinished h hc h' hmid).elim
  · exact (hfinished h' hc' h hmid).elim

/-- The request of the task is the same later on. -/
theorem started_mono (h : d.CallsAt es pre k env c a) {x : Host × HTTPRequest}
    (hx : (started pre)[k]? = some x) : (started es)[k]? = some x :=
  Pool.started_mono h.isPrefix hx

theorem mem_trace (h : d.CallsAt es pre k env c a) :
    ∃ resp, (.advance k env, ⟨k, some ⟨c, a⟩, resp⟩) ∈ d.trace es := by
  obtain ⟨post, hes⟩ := h.place
  obtain ⟨j, env', c', next, he, hj, hx⟩ := d.relay.call_step h.call
  cases he
  cases hx
  refine ⟨(next (d.relay.serve (d.run pre).object env c).2).result, ?_⟩
  exact Machine.mem_trace.mpr ⟨pre, post, hes, by rw [← run, d.relay.step_call hj]⟩

theorem mem_storeTrace {i : ℕ} {c : StoreCall} {a : c.Answer}
    (h : d.CallsAt es pre k env (.store i c) a) :
    (⟨env.now, c.op env⟩, c.output a) ∈ d.storeTrace i es := by
  obtain ⟨resp, hmem⟩ := h.mem_trace
  exact List.mem_filterMap.mpr ⟨_, hmem, if_pos rfl⟩

end CallsAt

theorem calls_of_trace {es : List RelayEvent} {k k' : ℕ} {env : Env} {c : RelayCall} {a : c.Answer}
    {resp : Option Response} (h : (.advance k env, ⟨k', some ⟨c, a⟩, resp⟩) ∈ d.trace es) :
    k' = k ∧ ∃ pre, d.CallsAt es pre k env c a := by
  obtain ⟨pre, post, hes, hout⟩ := Machine.mem_trace.mp h
  have hcall := congrArg Pool.Output.call hout.symm
  obtain ⟨j, env', c', next, he, hj, -⟩ := d.relay.call_step hcall
  cases he
  rw [d.relay.step_call hj] at hout
  exact ⟨congrArg Pool.Output.task hout, pre, ⟨post, hes⟩, hcall⟩

/-- Every call of a store is made by a task. -/
theorem calls_of_mem {i : ℕ} {es : List RelayEvent} {e : Event} {out : Output}
    (h : (e, out) ∈ d.storeTrace i es) : ∃ pre k env c, ∃ a : c.Answer,
      d.CallsAt es pre k env (.store i c) a ∧ e = ⟨env.now, c.op env⟩ ∧ out = c.output a := by
  obtain ⟨⟨e', o⟩, hmem, hs⟩ := List.mem_filterMap.mp h
  obtain ⟨k, k', env, c, a, resp, hx, he⟩ := storeStep_eq_some.mp hs
  cases hx
  cases he
  obtain ⟨-, pre, hat⟩ := calls_of_trace hmem
  exact ⟨pre, k, env, c, a, hat, rfl, rfl⟩

/-- A call in the history of a task is one of its steps, after the calls before it. -/
theorem calls_of_history {es : List RelayEvent} {k : ℕ} {c : RelayCall} {a : c.Answer}
    {h h' : History}
    (hsplit : history k (d.trace es) = h ++ ⟨c, a⟩ :: h') : ∃ pre env,
      d.CallsAt es pre k env c a ∧ history k (d.trace pre) = h := by
  obtain ⟨pre, env, post, hes, hh, hcall⟩ := Server.history_split hsplit
  exact ⟨pre, env, ⟨⟨post, hes⟩, hcall⟩, hh⟩

/-- A handler that has read the clock as `now` did so at a step of the run. -/
theorem clocked_of_history {es : List RelayEvent} {k : ℕ} {now : ℤ} {h : History}
    (hh : history k (d.trace es) = clocked now :: h) :
    ∃ env, .advance k env ∈ es ∧ now = env.now := by
  obtain ⟨pre, env, hat, -⟩ := calls_of_history (h := []) hh
  exact ⟨env, hat.mem, hat.served.1⟩

/-- Every answer is accounted for by the calls of its task. -/
theorem accounted_run {es : List RelayEvent} {k : ℕ} {resp : Response}
    (h : resp ∈ answers k (d.trace es)) : ∃ x, (started es)[k]? = some x ∧
      d.Accounted x (history k (d.trace es)) resp :=
  Server.holds_answer (I := fun _ => True) trivial
    (fun s env c _ => ⟨trivial, serveCall_brief d.H s env c⟩) (fun x => d.conduct x) h

/-! ## Answers -/

theorem answers_run (k : ℕ) (es : List RelayEvent) :
    answers k (d.trace es) = ((d.run es).tasks[k]?.bind Prog.result).toList :=
  Server.answers_eq k es

theorem length_answers (k : ℕ) (es : List RelayEvent) : (answers k (d.trace es)).length ≤ 1 := by
  rw [answers_run]
  exact Option.length_toList_le

/-- What is left of a task keeps to what its handler does. -/
theorem conducts_run {es : List RelayEvent} {k : ℕ} {p : Handler}
    (h : (d.run es).tasks[k]? = some p) : ∃ x, (started es)[k]? = some x ∧
      d.Conducts x (history k (d.trace es)) p :=
  (Server.holds_run (S := d.relay) (I := fun _ => True) trivial
    (fun s env c _ => ⟨trivial, serveCall_brief d.H s env c⟩) (fun x => d.conduct x) es).2 k p h

/-- With its last call a task answers. -/
theorem CallsAt.finished {es pre : List RelayEvent} {k : ℕ} {env : Env} {c : RelayCall}
    {a : c.Answer}
    (h : d.CallsAt es pre k env c a) (hc : c.final = true) : ∃ x resp,
      (started pre)[k]? = some x ∧ answers k (d.trace es) = [resp] ∧
        d.Accounted x (history k (d.trace pre) ++ [⟨c, a⟩]) resp := by
  obtain ⟨j, env', c', next, he, hj, hx⟩ := d.relay.call_step h.call
  cases he
  cases hx
  have htask : (d.run (pre ++ [.advance k env])).tasks[k]? =
      some (next (d.relay.serve (d.run pre).object env c).2) := by
    rw [run, Machine.run_concat]
    change (d.relay.pool.step (d.run pre) (.advance k env)).1.tasks[k]? = _
    rw [d.relay.step_call hj]
    exact List.getElem?_set_self (List.getElem?_eq_some_iff.mp hj).1
  obtain ⟨x, hx, hp⟩ := conducts_run htask
  rw [h.history_concat] at hp
  rw [Pool.started_append, show started [Pool.Event.advance k env] = [] from rfl,
    List.append_nil] at hx
  cases hret : next (d.relay.serve (d.run pre).object env c).2 with
  | call c' next' =>
    rw [hret] at hp
    exact absurd ((hp.1.2 _ (List.mem_append_right _ List.mem_cons_self)).symm.trans hc)
      Bool.false_ne_true
  | ret resp =>
    rw [hret] at hp htask
    refine ⟨x, resp, hx, ?_, hp⟩
    have hnow : answers k (d.trace (pre ++ [.advance k env])) = [resp] := by
      rw [answers_run, htask]
      rfl
    -- A task answers once, so what comes later holds no other answer.
    obtain ⟨post, rfl⟩ := h.place
    have hlen := d.length_answers k (pre ++ .advance k env :: post)
    obtain ⟨more, hmore⟩ : ∃ more, answers k (d.trace (pre ++ .advance k env :: post)) =
        answers k (d.trace (pre ++ [.advance k env])) ++ more := by
      rw [List.append_cons, trace, Machine.trace_append, Pool.answers_append]
      exact ⟨_, rfl⟩
    rw [hmore, hnow] at hlen ⊢
    rw [List.length_append, List.length_singleton] at hlen
    rw [List.length_eq_zero_iff.mp (by omega : more.length = 0), List.append_nil]

theorem length_tasks (es : List RelayEvent) : (d.run es).tasks.length = (started es).length :=
  Server.length_tasks es

end Deployment

section Bounded

variable {np : NanoPack.Codec} {host : Host} {n : ℕ}

theorem bounded_orRefuse {α : Type} {x : Wire α} {rest : α → Handler}
    (h : ∀ a, (rest a).Bounded n) : (host.orRefuse np x rest).Bounded n := by
  cases x with
  | error e => exact Prog.bounded_ret
  | ok a => exact h a

theorem bounded_respond {schema : UInt8} {x : Wire Bytes} :
    (host.respond np schema x).Bounded n :=
  bounded_orRefuse fun _ => Prog.bounded_ret

theorem bounded_onPost {r : HTTPRequest} {rest : Handler} (h : rest.Bounded n) :
    (host.onPost np r rest).Bounded n := by
  unfold Host.onPost
  split_ifs
  · exact Prog.bounded_ret
  · exact h

theorem bounded_allowed {i : ℕ} {now : ℤ} : ∀ {m : ℕ} {slots : List (Bytes × ℤ)} {rest : Handler},
    slots.length + n = m → rest.Bounded n → (host.allowed np i now slots rest).Bounded m
  | _, [], _, rfl, h => by rwa [List.length_nil, Nat.zero_add]
  | _, (key, max) :: slots, rest, rfl, h => by
    rw [List.length_cons, Nat.succ_add]
    intro (ok : Bool)
    cases ok with
    | true => exact bounded_allowed rfl h
    | false => exact Prog.bounded_ret

end Bounded

namespace Deployment

variable (d : Deployment)

/-- The calls of a handler at most : six for a message that is sent, or one for each shard after
three. -/
def maxCalls : ℕ :=
  max 6 (d.router.shardURLs.length + 3)

section

variable {d} {i : ℕ} {r : HTTPRequest}

theorem bounded_send : (d.handleSend i r).Bounded 6 := by
  refine bounded_onPost fun (now : ℤ) => bounded_orRefuse fun m => bounded_orRefuse fun _ => ?_
  intro (seen : Bool)
  cases seen with
  | true => exact Prog.bounded_ret
  | false =>
    refine bounded_allowed (n := 1) rfl ?_
    exact fun _ => bounded_orRefuse fun _ => bounded_respond

theorem bounded_receive : (d.handleReceive i r).Bounded 3 := by
  refine bounded_onPost fun (_ : ℤ) => bounded_orRefuse fun _ => bounded_allowed (n := 1) rfl ?_
  exact fun _ => bounded_orRefuse fun _ => bounded_respond

theorem bounded_ack : (d.handleAck i r).Bounded 1 :=
  bounded_onPost (bounded_orRefuse fun _ _ => bounded_orRefuse fun _ => bounded_respond)

theorem bounded_create : (d.handleCreate i r).Bounded 5 := by
  refine bounded_onPost fun (now : ℤ) => bounded_orRefuse fun m => bounded_orRefuse fun _ => ?_
  intro (seen : Bool)
  cases seen with
  | true => exact Prog.bounded_ret
  | false =>
    refine bounded_allowed (n := 1) rfl ?_
    exact fun _ => bounded_orRefuse fun _ => bounded_respond

theorem bounded_put : (d.handlePut i r).Bounded 5 := by
  refine bounded_onPost fun (_ : ℤ) => bounded_orRefuse fun _ => bounded_allowed (n := 2) rfl ?_
  exact fun _ => bounded_orRefuse fun _ _ => bounded_orRefuse fun _ => bounded_respond

theorem bounded_get : (d.handleGet i r).Bounded 1 := by
  refine bounded_onPost (bounded_orRefuse fun q => ?_)
  unfold getCall
  split_ifs
  · exact Prog.bounded_ret
  all_goals exact fun _ => bounded_orRefuse fun _ => bounded_respond

theorem bounded_resume : (d.handleResume i r).Bounded 1 := by
  refine bounded_onPost (bounded_orRefuse fun q => ?_)
  unfold resumeCall
  split_ifs
  all_goals exact fun _ => bounded_orRefuse fun _ => bounded_respond

theorem bounded_complete : (d.handleComplete i r).Bounded 4 := by
  refine bounded_onPost fun (now : ℤ) => bounded_orRefuse fun t => bounded_orRefuse fun _ => ?_
  intro (seen : Bool)
  cases seen with
  | true => exact Prog.bounded_ret
  | false =>
    intro (_ : Result TransferView)
    refine bounded_orRefuse fun tv => ?_
    split_ifs
    · exact Prog.bounded_ret
    · exact fun _ => bounded_orRefuse fun _ => bounded_respond

theorem bounded_cancel : (d.handleCancel i r).Bounded 1 :=
  bounded_onPost (bounded_orRefuse fun _ _ => bounded_orRefuse fun _ => bounded_respond)

theorem bounded_hello {host : Host} : (handleHello d.np host r).Bounded 1 := by
  unfold handleHello
  cases r.method with
  | connect | other => exact Prog.bounded_ret
  | get => exact fun _ => Prog.bounded_ret
  | post => exact bounded_orRefuse fun _ _ => Prog.bounded_ret

theorem bounded_createFor {q : Register} {now : ℤ} : (d.createFor q now).Bounded 2 := by
  unfold createFor
  dsimp only
  split_ifs
  · exact Prog.bounded_ret
  · exact Prog.bounded_ret
  · cases d.router.findShard _ with
    | none => exact Prog.bounded_ret
    | some ref =>
      intro (draw : Option (ByteArr 32))
      cases draw with
      | none => exact Prog.bounded_ret
      | some secret => exact fun _ => bounded_respond

theorem bounded_register : (d.handleRegister r).Bounded 5 := by
  refine bounded_onPost fun (now : ℤ) (ok : Bool) => ?_
  cases ok with
  | false => exact Prog.bounded_ret
  | true =>
    refine bounded_orRefuse fun q => bounded_orRefuse fun _ (seen : Bool) => ?_
    cases seen with
    | true => exact Prog.bounded_ret
    | false => exact bounded_createFor

theorem bounded_probe {mid : ID} {primary : Bytes} :
    ∀ left : List Bytes, (d.probe mid primary left).Bounded left.length
  | [] => bounded_respond
  | u :: left => by
    unfold probe
    cases d.router.findShard u with
    | none => exact (bounded_probe left).mono (Nat.le_succ _)
    | some ref =>
      intro (found : Bool)
      cases found with
      | true => exact bounded_respond
      | false => exact bounded_probe left

theorem bounded_resolve : (d.handleResolve r).Bounded (d.router.shardURLs.length + 3) := by
  refine bounded_onPost fun (now : ℤ) (ok : Bool) => ?_
  cases ok with
  | false => exact Prog.bounded_ret
  | true =>
    refine bounded_orRefuse fun q => ?_
    dsimp only
    split_ifs
    · exact Prog.bounded_ret
    · refine (bounded_probe _).mono ?_
      rw [List.length_cons]
      exact Nat.succ_le_succ (List.length_filter_le _ _)

theorem bounded_table : (d.handleTable r).Bounded 1 := by
  unfold handleTable
  split_ifs
  · exact Prog.bounded_ret
  · exact fun (_ : ℤ) => bounded_orRefuse fun _ => Prog.bounded_ret

end

/-- No handler makes more calls than `maxCalls`. -/
theorem bounded_serveHTTP (x : Host × HTTPRequest) : (d.serveHTTP x).Bounded d.maxCalls := by
  have hsix : ∀ {n p}, n ≤ 6 → Prog.Bounded n p → Prog.Bounded d.maxCalls (p : Handler) :=
    fun hn hp => hp.mono (hn.trans (le_max_left _ _))
  obtain ⟨_ | i, r⟩ := x
  · change (d.routerServe r).Bounded _
    unfold routerServe
    split
    · exact hsix (by decide) bounded_register
    · exact bounded_resolve.mono (le_max_right _ _)
    · exact hsix (by decide) bounded_table
    · exact hsix (by decide) bounded_hello
    · exact Prog.bounded_ret
  · change (d.shardServe i r).Bounded _
    rcases d.shardServe_cases i r with ⟨route, -, -, hserve⟩ | ⟨resp, -, hserve⟩
    · rw [hserve]
      cases route with
      | hello => exact hsix (by decide) bounded_hello
      | send => exact hsix (by decide) bounded_send
      | receive => exact hsix (by decide) bounded_receive
      | ack => exact hsix (by decide) bounded_ack
      | create => exact hsix (by decide) bounded_create
      | put => exact hsix (by decide) bounded_put
      | get => exact hsix (by decide) bounded_get
      | resume => exact hsix (by decide) bounded_resume
      | complete => exact hsix (by decide) bounded_complete
      | cancel => exact hsix (by decide) bounded_cancel
      | register | resolve | table => exact Prog.bounded_ret
    · rw [hserve]
      exact Prog.bounded_ret

end Deployment

/-! ## A deployment for examples -/

/-- A router with one shard, over stand-ins for the digests and the signatures. -/
def sampleDeployment : Deployment where
  np := NanoPack.reference
  H := copyArr 32
  verify _ _ _ := true
  mac _ message := copyArr 32 message
  sign _ := List.replicate 64 0
  pub := copyArr 32 []
  router := ⟨[1], [⟨ascii "a", 0⟩], 1, 0, 0⟩
  limits := defaultRateLimits
  moved := ⟨307, .inr rfl⟩
  slashed := ⟨307, .inr rfl⟩
  page _ := []

/-- A `POST` of an encoded body. -/
def samplePost (route : Route) (body : Wire Bytes) : HTTPRequest :=
  ⟨.post, route.path, [], 0, body.toOption.getD [], false⟩

/-- Requests that are served one after the other. -/
def inTurn {ρ : Type} (env : Env) (xs : List ρ) : List (Pool.Event Env ρ) :=
  xs.zipIdx.flatMap fun x => .start x.1 :: List.replicate 6 (.advance x.2 env)

def sampleRegister : Register :=
  ⟨List.replicate 32 2, 100000, List.replicate 16 3, List.replicate 64 0⟩

/-- A message for the mailbox of the registration. -/
def sampleMessage : SendMessage where
  mailboxID := (sampleDeployment.mailboxOf sampleRegister.clientPub).toList
  envelope := [7, 8]
  senderPub := List.replicate 32 3
  timestamp := 100000
  nonce := List.replicate 16 5
  signature := List.replicate 64 0
  ttlHintSec := 60
  burn := 1

/-- A transfer of three bytes in two chunks. -/
def sampleTransfer : TransferCreate :=
  { sampleCreate with timestamp := 100000 }

def sampleReceive : ReceiveMessages :=
  ⟨sampleMessage.mailboxID, sampleTicket.toList, 8, 0⟩

def sampleGet (index : UInt32) : ChunkDownload :=
  ⟨sampleID.toList, index, 1, [], [], sampleTicket.toList⟩

/-- What the calls of the sample runs find outside. -/
def sampleEnv : Env :=
  ⟨100000, sampleID, some sampleTicket⟩

/-- A registration, a message for the mailbox and a read of it. -/
def sampleMail : List RelayEvent :=
  inTurn sampleEnv
    [(.router, samplePost .register (marshalRegister NanoPack.reference sampleRegister)),
      (.shard 0, samplePost .send (marshalSendMessage NanoPack.reference sampleMessage)),
      (.shard 0, samplePost .receive (marshalReceiveMessages NanoPack.reference sampleReceive))]

def samplePut (index : UInt32) (p : Bytes) : HTTPRequest :=
  samplePost .put (marshalChunkUpload NanoPack.reference (sampleChunk index p []))

/-- A transfer and its two chunks, each of them put and then read. -/
def sampleFile : List RelayEvent :=
  inTurn sampleEnv
    [(.shard 0, samplePost .create (marshalTransferCreate NanoPack.reference sampleTransfer)),
      (.shard 0, samplePut 1 [3]),
      (.shard 0, samplePost .get (marshalChunkDownload NanoPack.reference (sampleGet 1))),
      (.shard 0, samplePut 0 [1, 2]),
      (.shard 0, samplePost .get (marshalChunkDownload NanoPack.reference (sampleGet 0)))]

end FileRelay
