import Mathlib.Data.List.Induction
import Mathlib.Order.Defs.PartialOrder
import Mathlib.Tactic.Common

/-!
# Machines and their runs

A machine answers each event with a new state and an output. `run` is the state after a
list of events, `trace` the events with their outputs, and `Along ok` says that every
step of the run meets `ok` in the state it is taken in.

The rules every safety argument goes through : a property one step keeps holds after a
run (`run_induction`), or after a run that meets a condition (`along_induction`) or whose
clock never goes back (`clock_induction`), and a property of state and trace together is
proved from its prefix (`history_induction`). `Simulates` relates two machines step by
step, and carries traces and conditions over. `purge` deletes events from a run, and
`Confined` says when the rest of the run does not notice. `Unnoticed` says when the run does
not notice events that are inserted into it. `Projects` says when a part of the state is a machine
of its own, run by what can be read off the trace.
-/

/-- A deterministic machine with outputs. -/
structure Machine (σ ε ω : Type*) where
  step : σ → ε → σ × ω

namespace Machine

variable {σ ε ω : Type*}

/-- The state after the events. -/
def run (M : Machine σ ε ω) (s : σ) : List ε → σ
  | [] => s
  | e :: es => M.run (M.step s e).1 es

/-- The events with the outputs they got. -/
def trace (M : Machine σ ε ω) (s : σ) : List ε → List (ε × ω)
  | [] => []
  | e :: es => (e, (M.step s e).2) :: M.trace (M.step s e).1 es

/-- Every step of the run meets `ok`. -/
def Along (M : Machine σ ε ω) (ok : σ → ε → Prop) (s : σ) : List ε → Prop
  | [] => True
  | e :: es => ok s e ∧ M.Along ok (M.step s e).1 es

variable (M : Machine σ ε ω)

@[simp] theorem run_nil (s : σ) : M.run s [] = s := rfl

@[simp] theorem run_cons (s : σ) (e : ε) (es : List ε) :
    M.run s (e :: es) = M.run (M.step s e).1 es := rfl

@[simp] theorem trace_nil (s : σ) : M.trace s [] = [] := rfl

@[simp] theorem trace_cons (s : σ) (e : ε) (es : List ε) :
    M.trace s (e :: es) = (e, (M.step s e).2) :: M.trace (M.step s e).1 es := rfl

@[simp] theorem along_nil (ok : σ → ε → Prop) (s : σ) : M.Along ok s [] := trivial

@[simp] theorem along_cons {ok : σ → ε → Prop} {s : σ} {e : ε} {es : List ε} :
    M.Along ok s (e :: es) ↔ ok s e ∧ M.Along ok (M.step s e).1 es := Iff.rfl

theorem run_append (s : σ) : ∀ es fs : List ε, M.run s (es ++ fs) = M.run (M.run s es) fs
  | [], _ => rfl
  | e :: es, fs => by
    rw [List.cons_append, run_cons, run_cons, run_append _ es fs]

theorem trace_append (s : σ) :
    ∀ es fs : List ε, M.trace s (es ++ fs) = M.trace s es ++ M.trace (M.run s es) fs
  | [], _ => rfl
  | e :: es, fs => by
    rw [List.cons_append, trace_cons, trace_cons, trace_append _ es fs, run_cons,
      List.cons_append]

theorem along_append {ok : σ → ε → Prop} (s : σ) :
    ∀ es fs : List ε, M.Along ok s (es ++ fs) ↔ M.Along ok s es ∧ M.Along ok (M.run s es) fs
  | [], _ => by simp
  | e :: es, fs => by
    rw [List.cons_append, along_cons, along_cons, along_append _ es fs, run_cons, and_assoc]

theorem run_concat (s : σ) (es : List ε) (e : ε) :
    M.run s (es ++ [e]) = (M.step (M.run s es) e).1 := by
  rw [run_append, run_cons, run_nil]

theorem trace_concat (s : σ) (es : List ε) (e : ε) :
    M.trace s (es ++ [e]) = M.trace s es ++ [(e, (M.step (M.run s es) e).2)] := by
  rw [trace_append, trace_cons, trace_nil]

theorem map_fst_trace (s : σ) : ∀ es : List ε, (M.trace s es).map Prod.fst = es
  | [] => rfl
  | e :: es => by rw [trace_cons, List.map_cons, map_fst_trace _ es]

theorem along_concat {ok : σ → ε → Prop} (s : σ) (es : List ε) (e : ε) :
    M.Along ok s (es ++ [e]) ↔ M.Along ok s es ∧ ok (M.run s es) e := by
  rw [along_append, along_cons]
  simp

variable {M}

/-- The entries of a trace are the steps of the run. -/
theorem mem_trace {e : ε} {o : ω} {s : σ} {es : List ε} : (e, o) ∈ M.trace s es ↔
    ∃ pre post, es = pre ++ e :: post ∧ o = (M.step (M.run s pre) e).2 := by
  constructor
  · intro h
    induction es generalizing s with
    | nil => cases h
    | cons e' es ih =>
      rcases List.mem_cons.mp h with h | h
      · cases h
        exact ⟨[], es, rfl, rfl⟩
      · obtain ⟨pre, post, rfl, ho⟩ := ih h
        exact ⟨e' :: pre, post, rfl, ho⟩
  · rintro ⟨pre, post, rfl, rfl⟩
    rw [trace_append, trace_cons]
    exact List.mem_append_right _ List.mem_cons_self

theorem along_of_forall {ok : ε → Prop} : ∀ {s : σ} {es : List ε}, (∀ e ∈ es, ok e) →
    M.Along (fun _ e => ok e) s es
  | _, [], _ => trivial
  | _, e :: _, h => ⟨h e List.mem_cons_self, along_of_forall fun e' he' => h e' (.tail e he')⟩

/-- A run meets a condition that holds at each of its places. -/
theorem along_of_places {ok : σ → ε → Prop} : ∀ {s : σ} {es : List ε},
    (∀ pre e post, es = pre ++ e :: post → ok (M.run s pre) e) → M.Along ok s es
  | _, [], _ => trivial
  | _, e :: es, h => ⟨h [] e es rfl, along_of_places fun pre e' post hes =>
      h (e :: pre) e' post (congrArg (e :: ·) hes)⟩

theorem along_mono {ok ok' : σ → ε → Prop} (h : ∀ s e, ok s e → ok' s e) :
    ∀ {s : σ} {es : List ε}, M.Along ok s es → M.Along ok' s es
  | _, [], _ => trivial
  | _, _ :: _, hs => ⟨h _ _ hs.1, along_mono h hs.2⟩

/-- Machines whose steps agree along a run agree on the run. -/
theorem run_eq_of_along {N : Machine σ ε ω} : ∀ {s : σ} {es : List ε},
    M.Along (fun s e => M.step s e = N.step s e) s es →
      M.run s es = N.run s es ∧ M.trace s es = N.trace s es
  | _, [], _ => ⟨rfl, rfl⟩
  | s, e :: es, h => by
    obtain ⟨hrun, htrace⟩ := run_eq_of_along h.2
    rw [run_cons, run_cons, trace_cons, trace_cons, hrun, htrace, h.1]
    exact ⟨rfl, rfl⟩

/-- What every step keeps holds after every run. -/
theorem run_induction {P : σ → Prop} (hstep : ∀ s e, P s → P (M.step s e).1) {s : σ} (h : P s)
    (es : List ε) : P (M.run s es) := by
  induction es generalizing s with
  | nil => exact h
  | cons e es ih => exact ih (hstep s e h)

/-- What every step that meets `ok` keeps holds after every run that meets `ok`. -/
theorem along_induction {P : σ → Prop} {ok : σ → ε → Prop}
    (hstep : ∀ s e, ok s e → P s → P (M.step s e).1) {s : σ} {es : List ε}
    (hok : M.Along ok s es) (h : P s) : P (M.run s es) := by
  induction es generalizing s with
  | nil => exact h
  | cons e es ih => exact ih hok.2 (hstep s e hok.1 h)

/-- A property of state and clock, kept as the clock advances and by every step at its own
time, holds after a run whose clock never goes back. -/
theorem clock_induction {τ : Type*} [Preorder τ] {time : ε → τ} {P : τ → σ → Prop} {s : σ}
    (start : ∀ now, P now s) (mono : ∀ {a b : τ} {s : σ}, a ≤ b → P a s → P b s)
    {es : List ε} (hstep : ∀ s, ∀ e ∈ es, P (time e) s → P (time e) (M.step s e).1)
    (hclock : es.Pairwise fun a b => time a ≤ time b) {now : τ} (hnow : ∀ e ∈ es, time e ≤ now) :
    P now (M.run s es) := by
  induction es using List.reverseRecOn generalizing now with
  | nil => exact start now
  | append_singleton es e ih =>
    obtain ⟨hes, -, hlast⟩ := List.pairwise_append.mp hclock
    rw [run_concat]
    have he : e ∈ es ++ [e] := List.mem_append_right _ (List.mem_singleton_self e)
    refine mono (hnow e he) (hstep _ e he ?_)
    exact ih (fun s e' he' => hstep s e' (List.mem_append_left _ he')) hes
      fun e' he' => hlast e' he' e (List.mem_singleton_self e)

/-- State and trace together : from a run to the run one event longer. -/
theorem history_induction {s : σ} {P : List ε → σ → List (ε × ω) → Prop} (h : P [] s [])
    (hstep : ∀ es e, P es (M.run s es) (M.trace s es) →
      P (es ++ [e]) (M.step (M.run s es) e).1
        (M.trace s es ++ [(e, (M.step (M.run s es) e).2)])) (es : List ε) :
    P es (M.run s es) (M.trace s es) := by
  induction es using List.reverseRecOn with
  | nil => exact h
  | append_singleton es e ih =>
    rw [run_concat, trace_concat]
    exact hstep es e ih

/-! ## Simulation -/

variable {σ' ε' ω' : Type*}

/-- Every step of `M` is, seen through `f`, `g` and `h`, the step of `N`. -/
structure Simulates (M : Machine σ ε ω) (N : Machine σ' ε' ω') (f : σ → σ') (g : ε → ε')
    (h : ω → ω') : Prop where
  state : ∀ s e, (N.step (f s) (g e)).1 = f (M.step s e).1
  output : ∀ s e, (N.step (f s) (g e)).2 = h (M.step s e).2

variable {N : Machine σ' ε' ω'} {f : σ → σ'} {g : ε → ε'} {h : ω → ω'}

theorem Simulates.trace (sim : Simulates M N f g h) : ∀ (s : σ) (es : List ε),
    N.trace (f s) (es.map g) = (M.trace s es).map fun eo => (g eo.1, h eo.2)
  | _, [] => rfl
  | s, e :: es => by
    rw [List.map_cons, trace_cons, trace_cons, sim.state, sim.output, sim.trace _ es,
      List.map_cons]

theorem Simulates.along (sim : Simulates M N f g h) {ok : σ → ε → Prop} {ok' : σ' → ε' → Prop}
    (hok : ∀ s e, ok s e → ok' (f s) (g e)) : ∀ {s : σ} {es : List ε}, M.Along ok s es →
      N.Along ok' (f s) (es.map g)
  | _, [], _ => trivial
  | s, e :: es, hs => by
    refine ⟨hok s e hs.1, ?_⟩
    rw [sim.state]
    exact sim.along hok hs.2

/-! ## Deleting events -/

/-- The events of a run but those `drop` picks, each in the state it is taken in. -/
def purge (M : Machine σ ε ω) (drop : σ → ε → Bool) (s : σ) : List ε → List ε
  | [] => []
  | e :: es =>
    if drop s e then M.purge drop (M.step s e).1 es else e :: M.purge drop (M.step s e).1 es

/-- The events `purge` leaves, with the outputs they got in the whole run. -/
def keptTrace (M : Machine σ ε ω) (drop : σ → ε → Bool) (s : σ) : List ε → List (ε × ω)
  | [] => []
  | e :: es =>
    if drop s e then M.keptTrace drop (M.step s e).1 es
    else (e, (M.step s e).2) :: M.keptTrace drop (M.step s e).1 es

/-- Seen through `f`, a step that `drop` picks changes nothing, and any other step is the
step from what `f` shows, with the same `view` of its output. -/
structure Confined (M : Machine σ ε ω) (drop : σ → ε → Bool) (ok : σ → ε → Prop) (f : σ → σ)
    (view : ω → ω') : Prop where
  dropped : ∀ s e, ok s e → drop s e = true → f (M.step s e).1 = f s
  state : ∀ s e, drop s e = false → (M.step (f s) e).1 = f (M.step s e).1
  output : ∀ s e, drop s e = false → view (M.step (f s) e).2 = view (M.step s e).2

variable {drop : σ → ε → Bool} {ok : σ → ε → Prop} {f : σ → σ} {view : ω → ω'}

theorem Confined.run (c : M.Confined drop ok f view) : ∀ {s : σ} {es : List ε}, M.Along ok s es →
    M.run (f s) (M.purge drop s es) = f (M.run s es)
  | _, [], _ => rfl
  | s, e :: es, hs => by
    have ih := c.run hs.2
    cases hd : drop s e with
    | true => rwa [purge, hd, if_pos rfl, ← c.dropped s e hs.1 hd]
    | false => rwa [purge, hd, if_neg Bool.false_ne_true, run_cons, c.state s e hd]

theorem Confined.trace (c : M.Confined drop ok f view) : ∀ {s : σ} {es : List ε},
    M.Along ok s es → (M.trace (f s) (M.purge drop s es)).map (Prod.map id view) =
      (M.keptTrace drop s es).map (Prod.map id view)
  | _, [], _ => rfl
  | s, e :: es, hs => by
    have ih := c.trace hs.2
    cases hd : drop s e with
    | true =>
      rwa [purge, keptTrace, hd, if_pos rfl, if_pos rfl, ← c.dropped s e hs.1 hd]
    | false =>
      rw [purge, keptTrace, hd, if_neg Bool.false_ne_true, if_neg Bool.false_ne_true, trace_cons,
        List.map_cons, List.map_cons, c.state s e hd, ih, Prod.map_apply, Prod.map_apply,
        c.output s e hd]

/-! ## Inserting events -/

/-- The machine over events with a mark, which the steps do not see. -/
def marked (M : Machine σ ε ω) : Machine σ (ε × Bool) ω where
  step s e := M.step s e.1

/-- At every time `f` forgets what no step from then on can tell : a step answers the same and
leaves the same without it. The steps `ins` picks change nothing else. -/
structure Unnoticed {τ : Type*} [Preorder τ] (M : Machine σ ε ω) (time : ε → τ) (ins : ε → Prop)
    (f : τ → σ → σ) : Prop where
  later : ∀ {a b : τ} (s : σ), a ≤ b → f b (f a s) = f b s
  inserted : ∀ s e, ins e → f (time e) (M.step s e).1 = f (time e) s
  state : ∀ s e, f (time e) (M.step (f (time e) s) e).1 = f (time e) (M.step s e).1
  output : ∀ s e, (M.step (f (time e) s) e).2 = (M.step s e).2

/-- From two states that `f` shows as one : the marked events are left out of the run from the
second. -/
theorem Unnoticed.trace_of_eq {τ : Type*} [Preorder τ] {time : ε → τ} {ins : ε → Prop}
    {f : τ → σ → σ} (u : M.Unnoticed time ins f) : ∀ {es : List (ε × Bool)} {s s' : σ} {now : τ},
      (∀ e ∈ es, e.2 = true → ins e.1) → (∀ e ∈ es, now ≤ time e.1) →
      es.Pairwise (fun a b => time a.1 ≤ time b.1) → f now s = f now s' →
      M.marked.trace s' (es.filter fun e => !e.2) = M.marked.keptTrace (fun _ e => e.2) s es
  | [], _, _, _, _, _, _, _ => rfl
  | (e, mark) :: es, s, s', now, hins, hnow, hclock, heq => by
    obtain ⟨hfirst, hrest⟩ := List.pairwise_cons.mp hclock
    have hsame : f (time e) s = f (time e) s' := by
      have hle := hnow (e, mark) List.mem_cons_self
      rw [← u.later s hle, ← u.later s' hle, heq]
    have hins' := fun e' he' => hins e' (List.mem_cons_of_mem _ he')
    cases mark with
    | true =>
      have hdrop := (u.inserted s e (hins (e, true) List.mem_cons_self rfl)).trans hsame
      have ih := u.trace_of_eq hins' hfirst hrest hdrop
      exact ih
    | false =>
      have hstate : f (time e) (M.step s e).1 = f (time e) (M.step s' e).1 := by
        rw [← u.state s, ← u.state s', hsame]
      have hout : (M.step s' e).2 = (M.step s e).2 := by
        rw [← u.output s, ← u.output s', hsame]
      have ih := u.trace_of_eq hins' hfirst hrest hstate
      change ((e, false), (M.step s' e).2) :: _ = ((e, false), (M.step s e).2) :: _
      rw [hout]
      exact congrArg _ ih

/-- Marked events that are inserted into a run whose clock never goes back change no answer to
the others. -/
theorem Unnoticed.trace {τ : Type*} [Preorder τ] {time : ε → τ} {ins : ε → Prop} {f : τ → σ → σ}
    (u : M.Unnoticed time ins f) {es : List (ε × Bool)} (hins : ∀ e ∈ es, e.2 = true → ins e.1)
    (hclock : es.Pairwise fun a b => time a.1 ≤ time b.1) (s : σ) :
    M.marked.trace s (es.filter fun e => !e.2) = M.marked.keptTrace (fun _ e => e.2) s es := by
  cases es with
  | nil => rfl
  | cons e es =>
    have hfirst : ∀ e' ∈ e :: es, time e.1 ≤ time e'.1 := by
      intro e' he'
      rcases List.mem_cons.mp he' with rfl | he'
      · exact le_refl _
      · exact (List.pairwise_cons.mp hclock).1 e' he'
    exact u.trace_of_eq hins hfirst hclock rfl

/-! ## The steps of a part -/

/-- Seen through `f`, a step of `M` is the step of `N` that `g` reads off it, with its output, and
nothing if `g` reads none. -/
structure Projects (M : Machine σ ε ω) (N : Machine σ' ε' ω') (f : σ → σ')
    (g : ε × ω → Option (ε' × ω')) : Prop where
  made : ∀ s e x, g (e, (M.step s e).2) = some x → N.step (f s) x.1 = (f (M.step s e).1, x.2)
  quiet : ∀ s e, g (e, (M.step s e).2) = none → f (M.step s e).1 = f s

namespace Projects

variable {f : σ → σ'} {g : ε × ω → Option (ε' × ω')}

/-- A run of `M` is, seen through `f`, the run of `N` with what `g` reads off its trace. -/
theorem run (p : M.Projects N f g) : ∀ (s : σ) (es : List ε),
    N.run (f s) (((M.trace s es).filterMap g).map Prod.fst) = f (M.run s es)
  | _, [] => rfl
  | s, e :: es => by
    have ih := p.run (M.step s e).1 es
    rw [trace_cons, run_cons, ← ih]
    cases hg : g (e, (M.step s e).2) with
    | none => rw [List.filterMap_cons_none hg, p.quiet s e hg]
    | some x => rw [List.filterMap_cons_some hg, List.map_cons, run_cons, p.made s e x hg]

theorem trace (p : M.Projects N f g) : ∀ (s : σ) (es : List ε),
    N.trace (f s) (((M.trace s es).filterMap g).map Prod.fst) = (M.trace s es).filterMap g
  | _, [] => rfl
  | s, e :: es => by
    have ih := p.trace (M.step s e).1 es
    rw [trace_cons]
    cases hg : g (e, (M.step s e).2) with
    | none => rw [List.filterMap_cons_none hg, ← p.quiet s e hg, ih]
    | some x =>
      rw [List.filterMap_cons_some hg, List.map_cons, trace_cons, p.made s e x hg, ih]

end Projects

end Machine
