import FileRelay.Machine

/-!
# Programs that share an object

A server runs many handlers at once over one object, which takes one call at a time. A handler is
a `Prog` : it returns, or it makes a call and goes on with the answer. `Server.pool` is the server
as a machine : a step starts the handler of a request, or lets one task make its next call, so the
runs are all the interleavings of the calls.

`Holds` is what a program meets along every path its answers allow, and `holds_run` carries it
from the handlers to the tasks of a run : a call is made (`holds_made`) and a value returned
(`holds_answer`) only after a history that entitles to it. A task answers at most once
(`answers_eq`), and it has answered after as many of its own steps as its handler is deep, whatever
the other tasks do (`answered_of_advances`). `exec` runs a program on its own, which is what the
pool does with a task while nothing comes in between (`run_advances`).
-/

/-- A program that makes calls and returns. -/
inductive Prog (C : Type) (A : C → Type) (α : Type) : Type
  | ret (a : α)
  | call (c : C) (next : A c → Prog C A α)

/-- A call with its answer. -/
abbrev Exchange (C : Type) (A : C → Type) := (c : C) × A c

namespace Prog

variable {C : Type} {A : C → Type} {α : Type}

/-- What a program that has returned returned. -/
def result : Prog C A α → Option α
  | ret a => some a
  | call _ _ => none

/-- The program returns after at most `n` calls. -/
def Bounded : ℕ → Prog C A α → Prop
  | _, ret _ => True
  | 0, call _ _ => False
  | n + 1, call _ next => ∀ a, Bounded n (next a)

theorem bounded_ret {n : ℕ} {a : α} : Bounded n (ret a : Prog C A α) := by
  cases n <;> trivial

theorem Bounded.mono : ∀ {n m : ℕ} {p : Prog C A α}, n ≤ m → Bounded n p → Bounded m p
  | _, _, ret _, _, _ => by simp [Bounded]
  | n + 1, m + 1, call _ _, hle, h => fun a => (h a).mono (Nat.le_of_succ_le_succ hle)

/-- Along every path with answers that `post` allows, a call is made after a history that `Q`
admits and a value is returned after one that `R` admits. -/
def Holds (post : (c : C) → A c → Prop) (Q : List (Exchange C A) → C → Prop)
    (R : List (Exchange C A) → α → Prop) : List (Exchange C A) → Prog C A α → Prop
  | h, ret a => R h a
  | h, call c next => Q h c ∧ ∀ a, post c a → Holds post Q R (h ++ [⟨c, a⟩]) (next a)

variable {post : (c : C) → A c → Prop} {Q Q' : List (Exchange C A) → C → Prop}
  {R R' : List (Exchange C A) → α → Prop} {h : List (Exchange C A)}

@[simp] theorem holds_ret {a : α} : Holds post Q R h (ret a) ↔ R h a := Iff.rfl

@[simp] theorem holds_call {c : C} {next : A c → Prog C A α} : Holds post Q R h (call c next) ↔
    Q h c ∧ ∀ a, post c a → Holds post Q R (h ++ [⟨c, a⟩]) (next a) := Iff.rfl

theorem Holds.imp (hQ : ∀ h c, Q h c → Q' h c) (hR : ∀ h a, R h a → R' h a) :
    ∀ {h : List (Exchange C A)} {p : Prog C A α}, Holds post Q R h p → Holds post Q' R' h p
  | _, ret _, hp => hR _ _ hp
  | _, call _ _, hp => ⟨hQ _ _ hp.1, fun a ha => (hp.2 a ha).imp hQ hR⟩

/-- The program with another value at its end. -/
def map {β : Type} (g : α → β) : Prog C A α → Prog C A β
  | ret a => ret (g a)
  | call c next => call c fun a => (next a).map g

theorem map_self : ∀ p : Prog C A α, p.map (fun a => a) = p
  | ret _ => rfl
  | call c next => congrArg (call c) (funext fun a => map_self (next a))

/-- The program on its own : each call finds the next of `envs` outside. The object, and what is
left of the program. -/
def exec {σ ε : Type} (serve : σ → ε → (c : C) → σ × A c) :
    Prog C A α → List ε → σ → σ × Prog C A α
  | ret a, _, s => (s, ret a)
  | call c next, [], s => (s, call c next)
  | call c next, env :: envs, s => (next (serve s env c).2).exec serve envs (serve s env c).1

section Exec

variable {σ ε : Type} (serve : σ → ε → (c : C) → σ × A c)

theorem exec_nil (p : Prog C A α) (s : σ) : p.exec serve [] s = (s, p) := by
  cases p <;> rfl

theorem exec_call (c : C) (next : A c → Prog C A α) (env : ε) (envs : List ε) (s : σ) :
    (call c next).exec serve (env :: envs) s =
      (next (serve s env c).2).exec serve envs (serve s env c).1 := rfl

end Exec

/-- A history keeps its first call. -/
theorem holds_head (y : Exchange C A) : ∀ (h : List (Exchange C A)) (p : Prog C A α),
    Holds (fun _ _ => True) (fun _ _ => True) (fun h _ => h.head? = some y) (y :: h) p
  | _, ret _ => rfl
  | h, call c next => ⟨trivial, fun a _ => by
      rw [List.cons_append]
      exact holds_head y _ (next a)⟩

end Prog

/-- The handler of each request, and what the object does with a call and what the call finds
outside. -/
structure Server (σ ε ρ C : Type) (A : C → Type) (α : Type) where
  handler : ρ → Prog C A α
  serve : σ → ε → (c : C) → σ × A c

/-- The object and the handlers under way, by number. One that has returned stays. -/
structure Pool (σ C : Type) (A : C → Type) (α : Type) where
  object : σ
  tasks : List (Prog C A α)

namespace Pool

/-- A request arrives, or a task makes its next call. -/
inductive Event (ε ρ : Type)
  | start (r : ρ)
  | advance (k : ℕ) (env : ε)

/-- What the call finds outside. -/
def Event.env {ε ρ : Type} : Event ε ρ → Option ε
  | start _ => none
  | advance _ env => some env

/-- The event of a server whose requests stand for those of another. -/
def Event.map {ε ρ ρ' : Type} (f : ρ' → ρ) : Event ε ρ' → Event ε ρ
  | start r => start (f r)
  | advance k env => advance k env

/-- The task of a step, the call it made and the value it returned with the step. -/
structure Output (C : Type) (A : C → Type) (α : Type) where
  task : ℕ
  call : Option (Exchange C A)
  answer : Option α

variable {σ ε ρ C : Type} {A : C → Type} {α : Type}

/-- The requests in the order they arrived. The task of a request has its number here. -/
def started (es : List (Event ε ρ)) : List ρ :=
  es.filterMap fun
    | .start r => some r
    | .advance _ _ => none

/-- The calls of a task with their answers. -/
def history (k : ℕ) (tr : List (Event ε ρ × Output C A α)) : List (Exchange C A) :=
  tr.filterMap fun x => if x.2.task = k then x.2.call else none

/-- The values a task has returned. -/
def answers (k : ℕ) (tr : List (Event ε ρ × Output C A α)) : List α :=
  tr.filterMap fun x => if x.2.task = k then x.2.answer else none

/-- How often a task was advanced. -/
def turns (k : ℕ) (es : List (Event ε ρ)) : ℕ :=
  es.countP fun
    | .start _ => false
    | .advance j _ => j = k

theorem started_append (es fs : List (Event ε ρ)) : started (es ++ fs) = started es ++ started fs :=
  List.filterMap_append

/-- A request keeps its number while the run goes on. -/
theorem started_mono {pre es : List (Event ε ρ)} (hpre : pre <+: es) {k : ℕ} {r : ρ}
    (h : (started pre)[k]? = some r) : (started es)[k]? = some r := by
  obtain ⟨post, rfl⟩ := hpre
  rw [started_append, List.getElem?_append_left (List.getElem?_eq_some_iff.mp h).1, h]

theorem started_map {ρ' : Type} (f : ρ' → ρ) (es : List (Event ε ρ')) :
    started (es.map (Event.map f)) = (started es).map f := by
  unfold started
  rw [List.filterMap_map, List.map_filterMap]
  congr 1
  funext e
  cases e <;> rfl

theorem history_append (k : ℕ) (tr tr' : List (Event ε ρ × Output C A α)) :
    history k (tr ++ tr') = history k tr ++ history k tr' :=
  List.filterMap_append

theorem answers_append (k : ℕ) (tr tr' : List (Event ε ρ × Output C A α)) :
    answers k (tr ++ tr') = answers k tr ++ answers k tr' :=
  List.filterMap_append

theorem history_concat (k : ℕ) (tr : List (Event ε ρ × Output C A α)) (e : Event ε ρ)
    (o : Output C A α) : history k (tr ++ [(e, o)]) =
      history k tr ++ (if o.task = k then o.call else none).toList := by
  rw [history_append]
  rfl

theorem answers_concat (k : ℕ) (tr : List (Event ε ρ × Output C A α)) (e : Event ε ρ)
    (o : Output C A α) : answers k (tr ++ [(e, o)]) =
      answers k tr ++ (if o.task = k then o.answer else none).toList := by
  rw [answers_append]
  rfl

end Pool

namespace Server

open Pool

variable {σ ε ρ C : Type} {A : C → Type} {α : Type} (S : Server σ ε ρ C A α)

/-- The step of a task. -/
def stepTask (s : Pool σ C A α) (k : ℕ) (env : ε) :
    Option (Prog C A α) → Pool σ C A α × Output C A α
  | some (.call c next) =>
    let t := S.serve s.object env c
    (⟨t.1, s.tasks.set k (next t.2)⟩, ⟨k, some ⟨c, t.2⟩, (next t.2).result⟩)
  | _ => (s, ⟨k, none, none⟩)

/-- The server as a machine. -/
def pool : Machine (Pool σ C A α) (Event ε ρ) (Output C A α) where
  step s
    | .start r =>
      (⟨s.object, s.tasks ++ [S.handler r]⟩, ⟨s.tasks.length, none, (S.handler r).result⟩)
    | .advance k env => S.stepTask s k env s.tasks[k]?

/-- No request has arrived. -/
def idle (s : σ) : Pool σ C A α := ⟨s, []⟩

theorem step_start (s : Pool σ C A α) (r : ρ) : S.pool.step s (.start r) =
    (⟨s.object, s.tasks ++ [S.handler r]⟩, ⟨s.tasks.length, none, (S.handler r).result⟩) :=
  rfl

theorem step_call {s : Pool σ C A α} {k : ℕ} {c : C} {next : A c → Prog C A α}
    (h : s.tasks[k]? = some (.call c next)) (env : ε) : S.pool.step s (.advance k env) =
      (⟨(S.serve s.object env c).1, s.tasks.set k (next (S.serve s.object env c).2)⟩,
        ⟨k, some ⟨c, (S.serve s.object env c).2⟩, (next (S.serve s.object env c).2).result⟩) := by
  change S.stepTask s k env s.tasks[k]? = _
  rw [h]
  rfl

/-- A task that is not interrupted runs on its own. -/
theorem run_advances {k : ℕ} : ∀ (envs : List ε) {s : Pool σ C A α} {p : Prog C A α},
    s.tasks[k]? = some p → S.pool.run s (envs.map (Event.advance k)) =
      ⟨(p.exec S.serve envs s.object).1, s.tasks.set k (p.exec S.serve envs s.object).2⟩
  | [], s, p, hk => by
    obtain ⟨hlt, rfl⟩ := List.getElem?_eq_some_iff.mp hk
    rw [Prog.exec_nil]
    exact congrArg (Pool.mk s.object) (List.set_getElem_self hlt).symm
  | env :: envs, s, .ret a, hk => by
    have hstep : (S.pool.step s (.advance k env)).1 = s := by
      change (S.stepTask s k env s.tasks[k]?).1 = s
      rw [hk]
      rfl
    rw [List.map_cons, Machine.run_cons, hstep, run_advances envs hk]
    rfl
  | env :: envs, s, .call c next, hk => by
    have hlt : k < s.tasks.length := (List.getElem?_eq_some_iff.mp hk).1
    rw [List.map_cons, Machine.run_cons, S.step_call hk,
      run_advances envs (List.getElem?_set_self hlt), List.set_set, Prog.exec_call]

/-- A step starts a task, makes the call of a task, or does nothing. -/
theorem step_cases (s : Pool σ C A α) (e : Event ε ρ) :
    (∃ r, e = .start r) ∨
      (∃ k env c, ∃ next : A c → Prog C A α, e = .advance k env ∧
        s.tasks[k]? = some (.call c next)) ∨
      ∃ k env, e = .advance k env ∧ (∀ c next, s.tasks[k]? ≠ some (.call c next)) ∧
        S.pool.step s e = (s, ⟨k, none, none⟩) := by
  cases e with
  | start r => exact .inl ⟨r, rfl⟩
  | advance k env =>
    rcases h : s.tasks[k]? with _ | _ | ⟨c, next⟩
    · refine .inr (.inr ⟨k, env, rfl, fun c next => by simp [h], ?_⟩)
      change S.stepTask s k env s.tasks[k]? = _
      rw [h]
      rfl
    · refine .inr (.inr ⟨k, env, rfl, fun c next => by simp [h], ?_⟩)
      change S.stepTask s k env s.tasks[k]? = _
      rw [h]
      rfl
    · exact .inr (.inl ⟨k, env, c, next, rfl, h⟩)

/-- What every call keeps of the object, every step keeps. -/
theorem object_keeps {P : σ → Prop} (hserve : ∀ s env c, P s → P (S.serve s env c).1)
    (s : Pool σ C A α) (e : Event ε ρ) (h : P s.object) : P (S.pool.step s e).1.object := by
  rcases S.step_cases s e with ⟨r, rfl⟩ | ⟨k, env, c, next, rfl, hk⟩ | ⟨k, env, rfl, -, hstep⟩
  · exact h
  · rw [S.step_call hk]
    exact hserve _ _ _ h
  · rw [hstep]
    exact h

/-- What task `k` is after a step. -/
inductive TaskStep (s : Pool σ C A α) (k : ℕ) : Event ε ρ → Output C A α → Prog C A α → Prop
  /-- It was there, and the step is of another task or of one that has returned. -/
  | kept {e : Event ε ρ} {o : Output C A α} {p : Prog C A α} (hp : s.tasks[k]? = some p)
      (ho : o.task = k → o.call = none ∧ o.answer = none) : TaskStep s k e o p
  | started (r : ρ) (hk : k = s.tasks.length) :
    TaskStep s k (.start r) ⟨k, none, (S.handler r).result⟩ (S.handler r)
  | called {c : C} {next : A c → Prog C A α} (env : ε) (hp : s.tasks[k]? = some (.call c next)) :
    TaskStep s k (.advance k env)
      ⟨k, some ⟨c, (S.serve s.object env c).2⟩, (next (S.serve s.object env c).2).result⟩
      (next (S.serve s.object env c).2)

theorem task_step {s : Pool σ C A α} {e : Event ε ρ} {k : ℕ} {p : Prog C A α}
    (hp : (S.pool.step s e).1.tasks[k]? = some p) : S.TaskStep s k e (S.pool.step s e).2 p := by
  rcases S.step_cases s e with ⟨r, rfl⟩ | ⟨j, env, c, next, rfl, hj⟩ | ⟨j, env, rfl, -, hstep⟩
  · rw [step_start] at hp ⊢
    rcases Nat.lt_or_ge k s.tasks.length with hlt | hge
    · rw [List.getElem?_append_left hlt] at hp
      exact .kept hp fun h => absurd h (by simp only; omega)
    · obtain rfl : k = s.tasks.length := by
        have := (List.getElem?_eq_some_iff.mp hp).1
        rw [List.length_append, List.length_singleton] at this
        omega
      rw [List.getElem?_concat_length] at hp
      obtain rfl := Option.some.inj hp
      exact .started r rfl
  · rw [S.step_call hj] at hp ⊢
    by_cases hjk : j = k
    · subst hjk
      rw [List.getElem?_set_self (List.getElem?_eq_some_iff.mp hj).1] at hp
      obtain rfl := Option.some.inj hp
      exact .called env hj
    · rw [List.getElem?_set_ne hjk] at hp
      exact .kept hp fun h => absurd h hjk
  · rw [hstep] at hp ⊢
    exact .kept hp fun _ => ⟨rfl, rfl⟩

/-- A step that makes a call advances a task that is about to. -/
theorem call_step {s : Pool σ C A α} {e : Event ε ρ} {x : Exchange C A}
    (hx : (S.pool.step s e).2.call = some x) :
    ∃ k env c, ∃ next : A c → Prog C A α, e = .advance k env ∧
      s.tasks[k]? = some (.call c next) ∧ x = ⟨c, (S.serve s.object env c).2⟩ := by
  rcases S.step_cases s e with ⟨r, rfl⟩ | ⟨k, env, c, next, rfl, hk⟩ | ⟨k, env, rfl, -, hstep⟩
  · cases hx
  · rw [S.step_call hk] at hx
    exact ⟨k, env, c, next, rfl, hk, (Option.some.inj hx).symm⟩
  · rw [hstep] at hx
    cases hx

theorem result_eq_some {p : Prog C A α} {a : α} : p.result = some a ↔ p = .ret a := by
  cases p <;> simp [Prog.result]

/-! ## Histories -/

section Run

variable {S} {s₀ : σ} {es : List (Event ε ρ)}

theorem length_tasks (es : List (Event ε ρ)) :
    (S.pool.run (idle s₀) es).tasks.length = (started es).length := by
  induction es using List.reverseRecOn with
  | nil => rfl
  | append_singleton es e ih =>
    rw [Machine.run_concat, started_append, List.length_append, ← ih]
    rcases S.step_cases (S.pool.run (idle s₀) es) e with
      ⟨r, rfl⟩ | ⟨k, env, c, next, rfl, hk⟩ | ⟨k, env, rfl, -, hstep⟩
    · simp [step_start, started]
    · simp [S.step_call hk, started]
    · simp [hstep, started]

/-- A task that is not there has made no call. -/
theorem history_eq_nil {k : ℕ} (hk : (started es).length ≤ k) :
    history k (S.pool.trace (idle s₀) es) = [] := by
  induction es using List.reverseRecOn with
  | nil => rfl
  | append_singleton es e ih =>
    rw [started_append, List.length_append] at hk
    rw [Machine.trace_concat, history_concat, ih (by omega), List.nil_append]
    rcases S.step_cases (S.pool.run (idle s₀) es) e with
      ⟨r, rfl⟩ | ⟨j, env, c, next, rfl, hj⟩ | ⟨j, env, rfl, -, hstep⟩
    · rw [step_start, ite_self, Option.toList_none]
    · have hlen := (List.getElem?_eq_some_iff.mp hj).1
      rw [length_tasks] at hlen
      have hne : j ≠ k := by omega
      rw [S.step_call hj, if_neg hne, Option.toList_none]
    · rw [hstep, ite_self, Option.toList_none]

/-- A call of a task was made at a step of it, after the calls before it. -/
theorem history_split {k : ℕ} {x : Exchange C A} {h h' : List (Exchange C A)}
    (hx : history k (S.pool.trace (idle s₀) es) = h ++ x :: h') : ∃ pre env post,
      es = pre ++ .advance k env :: post ∧ history k (S.pool.trace (idle s₀) pre) = h ∧
        (S.pool.step (S.pool.run (idle s₀) pre) (.advance k env)).2.call = some x := by
  induction es using List.reverseRecOn generalizing h' with
  | nil => exact absurd hx.symm (by simp [history])
  | append_singleton es e ih =>
    rw [Machine.trace_concat, history_concat] at hx
    split_ifs at hx with htask
    · cases hcall : (S.pool.step (S.pool.run (idle s₀) es) e).2.call with
      | none =>
        rw [hcall, Option.toList_none, List.append_nil] at hx
        obtain ⟨pre, env, post, rfl, hrest⟩ := ih hx
        exact ⟨pre, env, post ++ [e], by simp, hrest⟩
      | some y =>
        rw [hcall, Option.toList_some] at hx
        rcases List.eq_nil_or_concat h' with rfl | ⟨h', z, rfl⟩
        · -- The last call of the history is that of the last step.
          obtain ⟨hh, hy⟩ := List.append_inj' hx rfl
          cases hy
          obtain ⟨j, env, c, next, rfl, hj, -⟩ := S.call_step hcall
          rw [S.step_call hj] at htask
          obtain rfl : j = k := htask
          exact ⟨es, env, [], rfl, hh, hcall⟩
        · rw [List.concat_eq_append, ← List.cons_append, ← List.append_assoc] at hx
          obtain ⟨pre, env, post, rfl, hrest⟩ := ih (List.append_inj' hx rfl).1
          exact ⟨pre, env, post ++ [e], by simp, hrest⟩
    · rw [Option.toList_none, List.append_nil] at hx
      obtain ⟨pre, env, post, rfl, hrest⟩ := ih hx
      exact ⟨pre, env, post ++ [e], by simp, hrest⟩

variable {post : (c : C) → A c → Prop} {Q : ρ → List (Exchange C A) → C → Prop}
  {R : ρ → List (Exchange C A) → α → Prop} {I : σ → Prop}

/-- What the handlers meet the tasks meet, each from its history on. The answers are those of an
object that has the invariant. -/
theorem holds_run (hinv : I s₀)
    (hserve : ∀ s env c, I s → I (S.serve s env c).1 ∧ post c (S.serve s env c).2)
    (hhandler : ∀ r, Prog.Holds post (Q r) (R r) [] (S.handler r)) (es : List (Event ε ρ)) :
    I (S.pool.run (idle s₀) es).object ∧
      ∀ k p, (S.pool.run (idle s₀) es).tasks[k]? = some p → ∃ r, (started es)[k]? = some r ∧
        Prog.Holds post (Q r) (R r) (history k (S.pool.trace (idle s₀) es)) p := by
  induction es using List.reverseRecOn with
  | nil => exact ⟨hinv, fun k p hp => by simp [idle] at hp⟩
  | append_singleton es e ih =>
    obtain ⟨ihinv, ihtasks⟩ := ih
    rw [Machine.run_concat, Machine.trace_concat, started_append]
    refine ⟨S.object_keeps (fun s env c hs => (hserve s env c hs).1) _ e ihinv, fun k p hp => ?_⟩
    have hold : ∀ {r}, (started es)[k]? = some r → (started es ++ started [e])[k]? = some r :=
      fun hr => by rw [List.getElem?_append_left (List.getElem?_eq_some_iff.mp hr).1, hr]
    rw [history_concat]
    have hstep := S.task_step hp
    generalize (S.pool.step (S.pool.run (idle s₀) es) e).2 = o at hstep
    cases hstep with
    | kept hp ho =>
      obtain ⟨r, hr, h⟩ := ihtasks k p hp
      have hnone : (if o.task = k then o.call else none) = none := by
        split_ifs with hk
        · exact (ho hk).1
        · rfl
      exact ⟨r, hold hr, by rwa [hnone, Option.toList_none, List.append_nil]⟩
    | started r hk =>
      -- The new task is the last one, and it has no history.
      rw [length_tasks] at hk
      subst hk
      refine ⟨r, by simp [started], ?_⟩
      rw [history_eq_nil (Nat.le_refl _), ite_self]
      exact hhandler r
    | called env hcall =>
      obtain ⟨r, hr, h⟩ := ihtasks k _ hcall
      rw [if_pos rfl]
      exact ⟨r, hold hr, h.2 _ (hserve _ env _ ihinv).2⟩

/-- A call is made after a history that its request admits, and has an answer that the object
gives. -/
theorem holds_made (hinv : I s₀)
    (hserve : ∀ s env c, I s → I (S.serve s env c).1 ∧ post c (S.serve s env c).2)
    (hhandler : ∀ r, Prog.Holds post (Q r) (R r) [] (S.handler r)) {k : ℕ} {env : ε}
    {x : Exchange C A}
    (hx : (S.pool.step (S.pool.run (idle s₀) es) (.advance k env)).2.call = some x) :
    ∃ r, (started es)[k]? = some r ∧ Q r (history k (S.pool.trace (idle s₀) es)) x.1 ∧
      post x.1 x.2 := by
  obtain ⟨j, env', c, next, he, hk, rfl⟩ := S.call_step hx
  cases he
  obtain ⟨ihinv, ihtasks⟩ := holds_run hinv hserve hhandler es
  obtain ⟨r, hr, h⟩ := ihtasks k _ hk
  exact ⟨r, hr, h.1, (hserve _ env c ihinv).2⟩

/-! ## Answers -/

/-- The value a task has returned, and nothing while it is under way. -/
theorem answers_eq (k : ℕ) (es : List (Event ε ρ)) :
    answers k (S.pool.trace (idle s₀) es) =
      ((S.pool.run (idle s₀) es).tasks[k]?.bind Prog.result).toList := by
  induction es using List.reverseRecOn with
  | nil => simp [answers, idle]
  | append_singleton es e ih =>
    rw [Machine.run_concat, Machine.trace_concat, answers_concat, ih]
    rcases S.step_cases (S.pool.run (idle s₀) es) e with
      ⟨r, rfl⟩ | ⟨j, env, c, next, rfl, hj⟩ | ⟨j, env, rfl, -, hstep⟩
    · rw [step_start]
      rcases Nat.lt_trichotomy k (S.pool.run (idle s₀) es).tasks.length with hlt | rfl | hgt
      · rw [if_neg (Nat.ne_of_gt hlt), List.getElem?_append_left hlt]
        simp
      · rw [if_pos rfl, List.getElem?_concat_length, List.getElem?_eq_none (Nat.le_refl _)]
        simp
      · rw [if_neg (Nat.ne_of_lt hgt), List.getElem?_eq_none (Nat.le_of_lt hgt),
          List.getElem?_eq_none (by rw [List.length_append, List.length_singleton]; omega)]
        simp
    · rw [S.step_call hj]
      by_cases hjk : j = k
      · subst hjk
        rw [if_pos rfl, hj, List.getElem?_set_self (List.getElem?_eq_some_iff.mp hj).1]
        simp [Prog.result]
      · rw [if_neg hjk, List.getElem?_set_ne hjk]
        simp
    · rw [hstep, ite_self]
      simp

/-- The value of a task is returned after a history that its request admits. -/
theorem holds_answer (hinv : I s₀)
    (hserve : ∀ s env c, I s → I (S.serve s env c).1 ∧ post c (S.serve s env c).2)
    (hhandler : ∀ r, Prog.Holds post (Q r) (R r) [] (S.handler r)) {k : ℕ} {a : α}
    (ha : a ∈ answers k (S.pool.trace (idle s₀) es)) : ∃ r, (started es)[k]? = some r ∧
      R r (history k (S.pool.trace (idle s₀) es)) a := by
  rw [answers_eq, Option.mem_toList, Option.bind_eq_some_iff] at ha
  obtain ⟨p, hp, hret⟩ := ha
  obtain rfl := result_eq_some.mp hret
  exact (holds_run hinv hserve hhandler es).2 k _ hp

/-- A task that has returned a value and begins with a call has made it. -/
theorem history_head {k : ℕ} {r : ρ} {c : C} {next : A c → Prog C A α} {a : α}
    (hk : (started es)[k]? = some r) (hr : S.handler r = .call c next)
    (ha : a ∈ answers k (S.pool.trace (idle s₀) es)) :
    ∃ b h, history k (S.pool.trace (idle s₀) es) = ⟨c, b⟩ :: h := by
  have hhandler : ∀ r, Prog.Holds (fun _ _ => True) (fun _ _ => True)
      (fun h _ => ∀ c next, S.handler r = .call c next → ∃ b : A c, h.head? = some ⟨c, b⟩) []
      (S.handler r) := by
    intro r
    cases S.handler r with
    | ret v => exact nofun
    | call c next =>
      refine ⟨trivial, fun b _ => (Prog.holds_head ⟨c, b⟩ [] (next b)).imp (fun _ _ h => h) ?_⟩
      rintro h - hh _ _ ⟨⟩
      exact ⟨b, hh⟩
  obtain ⟨r', hk', hhead⟩ := holds_answer (I := fun _ => True) trivial
    (fun _ _ _ _ => ⟨trivial, trivial⟩) hhandler ha
  obtain rfl := Option.some.inj (hk.symm.trans hk')
  obtain ⟨b, hb⟩ := hhead c next hr
  obtain ⟨h, hh⟩ := List.head?_eq_some_iff.mp hb
  exact ⟨b, h, hh⟩

/-- After as many of its own steps as it is deep, a task has returned. -/
theorem answered_of_advances {n k : ℕ} : ∀ {s : Pool σ C A α} {p : Prog C A α}
    (es : List (Event ε ρ)), s.tasks[k]? = some p → p.Bounded n → n ≤ turns k es →
      ∃ a, (S.pool.run s es).tasks[k]? = some (.ret a) := by
  intro s p es
  induction es generalizing s p n with
  | nil =>
    intro hp hb hn
    obtain rfl : n = 0 := Nat.le_zero.mp hn
    cases p with
    | ret a => exact ⟨a, hp⟩
    | call c next => exact absurd hb (by simp [Prog.Bounded])
  | cons e es ih =>
    intro hp hb hn
    rw [Machine.run_cons]
    rcases S.step_cases s e with ⟨r, rfl⟩ | ⟨j, env, c, next, rfl, hj⟩ | ⟨j, env, rfl, hret, hstep⟩
    · refine ih (p := p) ?_ hb (by simpa [turns] using hn)
      rw [step_start, List.getElem?_append_left (List.getElem?_eq_some_iff.mp hp).1, hp]
    · rw [S.step_call hj]
      by_cases hjk : j = k
      · -- The task made its call, and what is left of it is less deep.
        subst hjk
        obtain rfl := Option.some.inj (hj.symm.trans hp)
        cases n with
        | zero => exact absurd hb (by simp [Prog.Bounded])
        | succ n =>
          refine ih (p := next (S.serve s.object env c).2)
            (List.getElem?_set_self (List.getElem?_eq_some_iff.mp hj).1) (hb _) ?_
          simpa [turns, List.countP_cons] using hn
      · refine ih (p := p) (by rw [List.getElem?_set_ne hjk]; exact hp) hb ?_
        simpa [turns, List.countP_cons, hjk] using hn
    · rw [hstep]
      by_cases hjk : j = k
      · -- The task had returned before.
        subst hjk
        cases p with
        | ret a =>
          refine ih (n := 0) hp (by simp [Prog.Bounded]) (Nat.zero_le _)
        | call c next => exact absurd hp (hret c next)
      · refine ih hp hb ?_
        simpa [turns, List.countP_cons, hjk] using hn

end Run

/-! ## Fronts -/

section Front

variable {ρ' β : Type} {T : Server σ ε ρ' C A β} {f : ρ' → ρ} {g : ρ' → α → β}

variable (T f g) in
/-- The server `T` passes its requests on to `S` and may change the answers. -/
structure Fronts : Prop where
  handler : ∀ r, T.handler r = (S.handler (f r)).map (g r)
  serve : T.serve = S.serve

variable {S}

/-- The tasks of a server and of its front, and their objects. -/
structure Matched (g : ρ' → α → β) (rs : List ρ') (s : Pool σ C A α) (t : Pool σ C A β) :
    Prop where
  object : t.object = s.object
  width : s.tasks.length = rs.length
  length : t.tasks.length = rs.length
  tasks : ∀ (k : ℕ) (r : ρ'), rs[k]? = some r → t.tasks[k]? = s.tasks[k]?.map (Prog.map (g r))

theorem Matched.concat {rs : List ρ'} {s : Pool σ C A α} {t : Pool σ C A β} (hm : Matched g rs s t)
    (r₀ : ρ') (p : Prog C A α) : Matched g (rs ++ [r₀]) ⟨s.object, s.tasks ++ [p]⟩
      ⟨t.object, t.tasks ++ [p.map (g r₀)]⟩ := by
  refine ⟨hm.object, by simp [hm.width], by simp [hm.length], fun k r hr => ?_⟩
  rcases Nat.lt_or_ge k rs.length with hlt | hge
  · rw [List.getElem?_append_left hlt] at hr
    rw [List.getElem?_append_left (hm.length ▸ hlt), List.getElem?_append_left (hm.width ▸ hlt),
      hm.tasks k r hr]
  · obtain rfl : k = rs.length := by
      have hk := (List.getElem?_eq_some_iff.mp hr).1
      rw [List.length_append, List.length_singleton] at hk
      omega
    rw [List.getElem?_concat_length] at hr
    obtain rfl := Option.some.inj hr
    conv_lhs => rw [← hm.length, List.getElem?_concat_length]
    rw [← hm.width, List.getElem?_concat_length]
    rfl

theorem Matched.set {rs : List ρ'} {s : Pool σ C A α} {t : Pool σ C A β} (hm : Matched g rs s t)
    {j : ℕ} {r : ρ'} (hr : rs[j]? = some r) (o : σ) (p : Prog C A α) :
    Matched g rs ⟨o, s.tasks.set j p⟩ ⟨o, t.tasks.set j (p.map (g r))⟩ := by
  have hlt := (List.getElem?_eq_some_iff.mp hr).1
  refine ⟨rfl, by simp [hm.width], by simp [hm.length], fun k r' hr' => ?_⟩
  by_cases hjk : j = k
  · subst hjk
    obtain rfl := Option.some.inj (hr.symm.trans hr')
    rw [List.getElem?_set_self (hm.length ▸ hlt), List.getElem?_set_self (hm.width ▸ hlt)]
    rfl
  · rw [List.getElem?_set_ne hjk, List.getElem?_set_ne hjk, hm.tasks k r' hr']

/-- A step of the server and the same step of its front. -/
theorem Fronts.step (h : S.Fronts T f g) {rs : List ρ'} {s : Pool σ C A α} {t : Pool σ C A β}
    (hm : Matched g rs s t) (e : Event ε ρ') :
    Matched g (rs ++ started [e]) (S.pool.step s (e.map f)).1 (T.pool.step t e).1 ∧
      (S.pool.step s (e.map f)).2.task = (T.pool.step t e).2.task ∧
      (S.pool.step s (e.map f)).2.call = (T.pool.step t e).2.call := by
  cases e with
  | start r₀ =>
    change Matched g (rs ++ [r₀]) ⟨s.object, s.tasks ++ [S.handler (f r₀)]⟩
      ⟨t.object, t.tasks ++ [T.handler r₀]⟩ ∧ s.tasks.length = t.tasks.length ∧ none = none
    rw [h.handler]
    exact ⟨hm.concat r₀ _, hm.width.trans hm.length.symm, rfl⟩
  | advance j env =>
    change Matched g (rs ++ []) (S.stepTask s j env s.tasks[j]?).1
        (T.stepTask t j env t.tasks[j]?).1 ∧ (S.stepTask s j env s.tasks[j]?).2.task =
          (T.stepTask t j env t.tasks[j]?).2.task ∧ (S.stepTask s j env s.tasks[j]?).2.call =
          (T.stepTask t j env t.tasks[j]?).2.call
    rw [List.append_nil]
    cases hr : rs[j]? with
    | none =>
      have hj := List.getElem?_eq_none_iff.mp hr
      rw [List.getElem?_eq_none (hm.width ▸ hj), List.getElem?_eq_none (hm.length ▸ hj)]
      exact ⟨hm, rfl, rfl⟩
    | some r =>
      rw [hm.tasks j r hr]
      rcases hp : s.tasks[j]? with _ | a | ⟨c, next⟩
      · exact ⟨hm, rfl, rfl⟩
      · exact ⟨hm, rfl, rfl⟩
      · change Matched g rs ⟨(S.serve s.object env c).1, s.tasks.set j (next _)⟩
          ⟨(T.serve t.object env c).1, t.tasks.set j ((next _).map (g r))⟩ ∧ j = j ∧ some _ = some _
        rw [h.serve, hm.object]
        exact ⟨hm.set hr _ _, rfl, rfl⟩

/-- A server and its front do the same. -/
theorem Fronts.run (h : S.Fronts T f g) (s₀ : σ) (es : List (Event ε ρ')) :
    Matched g (Pool.started es) (S.pool.run (idle s₀) (es.map (Event.map f)))
        (T.pool.run (idle s₀) es) ∧
      ∀ k, history k (T.pool.trace (idle s₀) es) =
        history k (S.pool.trace (idle s₀) (es.map (Event.map f))) := by
  induction es using List.reverseRecOn with
  | nil => exact ⟨⟨rfl, rfl, rfl, fun _ _ hr => nomatch hr⟩, fun _ => rfl⟩
  | append_singleton es e ih =>
    obtain ⟨hm, htask, hcall⟩ := h.step ih.1 e
    rw [List.map_append, List.map_singleton, Machine.run_concat, Machine.run_concat,
      started_append]
    refine ⟨hm, fun k => ?_⟩
    rw [Machine.trace_concat, Machine.trace_concat, history_concat, history_concat, ih.2 k, htask,
      hcall]

/-- The answers of the front. -/
theorem Fronts.answers (h : S.Fronts T f g) (s₀ : σ) {es : List (Event ε ρ')} {k : ℕ} {r : ρ'}
    (hr : (started es)[k]? = some r) : Pool.answers k (T.pool.trace (idle s₀) es) =
      (Pool.answers k (S.pool.trace (idle s₀) (es.map (Event.map f)))).map (g r) := by
  rw [answers_eq, answers_eq, (h.run s₀ es).1.tasks k r hr]
  rcases (S.pool.run (idle s₀) (es.map (Event.map f))).tasks[k]? with _ | _ | _ <;> rfl

end Front

end Server
