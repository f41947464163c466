import Mathlib.Data.List.Induction

/-! # Runs of an action machine

A machine is driven by actions: every choice the environment or a scheduler can
make is an action, so the transition function itself is deterministic. An action
that is not enabled has no successor. A run keeps every transition it took, with
the states before and after, so that a property of whole runs (a sum over the
selections made, a condition on every step) is a property of one list.
-/

/-- An action machine with states `σ`, actions `α` and observable events `ε`. -/
structure Machine (σ α ε : Type*) where
  start : σ
  next : σ → α → Option (σ × Option ε)

/-- One step that a machine took. -/
structure Transition (σ α ε : Type*) where
  pre : σ
  action : α
  event : Option ε
  post : σ

namespace Machine

variable {σ α ε : Type*}

/-- A run from `s`, with the transitions in the order in which they were taken. -/
inductive Exec (m : Machine σ α ε) (s : σ) : List (Transition σ α ε) → σ → Prop where
  | nil : Exec m s [] s
  | snoc {ts t a u e} : Exec m s ts t → m.next t a = some (u, e) →
      Exec m s (ts ++ [⟨t, a, e, u⟩]) u

/-- A state that some run from the start reaches. -/
def Reachable (m : Machine σ α ε) (t : σ) : Prop := ∃ ts, m.Exec m.start ts t

/-- The events a run made visible, oldest first. -/
def events (ts : List (Transition σ α ε)) : List ε := ts.filterMap Transition.event

/-- Offer a list of actions one after the other. -/
def run (m : Machine σ α ε) : σ → List α → Option (List (Transition σ α ε) × σ)
  | s, [] => some ([], s)
  | s, a :: rest =>
      match m.next s a with
      | none => none
      | some (t, e) => (m.run t rest).map fun r => (⟨s, a, e, t⟩ :: r.1, r.2)

@[simp] theorem events_nil : events ([] : List (Transition σ α ε)) = [] := rfl

@[simp] theorem events_append (before after : List (Transition σ α ε)) :
    events (before ++ after) = events before ++ events after := by
  simp only [events, List.filterMap_append]

@[simp] theorem events_singleton (tr : Transition σ α ε) :
    events [tr] = tr.event.toList := by
  cases h : tr.event <;> simp [events, h]

namespace Exec

variable {m : Machine σ α ε} {s t u : σ}

theorem single {a e} (h : m.next s a = some (t, e)) : m.Exec s [⟨s, a, e, t⟩] t := by
  simpa using Exec.snoc (.nil : m.Exec s [] s) h

theorem trans {before after} (first : m.Exec s before t) (second : m.Exec t after u) :
    m.Exec s (before ++ after) u := by
  induction second with
  | nil => simpa using first
  | snoc _ step ih => simpa only [List.append_assoc] using ih.snoc step

theorem cons {a e ts} (step : m.next s a = some (t, e)) (rest : m.Exec t ts u) :
    m.Exec s (⟨s, a, e, t⟩ :: ts) u := by
  simpa using (single step).trans rest

theorem step_of_mem {ts} (run : m.Exec s ts t) {tr} (member : tr ∈ ts) :
    m.next tr.pre tr.action = some (tr.post, tr.event) := by
  induction run with
  | nil => simp at member
  | snoc _ step ih =>
      rcases List.mem_append.mp member with earlier | last
      · exact ih earlier
      · obtain rfl := List.mem_singleton.mp last
        exact step

theorem split_of_mem {ts} (run : m.Exec s ts t) {tr} (member : tr ∈ ts) :
    ∃ before after, ts = before ++ tr :: after ∧
      m.Exec s before tr.pre ∧ m.Exec tr.post after t := by
  induction run with
  | nil => simp at member
  | @snoc ts v a w e whole step ih =>
      rcases List.mem_append.mp member with earlier | last
      · obtain ⟨before, after, rfl, first, second⟩ := ih earlier
        exact ⟨before, after ++ [⟨v, a, e, w⟩], by simp, first, second.snoc step⟩
      · obtain rfl := List.mem_singleton.mp last
        exact ⟨ts, [], rfl, whole, .nil⟩

theorem snoc_inv {ts tr} (run : m.Exec s (ts ++ [tr]) t) :
    m.Exec s ts tr.pre ∧ m.next tr.pre tr.action = some (tr.post, tr.event) ∧ tr.post = t := by
  generalize whole : ts ++ [tr] = l at run
  cases run with
  | nil => simp at whole
  | snoc before step =>
      obtain ⟨rfl, last⟩ := List.append_inj' whole rfl
      obtain rfl := List.cons.inj last |>.1
      exact ⟨before, step, rfl⟩

theorem of_nil (run : m.Exec s [] t) : t = s := by
  generalize none_ : [] = ts at run
  cases run with
  | nil => rfl
  | snoc => simp at none_

theorem split {before after} (run : m.Exec s (before ++ after) t) :
    ∃ u, m.Exec s before u ∧ m.Exec u after t := by
  induction after using List.reverseRecOn generalizing t with
  | nil => exact ⟨t, by simpa using run, .nil⟩
  | append_singleton rest tr ih =>
      rw [← List.append_assoc] at run
      obtain ⟨first, step, rfl⟩ := run.snoc_inv
      obtain ⟨u, left, right⟩ := ih first
      exact ⟨u, left, right.snoc step⟩

/-- The states around one transition of a run. -/
theorem split_at {before tr after} (run : m.Exec s (before ++ tr :: after) t) :
    m.Exec s before tr.pre ∧ m.next tr.pre tr.action = some (tr.post, tr.event) ∧
      m.Exec tr.post after t := by
  rw [← List.singleton_append, ← List.append_assoc] at run
  obtain ⟨u, first, second⟩ := run.split
  obtain ⟨before, step, rfl⟩ := first.snoc_inv
  exact ⟨before, step, second⟩

/-- A run that goes on has a first transition. -/
theorem uncons {ts} (run : m.Exec s ts t) (moved : t ≠ s) :
    ∃ tr rest, ts = tr :: rest ∧ tr.pre = s ∧ m.next s tr.action = some (tr.post, tr.event) ∧
      m.Exec tr.post rest t := by
  cases ts with
  | nil => exact absurd run.of_nil moved
  | cons tr rest =>
      obtain ⟨first, step, second⟩ : m.Exec s [] tr.pre ∧ _ ∧ m.Exec tr.post rest t := run.split_at
      have same := first.of_nil
      exact ⟨tr, rest, rfl, same, same ▸ step, second⟩

/-- A predicate that each step keeps holds at the end of a run that starts in it. -/
theorem invariant {I : σ → Prop} {ts} (run : m.Exec s ts t) (initial : I s)
    (keeps : ∀ {v a w e}, I v → m.next v a = some (w, e) → I w) : I t := by
  induction run with
  | nil => exact initial
  | snoc _ step ih => exact keeps ih step

/-- As `invariant`, for runs all of whose transitions meet a condition. -/
theorem invariant_within {I : σ → Prop} {C : Transition σ α ε → Prop} {ts}
    (run : m.Exec s ts t) (within : ∀ tr ∈ ts, C tr) (initial : I s)
    (keeps : ∀ {v a w e}, I v → C ⟨v, a, e, w⟩ → m.next v a = some (w, e) → I w) : I t := by
  induction run with
  | nil => exact initial
  | snoc _ step ih =>
      have earlier := ih fun tr member => within tr (List.mem_append_left _ member)
      exact keeps earlier (within _ (by simp)) step

/-- The potential method: where each marked step lowers `potential` and no step
    raises it, a run has no more marked steps than the potential it starts with. -/
theorem charge {I : σ → Prop} {C : Transition σ α ε → Prop} {ts} (run : m.Exec s ts t)
    (marked : Transition σ α ε → Bool) (potential : σ → Nat) (within : ∀ tr ∈ ts, C tr) (initial : I s)
    (keeps : ∀ {v a w e}, I v → C ⟨v, a, e, w⟩ → m.next v a = some (w, e) →
      I w ∧ (if marked ⟨v, a, e, w⟩ then 1 else 0) + potential w ≤ potential v) :
    I t ∧ ts.countP marked + potential t ≤ potential s := by
  induction run with
  | nil => exact ⟨initial, by simp⟩
  | snoc _ step ih =>
      obtain ⟨held, charged⟩ := ih fun tr member => within tr (List.mem_append_left _ member)
      obtain ⟨holds, paid⟩ := keeps held (within _ (by simp)) step
      refine ⟨holds, ?_⟩
      rw [List.countP_append, List.countP_singleton]
      omega

/-- Each step seen through a view is a run of another machine with the same
    events; then so is the whole run. -/
theorem project {τ β : Type*} {n : Machine τ β ε} {ts} (view : σ → τ)
    (steps : ∀ {v a w e}, m.next v a = some (w, e) →
      ∃ us, n.Exec (view v) us (view w) ∧ events us = e.toList)
    (run : m.Exec s ts t) : ∃ us, n.Exec (view s) us (view t) ∧ events us = events ts := by
  induction run with
  | nil => exact ⟨[], .nil, rfl⟩
  | snoc _ step ih =>
      obtain ⟨us, before, same⟩ := ih
      obtain ⟨last, after, visible⟩ := steps step
      refine ⟨us ++ last, before.trans after, ?_⟩
      rw [events_append, events_append, events_singleton, same, visible]

/-- Each step seen through a view is a run of another machine that shows what the
    step is labelled with; then so is the whole run. -/
theorem simulate {τ β δ : Type*} {n : Machine τ β δ} {I : σ → Prop} {ts} (view : σ → τ)
    (label : Transition σ α ε → List δ) (run : m.Exec s ts t) (initial : I s)
    (keeps : ∀ {v a w e}, I v → m.next v a = some (w, e) → I w)
    (steps : ∀ {v a w e}, I v → m.next v a = some (w, e) →
      ∃ us, n.Exec (view v) us (view w) ∧ events us = label ⟨v, a, e, w⟩) :
    ∃ us, n.Exec (view s) us (view t) ∧ events us = ts.flatMap label := by
  induction run with
  | nil => exact ⟨[], .nil, rfl⟩
  | snoc earlier step ih =>
      obtain ⟨us, before, same⟩ := ih
      obtain ⟨last, after, visible⟩ := steps (earlier.invariant initial keeps) step
      refine ⟨us ++ last, before.trans after, ?_⟩
      rw [events_append, same, visible, List.flatMap_append, List.flatMap_singleton]

end Exec

namespace Reachable

variable {m : Machine σ α ε} {s t : σ}

theorem start (m : Machine σ α ε) : m.Reachable m.start := ⟨[], .nil⟩

theorem exec {ts} (reach : m.Reachable s) (run : m.Exec s ts t) : m.Reachable t := by
  obtain ⟨before, first⟩ := reach
  exact ⟨before ++ ts, first.trans run⟩

theorem step {a e} (reach : m.Reachable s) (h : m.next s a = some (t, e)) : m.Reachable t :=
  reach.exec (.single h)

/-- An inductive invariant holds in every reachable state. The step may use
    that the state before is itself reachable. -/
theorem invariant {I : σ → Prop} (reach : m.Reachable t) (initial : I m.start)
    (keeps : ∀ {v a w e}, m.Reachable v → I v → m.next v a = some (w, e) → I w) : I t := by
  obtain ⟨ts, run⟩ := reach
  induction run with
  | nil => exact initial
  | snoc before step ih => exact keeps ⟨_, before⟩ ih step

/-- One machine refines another under a view of its states, where the view of
    each of its steps is a run of the other with the same events. -/
theorem project {τ β : Type*} {n : Machine τ β ε} (view : σ → τ) (starts : view m.start = n.start)
    (steps : ∀ {v a w e}, m.next v a = some (w, e) →
      ∃ us, n.Exec (view v) us (view w) ∧ events us = e.toList)
    (reach : m.Reachable t) : n.Reachable (view t) := by
  obtain ⟨ts, run⟩ := reach
  obtain ⟨us, viewed, -⟩ := run.project view steps
  rw [starts] at viewed
  exact ⟨us, viewed⟩

end Reachable

/-- What `run` computes is a run. -/
theorem run_exec {m : Machine σ α ε} {actions : List α} {s : σ} {r}
    (h : m.run s actions = some r) : m.Exec s r.1 r.2 := by
  induction actions generalizing s r with
  | nil =>
      simp only [run, Option.some.injEq] at h
      subst h
      exact .nil
  | cons a rest ih =>
      simp only [run] at h
      split at h
      · simp at h
      · rename_i t e step
        obtain ⟨tail, found, rfl⟩ := Option.map_eq_some_iff.mp h
        exact .cons step (ih found)

/-- The transitions of a list of actions that are all enabled. -/
def traceFrom (m : Machine σ α ε) (s : σ) (actions : List α) : List (Transition σ α ε) :=
  ((m.run s actions).map Prod.fst).getD []

/-- The state those transitions lead to. -/
def afterFrom (m : Machine σ α ε) (s : σ) (actions : List α) : σ :=
  ((m.run s actions).map Prod.snd).getD s

def trace (m : Machine σ α ε) (actions : List α) : List (Transition σ α ε) :=
  m.traceFrom m.start actions

def after (m : Machine σ α ε) (actions : List α) : σ := m.afterFrom m.start actions

theorem exec_afterFrom (m : Machine σ α ε) (s : σ) (actions : List α) :
    m.Exec s (m.traceFrom s actions) (m.afterFrom s actions) := by
  unfold traceFrom afterFrom
  cases found : m.run s actions with
  | none => exact .nil
  | some r => exact run_exec found

theorem exec_after (m : Machine σ α ε) (actions : List α) :
    m.Exec m.start (m.trace actions) (m.after actions) := m.exec_afterFrom m.start actions

theorem reachable_after (m : Machine σ α ε) (actions : List α) : m.Reachable (m.after actions) :=
  ⟨_, m.exec_after actions⟩

theorem map_action_run {m : Machine σ α ε} {actions : List α} {s : σ} {r}
    (h : m.run s actions = some r) : r.1.map Transition.action = actions := by
  induction actions generalizing s r with
  | nil =>
      simp only [run, Option.some.injEq] at h
      subst h
      rfl
  | cons a rest ih =>
      simp only [run] at h
      split at h
      · simp at h
      · obtain ⟨tail, found, rfl⟩ := Option.map_eq_some_iff.mp h
        simp [ih found]

/-- What holds of every action offered holds of every action taken. -/
theorem action_of_trace {m : Machine σ α ε} {actions : List α} {P : α → Prop}
    (all : ∀ a ∈ actions, P a) {tr} (member : tr ∈ m.trace actions) : P tr.action := by
  unfold trace traceFrom at member
  cases found : m.run m.start actions with
  | none => simp [found] at member
  | some r =>
      simp only [found, Option.map_some, Option.getD_some] at member
      apply all _
      rw [← map_action_run found]
      exact List.mem_map_of_mem member

end Machine
