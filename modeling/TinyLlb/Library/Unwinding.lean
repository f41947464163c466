import TinyLlb.Library.Machine

/-! # Two runs that differ in actions nobody observes

Some actions of a machine are visible, the others should make no difference to
whoever sees only the visible steps and a view of the states. It is enough to
find a relation between states that hides what the other actions change: visible
steps keep two related states in lockstep, and a hidden step stays related to
where it started.
-/

namespace Machine

variable {σ α ε ω : Type*}

/-- The steps of a run whose action is visible. -/
def visibleSteps (visible : α → Bool) (ts : List (Transition σ α ε)) : List (Transition σ α ε) :=
  ts.filter fun tr => visible tr.action

/-- What there is to see of a run: each visible action, its event, and the view of
    the state it leads to. -/
def observe (visible : α → Bool) (view : σ → ω) (ts : List (Transition σ α ε)) :
    List (α × Option ε × ω) :=
  (visibleSteps visible ts).map fun tr => (tr.action, tr.event, view tr.post)

structure Unwinding (m : Machine σ α ε) (visible : α → Bool) (view : σ → ω) (R : σ → σ → Prop) :
    Prop where
  refl : ∀ s, R s s
  view_eq : ∀ {s s'}, R s s' → view s = view s'
  lockstep : ∀ {s s' a t e}, R s s' → visible a = true → m.next s a = some (t, e) →
    ∃ t', m.next s' a = some (t', e) ∧ R t t'
  hidden : ∀ {s s' a t e}, R s s' → visible a = false → m.next s a = some (t, e) →
    e = none ∧ R t s'

variable {m : Machine σ α ε} {visible : α → Bool} {view : σ → ω} {R : σ → σ → Prop}

theorem observe_snoc (ts : List (Transition σ α ε)) (tr : Transition σ α ε) :
    observe visible view (ts ++ [tr]) = observe visible view ts ++
      if visible tr.action = true then [(tr.action, tr.event, view tr.post)] else [] := by
  rw [observe, visibleSteps, List.filter_append, List.map_append]
  by_cases seen : visible tr.action = true <;> simp [observe, visibleSteps, seen]

theorem observe_actions (ts : List (Transition σ α ε)) :
    (observe visible view ts).map Prod.fst = (visibleSteps visible ts).map Transition.action := by
  rw [observe, List.map_map]
  rfl

/-- The visible actions alone, taken from a related state, look the same. -/
theorem Unwinding.visible_run (unwinding : m.Unwinding visible view R) {s s' t ts} (related : R s s')
    (run : m.Exec s ts t) : ∃ us u, m.Exec s' us u ∧ R t u ∧
      us.map (fun tr => (tr.action, tr.event, view tr.post)) = observe visible view ts := by
  induction run with
  | nil => exact ⟨[], s', .nil, related, rfl⟩
  | @snoc ts v a w e whole step ih =>
      obtain ⟨us, u, other, held, same⟩ := ih
      rw [observe_snoc]
      by_cases seen : visible a = true
      · obtain ⟨x, lock, held⟩ := unwinding.lockstep held seen step
        refine ⟨us ++ [⟨u, a, e, x⟩], x, other.snoc lock, held, ?_⟩
        simp [same, seen, unwinding.view_eq held]
      · rw [Bool.not_eq_true] at seen
        obtain ⟨-, held⟩ := unwinding.hidden held seen step
        exact ⟨us, u, other, held, by simpa [seen] using same⟩

theorem Exec.unique {s t t' : σ} {ts ts' : List (Transition σ α ε)} (run : m.Exec s ts t)
    (run' : m.Exec s ts' t') (same : ts.map Transition.action = ts'.map Transition.action) :
    ts = ts' ∧ t = t' := by
  induction run generalizing ts' t' with
  | nil =>
      obtain rfl : ts' = [] := List.map_eq_nil_iff.mp same.symm
      exact ⟨rfl, run'.of_nil.symm⟩
  | @snoc ts v a w e whole step ih =>
      cases run' with
      | nil => simp at same
      | @snoc us x b y d whole' step' =>
          rw [List.map_append, List.map_append] at same
          obtain ⟨before, last⟩ := List.append_inj' same rfl
          obtain ⟨rfl, rfl⟩ := ih whole' before
          obtain rfl : a = b := by simpa using last
          obtain ⟨rfl, rfl⟩ := Prod.mk.inj (Option.some.inj (step.symm.trans step'))
          exact ⟨rfl, rfl⟩

theorem Unwinding.events_eq (unwinding : m.Unwinding visible view R) {s t ts} (run : m.Exec s ts t) :
    events ts = (observe visible view ts).filterMap fun seen => seen.2.1 := by
  induction run with
  | nil => rfl
  | @snoc ts v a w e whole step ih =>
      rw [events_append, events_singleton, observe_snoc, List.filterMap_append, ← ih]
      by_cases seen : visible a = true
      · cases e <;> simp [seen]
      · rw [Bool.not_eq_true] at seen
        obtain ⟨rfl, -⟩ := unwinding.hidden (unwinding.refl v) seen step
        simp [seen]

/-- Two runs from related states with the same visible actions cannot be told
    apart, whatever hidden actions each of them takes. -/
theorem Unwinding.observe_eq (unwinding : m.Unwinding visible view R) {s s' t t' ts ts'}
    (related : R s s') (run : m.Exec s ts t) (run' : m.Exec s' ts' t')
    (same : (visibleSteps visible ts).map Transition.action =
      (visibleSteps visible ts').map Transition.action) :
    observe visible view ts = observe visible view ts' ∧ events ts = events ts' ∧
      view t = view t' := by
  obtain ⟨us, u, first, held, seen⟩ := unwinding.visible_run related run
  obtain ⟨us', u', second, held', seen'⟩ := unwinding.visible_run (unwinding.refl s') run'
  have actions : us.map Transition.action = us'.map Transition.action := by
    have left := congrArg (List.map Prod.fst) seen
    have right := congrArg (List.map Prod.fst) seen'
    rw [observe_actions, List.map_map] at left right
    exact left.trans (same.trans right.symm)
  obtain ⟨rfl, rfl⟩ := first.unique second actions
  have same := seen.symm.trans seen'
  refine ⟨same, ?_, ?_⟩
  · rw [unwinding.events_eq run, unwinding.events_eq run', same]
  · exact (unwinding.view_eq held).trans (unwinding.view_eq held').symm

end Machine
