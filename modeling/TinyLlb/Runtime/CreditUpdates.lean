import TinyLlb.Library.SharedCell
import TinyLlb.Runtime.Steps

/-! # Concurrent updates of a flow's credit

`Flow::credit` is an atomic, but both functions that change it load it, compute
and store the sum. `try_select` does so while it holds the scheduler mutex;
`report_accounting` runs in whichever task drops a guard and takes no lock.
Elsewhere in this development the two are single steps, which is what they are
when no store falls between the load and the store of another update.
-/

namespace TinyLlb

open SharedCell

/-- A call that changes the credit of the flow in question. -/
inductive CreditUpdate where
  | reportAccounting (restoreCost : I64)
  /-- A `try_select` that serves the flow. -/
  | trySelect (workUnit : F64)
  deriving DecidableEq

namespace CreditUpdate

def restoreCost : CreditUpdate → Int
  | .reportAccounting restoreCost => restoreCost
  | .trySelect _ => 0

/-- `work_unit as i64` of the selected request. -/
def workUnit : CreditUpdate → Int
  | .reportAccounting _ => 0
  | .trySelect workUnit => workUnit.asI64

def amount (u : CreditUpdate) : Int := u.restoreCost - u.workUnit

def underLock : CreditUpdate → Bool
  | .reportAccounting _ => false
  | .trySelect _ => true

def task (u : CreditUpdate) : Task := ⟨u.amount, u.underLock, .ready⟩

theorem amount_bounds (u : CreditUpdate) :
    -18446744073709551616 < u.amount ∧ u.amount < 18446744073709551616 := by
  cases u with
  | reportAccounting restoreCost =>
      obtain ⟨low, high⟩ := restoreCost.2
      simp only [amount, CreditUpdate.restoreCost, workUnit, i64Min, i64Max] at *
      omega
  | trySelect workUnit =>
      obtain ⟨low, high⟩ := workUnit.asI64_inI64
      simp only [amount, CreditUpdate.restoreCost, CreditUpdate.workUnit, i64Min, i64Max] at *
      omega

end CreditUpdate

namespace Step

variable {cfg : Config} {arith : I64Arith} {s s' : System} {action : Action} {event : Option Event}

/-- The credits a step leaves: a report adds to one, a selection takes from one,
    and nothing else touches any. -/
theorem credit_cases (step : Step cfg arith s action event s') :
    (∃ g restoreCost, action = .reportAccounting g restoreCost ∧ event = none ∧
      ∀ f, (s'.flow f).credit =
        if f = g then arith.store ((s.flow g).credit + restoreCost) else (s.flow f).credit) ∨
    (∃ selection forced, action = .trySelect ∧ event = some (.selected selection forced) ∧
      ∀ f, (s'.flow f).credit =
        if f = selection.flowId then
          arith.store ((s.flow selection.flowId).credit - selection.pending.cost)
        else (s.flow f).credit) ∨
    ((∀ g restoreCost, action ≠ .reportAccounting g restoreCost) ∧
      (∀ selection forced, event ≠ some (.selected selection forced)) ∧
      ∀ f, (s'.flow f).credit = (s.flow f).credit) := by
  have kept : ∀ (t : System) (g : FlowId) (write : Flow → Flow),
      (∀ flow, (write flow).credit = flow.credit) →
      ∀ f, ((t.modifyFlow g write).flow f).credit = (t.flow f).credit :=
    fun t g write keeps f => System.field_modifyFlow Flow.credit write keeps t g f
  cases step with
  | @reportAccounting g restoreCost =>
      refine .inl ⟨g, restoreCost, rfl, rfl, ?_⟩
      intro f
      rw [System.flow_modifyFlow]
      split <;> rfl
  | @round cap r pc spec =>
      cases selected : r.selection with
      | some selection =>
          refine .inr (.inl ⟨selection, r.forceAdmit.isSome, rfl, rfl, ?_⟩)
          intro f
          change (r.registry.getOrCreate f).credit = _
          cases spec with
          | atCap | nobody | barren => simp at selected
          | forced | regular =>
              obtain rfl := Option.some.inj selected
              rw [TrySelect.debit, FlowRegistry.getOrCreate_modify]
              split <;> rfl
      | none =>
          refine .inr (.inr ⟨by simp, by simp, ?_⟩)
          intro f
          change (r.registry.getOrCreate f).credit = _
          cases spec with
          | atCap | nobody | barren => rfl
          | forced | regular => simp at selected
  | rejected => exact .inr (.inr ⟨by simp, by simp, kept s _ _ fun _ => rfl⟩)
  | arrive => exact .inr (.inr ⟨by simp, by simp, kept s _ _ fun _ => rfl⟩)
  | @createGuard i a =>
      exact .inr (.inr ⟨by simp, by simp, kept (s.setPhase i a .atGate) _ _ fun _ => rfl⟩)
  | @stamp i a pendingId slot =>
      exact .inr (.inr ⟨by simp, by simp,
        kept (s.setPhase i a (.inQueue pendingId .stamped slot)) _ _ fun _ => rfl⟩)
  | @receive i a _ _ ticket =>
      refine .inr (.inr ⟨by simp, by simp, ?_⟩)
      intro f
      have up := kept ((s.setPhase i a (.admitted ticket)).releaseGuard a.flowId) a.flowId
        Flow.incActive (fun _ => rfl) f
      have released := kept (s.setPhase i a (.admitted ticket)) a.flowId Flow.decDepth
        (fun _ => rfl) f
      exact up.trans released
  | closeReceiver which =>
      refine .inr (.inr ⟨?_, by simp, ?_⟩)
      · intro g restoreCost
        rcases which with rfl | rfl <;> simp
      · unfold System.closeReceiver
        split
        · exact kept s _ _ fun _ => rfl
        · exact fun _ => rfl
  | @dropGuard i a pendingId =>
      refine .inr (.inr ⟨by simp, by simp, ?_⟩)
      intro f
      have cleared := kept ((s.setPhase i a .finished).releaseGuard a.flowId) a.flowId
        (fun flow => flow.setEnqueuedAt none) (fun _ => rfl) f
      have released := kept (s.setPhase i a .finished) a.flowId Flow.decDepth (fun _ => rfl) f
      exact cleared.trans released
  | dropTicket => exact .inr (.inr ⟨by simp, by simp, kept s _ _ fun _ => rfl⟩)
  | register => exact .inr (.inr ⟨by simp, by simp, kept s _ _ fun _ => rfl⟩)
  | setPriority => exact .inr (.inr ⟨by simp, by simp, kept s _ _ fun _ => rfl⟩)
  | _ => exact .inr (.inr ⟨by simp, by simp, fun _ => rfl⟩)

end Step

/-- The credit of one flow, with the calls that are about to change it. -/
def CreditUpdate.start (initial : I64) (updates : List CreditUpdate) : State :=
  ⟨initial, updates.map CreditUpdate.task⟩

def creditCell (arith : I64Arith) (initial : I64) (updates : List CreditUpdate) :
    Machine State Access Empty :=
  machine arith.store (CreditUpdate.start initial updates)

/-- What the calls should leave: every restore added, every work unit taken. -/
def CreditUpdate.balance (arith : I64Arith) (initial : I64) (updates : List CreditUpdate) : Int :=
  arith.store (initial + Slots.total CreditUpdate.restoreCost updates -
    Slots.total CreditUpdate.workUnit updates)

section

variable {arith : I64Arith} {initial : I64} {updates : List CreditUpdate} {s s' : State}

theorem due_start (initial : I64) (updates : List CreditUpdate) :
    (CreditUpdate.start initial updates).due =
      Slots.total CreditUpdate.restoreCost updates - Slots.total CreditUpdate.workUnit updates := by
  induction updates with
  | nil => rfl
  | cons u rest ih =>
      simp only [CreditUpdate.start, State.due, List.map_cons, Slots.total_cons] at ih ⊢
      rw [ih]
      change u.amount + _ = _
      unfold CreditUpdate.amount
      omega

theorem pc_start : ∀ t ∈ (CreditUpdate.start initial updates).tasks, t.pc = .ready := by
  intro t member
  obtain ⟨u, -, rfl⟩ := List.mem_map.mp member
  rfl

/-- A step that updates the credit of a flow leaves it as the load and the store
    of that update do when nothing comes between them. -/
theorem Step.credit_alone {cfg : Config} {t t' : System} {action : Action} {event : Option Event}
    (step : Step cfg arith t action event t') {f : FlowId} {u : CreditUpdate} {rest : State}
    (cell : rest.cell = (t.flow f).credit)
    (which : (∃ restoreCost, u = .reportAccounting restoreCost ∧
        action = .reportAccounting f restoreCost) ∨
      ∃ selection forced, u = .trySelect selection.pending.workUnit ∧ selection.flowId = f ∧
        event = some (.selected selection forced)) (i : Nat) :
    (t'.flow f).credit = (rest.alone arith.store i u.task).cell := by
  change _ = arith.store (rest.cell + u.amount)
  rw [cell]
  rcases which with ⟨restoreCost, rfl, rfl⟩ | ⟨selection, forced, rfl, rfl, rfl⟩
  · rcases step.credit_cases with ⟨g, r, same, -, credit⟩ | ⟨_, _, same, -⟩ | ⟨other, -⟩
    · obtain ⟨rfl, rfl⟩ := Action.reportAccounting.inj same
      rw [credit, if_pos rfl]
      simp [CreditUpdate.amount, CreditUpdate.restoreCost, CreditUpdate.workUnit]
    · cases same
    · exact absurd rfl (other _ _)
  · rcases step.credit_cases with ⟨g, r, -, same, -⟩ | ⟨_, _, -, same, credit⟩ | ⟨-, other, -⟩
    · cases same
    · obtain ⟨rfl, -⟩ := Event.selected.inj (Option.some.inj same)
      rw [credit, if_pos rfl]
      simp [CreditUpdate.amount, CreditUpdate.restoreCost, CreditUpdate.workUnit, Pending.cost,
        sub_eq_add_neg]
    · exact absurd rfl (other _ _)

/-- No two of the tasks can be between their load and their store. -/
structure Solo (s : State) : Prop where
  apart : (∀ t ∈ s.tasks, t.exclusive = true) ∨ s.tasks.length ≤ 1
  lone : ∀ (i j : Nat) (t u : Task), s.tasks[i]? = some t → s.tasks[j]? = some u →
    t.isLoaded = true → u.isLoaded = true → i = j
  current : ∀ t ∈ s.tasks, ∀ value, t.pc = .loaded value → s.cell = value

theorem Solo.apart_setPc (solo : Solo s) {i : Nat} {t : Task} (found : s.tasks[i]? = some t)
    (pc : Pc) : (∀ u ∈ (s.setPc i t pc).tasks, u.exclusive = true) ∨
      (s.setPc i t pc).tasks.length ≤ 1 := by
  cases solo.apart with
  | inl exclusive =>
      left
      intro u member
      rcases List.mem_or_eq_of_mem_set member with old | rfl
      · exact exclusive u old
      · exact exclusive t (List.mem_of_getElem? found)
  | inr short =>
      right
      simpa [State.setPc] using short

theorem Solo.next {a : Access} (solo : Solo s) (step : SharedCell.Step arith.store s a s') : Solo s' := by
  cases step with
  | @load i t found ready free =>
      -- Whoever loads finds nobody else between a load and a store.
      have nobody : ∀ (j : Nat) (u : Task), s.tasks[j]? = some u → u.isLoaded = true → j = i := by
        intro j u foundU loaded
        cases solo.apart with
        | inl exclusive =>
            have unlocked := free (exclusive t (List.mem_of_getElem? found))
            simp only [State.locked, List.any_eq_false, Bool.and_eq_true, not_and] at unlocked
            have member := List.mem_of_getElem? foundU
            exact absurd loaded (unlocked u member (exclusive u member))
        | inr short =>
            obtain ⟨boundI, -⟩ := List.getElem?_eq_some_iff.mp found
            obtain ⟨boundJ, -⟩ := List.getElem?_eq_some_iff.mp foundU
            omega
      refine ⟨solo.apart_setPc found _, ?_, ?_⟩
      · have only : ∀ (j : Nat) (u : Task),
            (s.setPc i t (.loaded s.cell)).tasks[j]? = some u → u.isLoaded = true → j = i := by
          intro j u foundU loaded
          rw [getElem?_setPc found] at foundU
          split at foundU
          · assumption
          · exact nobody j u foundU loaded
        intro j k u v foundU foundV loadedU loadedV
        exact (only j u foundU loadedU).trans (only k v foundV loadedV).symm
      · intro u member value loaded
        rcases List.mem_or_eq_of_mem_set member with old | rfl
        · exact solo.current u old value loaded
        · exact Pc.loaded.inj loaded
  | @store i t value found loaded =>
      have gone : ∀ (j : Nat) (u : Task), (s.setPc i t .finished).tasks[j]? = some u →
          u.isLoaded = false := by
        intro j u foundU
        rw [getElem?_setPc found] at foundU
        split at foundU
        · obtain rfl := Option.some.inj foundU
          rfl
        · rename_i other
          by_contra between
          have loadedT : t.isLoaded = true := by simp [Task.isLoaded, loaded]
          exact other (solo.lone j i u t foundU found (by simpa using between) loadedT)
      refine ⟨solo.apart_setPc found _, ?_, ?_⟩
      · intro j k u v foundU _ loadedU
        exact absurd loadedU (by simp [gone j u foundU])
      · intro u member v loadedU
        obtain ⟨j, foundU⟩ := List.getElem?_of_mem member
        have idle := gone j u foundU
        simp [Task.isLoaded, loadedU] at idle

theorem Solo.start (apart : (∀ u ∈ updates, u.underLock = true) ∨ updates.length ≤ 1) :
    Solo (CreditUpdate.start initial updates) := by
  refine ⟨?_, ?_, ?_⟩
  · cases apart with
    | inl locked =>
        left
        intro t member
        obtain ⟨u, inside, rfl⟩ := List.mem_map.mp member
        exact locked u inside
    | inr short =>
        right
        simpa [CreditUpdate.start] using short
  · intro i j t u foundT _ loadedT
    have idle := pc_start t (List.mem_of_getElem? foundT)
    simp [Task.isLoaded, idle] at loadedT
  · intro t member value loaded
    rw [pc_start t member] at loaded
    cases loaded

/-- Nothing is added anywhere. -/
structure Unmoved (initial : I64) (s : State) : Prop where
  cell : s.cell = initial
  amounts : ∀ t ∈ s.tasks, t.amount = 0
  loaded : ∀ t ∈ s.tasks, ∀ value, t.pc = .loaded value → value = initial

theorem Unmoved.next {a : Access} (unmoved : Unmoved initial s)
    (step : SharedCell.Step arith.store s a s') :
    Unmoved initial s' := by
  cases step with
  | @load i t found ready =>
      refine ⟨unmoved.cell, ?_, ?_⟩
      · intro u member
        rcases List.mem_or_eq_of_mem_set member with old | rfl
        · exact unmoved.amounts u old
        · exact unmoved.amounts t (List.mem_of_getElem? found)
      · intro u member value loaded
        rcases List.mem_or_eq_of_mem_set member with old | rfl
        · exact unmoved.loaded u old value loaded
        · exact (Pc.loaded.inj loaded).symm.trans unmoved.cell
  | @store i t value found loaded =>
      have inside := List.mem_of_getElem? found
      refine ⟨?_, ?_, ?_⟩
      · change arith.store (value + t.amount) = initial
        rw [unmoved.amounts t inside, unmoved.loaded t inside value loaded, Int.add_zero]
        exact arith.store_of_inI64 initial.2
      · intro u member
        rcases List.mem_or_eq_of_mem_set member with old | rfl
        · exact unmoved.amounts u old
        · exact unmoved.amounts t inside
      · intro u member v loadedU
        rcases List.mem_or_eq_of_mem_set member with old | rfl
        · exact unmoved.loaded u old v loadedU
        · cases loadedU

theorem Unmoved.start (still : ∀ u ∈ updates, u.amount = 0) :
    Unmoved initial (CreditUpdate.start initial updates) := by
  refine ⟨rfl, ?_, ?_⟩
  · intro t member
    obtain ⟨u, inside, rfl⟩ := List.mem_map.mp member
    exact still u inside
  · intro t member value loaded
    rw [pc_start t member] at loaded
    cases loaded

theorem stored_cell {ts} (run : (creditCell arith initial updates).Exec
    (CreditUpdate.start initial updates) ts s) : arith.store s.cell = s.cell := by
  refine run.invariant (I := fun t => arith.store t.cell = t.cell) ?_ ?_
  · exact arith.store_of_inI64 initial.2
  · intro v a w e held step
    cases step_of_next step with
    | load => exact held
    | store => exact arith.store_store _

theorem balance_of_undisturbed {ts} (run : (creditCell arith initial updates).Exec
    (CreditUpdate.start initial updates) ts s) (finished : s.Finished)
    (clean : ∀ tr ∈ ts, Undisturbed tr) :
    s.cell = CreditUpdate.balance arith initial updates := by
  have conserved := conserved_of_undisturbed arith.store_store_add run clean
  rw [due_of_finished finished, Int.add_zero, stored_cell run, due_start] at conserved
  rw [conserved, CreditUpdate.balance]
  congr 1
  change (initial : Int) + _ = _
  omega

/-- Where no second call can come between, or none changes the cell, every store
    finds the value its task has loaded. -/
theorem undisturbed_of_run {ts} (run : (creditCell arith initial updates).Exec
    (CreditUpdate.start initial updates) ts s)
    (condition : (∀ u ∈ updates, u.underLock = true) ∨ updates.length ≤ 1 ∨
      ∀ u ∈ updates, u.amount = 0) :
    ∀ tr ∈ ts, Undisturbed tr := by
  intro tr member i t value action found loaded
  obtain ⟨before, after, rfl, first, -⟩ := run.split_of_mem member
  have inside := List.mem_of_getElem? found
  rcases or_assoc.mpr condition with apart | still
  · have solo := first.invariant (I := Solo) (Solo.start apart)
      fun held step => held.next (step_of_next step)
    exact solo.current t inside value loaded
  · have unmoved := first.invariant (I := Unmoved initial) (Unmoved.start still)
      fun held step => held.next (step_of_next step)
    rw [unmoved.cell, unmoved.loaded t inside value loaded]

/-- Among several calls of which one takes no lock, every call has another one
    that the mutex does not keep apart from it. -/
theorem exists_concurrent {x : Nat} {lost report : CreditUpdate} (foundX : updates[x]? = some lost)
    (inside : report ∈ updates) (unlocked : report.underLock = false)
    (several : 1 < updates.length) :
    ∃ (y : Nat) (u : CreditUpdate), updates[y]? = some u ∧ x ≠ y ∧
      ¬ (lost.underLock = true ∧ u.underLock = true) := by
  obtain ⟨r, foundR⟩ := List.getElem?_of_mem inside
  by_cases same : x = r
  · obtain rfl : lost = report := by
      rw [same, foundR, Option.some.injEq] at foundX
      exact foundX.symm
    have other : ∃ y, y < updates.length ∧ x ≠ y := by
      cases x with
      | zero => exact ⟨1, several, Nat.zero_ne_one⟩
      | succ k => exact ⟨0, by omega, Nat.succ_ne_zero k⟩
    obtain ⟨y, bound, apart⟩ := other
    exact ⟨y, _, List.getElem?_eq_getElem bound, apart, by simp [unlocked]⟩
  · exact ⟨r, report, foundR, same, by simp [unlocked]⟩

/-- An update that another call can run beside is lost in some complete run. -/
theorem exists_lost_update (arith : I64Arith) (initial : I64) {x y : Nat} {lost u : CreditUpdate}
    (foundX : updates[x]? = some lost) (foundY : updates[y]? = some u) (apart : x ≠ y)
    (free : ¬ (lost.underLock = true ∧ u.underLock = true)) :
    ∃ ts s, (creditCell arith initial updates).Exec (CreditUpdate.start initial updates) ts s ∧
      s.Finished ∧ arith.store (s.cell + lost.amount) = CreditUpdate.balance arith initial updates := by
  have taskX : (CreditUpdate.start initial updates).tasks[x]? = some lost.task := by
    simp [CreditUpdate.start, foundX]
  have taskY : (CreditUpdate.start initial updates).tasks[y]? = some u.task := by
    simp [CreditUpdate.start, foundY]
  obtain ⟨ts, s, run, finished, cell⟩ := exists_loss arith.store_store_add
    (CreditUpdate.start initial updates) taskX taskY apart pc_start free
  refine ⟨ts, s, run, finished, ?_⟩
  rw [stored_cell run, due_start] at cell
  rw [cell, arith.store_store_add, CreditUpdate.balance]
  congr 1
  change (initial : Int) + _ - lost.amount + lost.amount = _
  omega

end

/-- Whatever way the calls interleave, the credit ends as the initial value plus
    all restores minus all work units, exactly when the calls are all selections
    (which the mutex keeps apart), or there is only one, or none changes it. -/
theorem credit_updates (arith : I64Arith) (initial : I64) (updates : List CreditUpdate) :
    (∀ ts s, (creditCell arith initial updates).Exec (CreditUpdate.start initial updates) ts s →
      s.Finished → s.cell = CreditUpdate.balance arith initial updates) ↔
    (∀ u ∈ updates, u.underLock = true) ∨ updates.length ≤ 1 ∨ ∀ u ∈ updates, u.amount = 0 := by
  constructor
  · intro kept
    by_contra fails
    simp only [not_or, not_forall, not_le, Bool.not_eq_true] at fails
    obtain ⟨⟨report, inReport, unlocked⟩, several, ⟨lost, inLost, moves⟩⟩ := fails
    obtain ⟨x, foundX⟩ := List.getElem?_of_mem inLost
    obtain ⟨y, u, foundY, apart, free⟩ := exists_concurrent foundX inReport unlocked several
    obtain ⟨ts, s, run, finished, short⟩ :=
      exists_lost_update arith initial foundX foundY apart free
    -- The run ends in the balance and still lacks the lost amount, which is then zero.
    rw [← kept ts s run finished] at short
    apply moves
    refine arith.eq_zero_of_store_add (a := s.cell) lost.amount_bounds ?_
    rw [short, stored_cell run]
  · intro condition ts s run finished
    exact balance_of_undisturbed run finished (undisturbed_of_run run condition)

/-- A guard reports a restore of 100 while a request of 40 is being selected:
    the restore is stored over. -/
theorem credit_update_lost :
    let updates : List CreditUpdate := [.reportAccounting ⟨100, by decide⟩, .trySelect (.fin 40)]
    let m := creditCell .wrapping ⟨0, by decide⟩ updates
    let accesses : List Access := [.load 1, .load 0, .store 0, .store 1]
    m.Exec m.start (m.trace accesses) (m.after accesses) ∧ (m.after accesses).Finished ∧
      (m.after accesses).cell = -40 ∧
      CreditUpdate.balance .wrapping ⟨0, by decide⟩ updates = 60 :=
  ⟨Machine.exec_after _ _, by decide +kernel, by decide +kernel, by decide +kernel⟩

end TinyLlb
