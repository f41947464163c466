import TinyLlb.Library.Machine
import TinyLlb.Library.Slots

/-! # A cell updated by a load and a store

Tasks add amounts to one shared cell, but each reads the cell in one step and
writes the sum back in another. Exclusive tasks hold a common lock from their
load to their store; the others take no lock. An update is lost when the cell
changes between the two steps of another task. `norm` is how the cell stores a
sum (the identity, or a reduction to a word).
-/

namespace SharedCell

inductive Pc where
  | ready
  | loaded (value : Int)
  | finished
  deriving DecidableEq

structure Task where
  amount : Int
  exclusive : Bool
  pc : Pc
  deriving DecidableEq

structure State where
  cell : Int
  tasks : List Task

inductive Access where
  | load (i : Nat)
  | store (i : Nat)
  deriving DecidableEq

def Task.isReady (t : Task) : Bool := t.pc = .ready

/-- The task is between its load and its store. -/
def Task.isLoaded (t : Task) : Bool :=
  match t.pc with
  | .loaded _ => true
  | _ => false

/-- The common lock is taken. -/
def State.locked (s : State) : Bool := s.tasks.any fun t => t.exclusive && t.isLoaded

def State.setPc (s : State) (i : Nat) (t : Task) (pc : Pc) : State :=
  { s with tasks := s.tasks.set i { t with pc } }

variable (norm : Int → Int)

def next (s : State) : Access → Option (State × Option Empty)
  | .load i => do
      let t ← s.tasks[i]?
      match t.pc with
      | .ready =>
          if t.exclusive && s.locked then none else some (s.setPc i t (.loaded s.cell), none)
      | _ => none
  | .store i => do
      let t ← s.tasks[i]?
      match t.pc with
      | .loaded value =>
          some ({ s.setPc i t .finished with cell := norm (value + t.amount) }, none)
      | _ => none

def machine (start : State) : Machine State Access Empty := { start, next := next norm }

def State.Finished (s : State) : Prop := ∀ t ∈ s.tasks, t.pc = .finished

instance (s : State) : Decidable s.Finished :=
  inferInstanceAs (Decidable (∀ t ∈ s.tasks, t.pc = .finished))

/-- What the task has still to add. -/
def Task.due (t : Task) : Int :=
  match t.pc with
  | .finished => 0
  | _ => t.amount

def State.due (s : State) : Int := Slots.total Task.due s.tasks

/-- A store finds the cell as its task loaded it. -/
def Undisturbed (tr : Transition State Access Empty) : Prop :=
  ∀ i t value, tr.action = .store i → tr.pre.tasks[i]? = some t → t.pc = .loaded value →
    tr.pre.cell = value

inductive Step (s : State) : Access → State → Prop where
  | load {i t} (found : s.tasks[i]? = some t) (ready : t.pc = .ready)
      (free : t.exclusive = true → s.locked = false) :
      Step s (.load i) (s.setPc i t (.loaded s.cell))
  | store {i t value} (found : s.tasks[i]? = some t) (loaded : t.pc = .loaded value) :
      Step s (.store i) { s.setPc i t .finished with cell := norm (value + t.amount) }

variable {norm} {s s' : State} {a : Access} {e : Option Empty}

theorem step_of_next (h : next norm s a = some (s', e)) : Step norm s a s' := by
  cases a with
  | load i =>
      obtain ⟨t, found, h⟩ := Option.bind_eq_some_iff.mp h
      split at h
      · rename_i ready
        split at h
        · cases h
        · rename_i free
          cases h
          apply Step.load found ready
          intro exclusive
          simpa [exclusive] using free
      · cases h
  | store i =>
      obtain ⟨t, found, h⟩ := Option.bind_eq_some_iff.mp h
      split at h
      · cases h
        exact .store found ‹_›
      · cases h

theorem next_load (norm : Int → Int) (start : State) {i : Nat} {t : Task}
    (found : s.tasks[i]? = some t) (ready : t.pc = .ready)
    (free : t.exclusive = true → s.locked = false) :
    (machine norm start).next s (.load i) = some (s.setPc i t (.loaded s.cell), none) := by
  have enabled : (t.exclusive && s.locked) = false := by
    cases exclusive : t.exclusive with
    | false => rfl
    | true => simpa using free exclusive
  simp only [machine, next, found, Option.bind_eq_bind, Option.bind_some, ready, enabled,
    Bool.false_eq_true, if_false]

theorem next_store (norm : Int → Int) (start : State) {i : Nat} {t : Task} {value : Int}
    (found : s.tasks[i]? = some t) (loaded : t.pc = .loaded value) :
    (machine norm start).next s (.store i) =
      some ({ s.setPc i t .finished with cell := norm (value + t.amount) }, none) := by
  simp [machine, next, found, loaded]

theorem due_setPc {i : Nat} {t : Task} (found : s.tasks[i]? = some t) (pc : Pc) :
    (s.setPc i t pc).due = s.due - t.due + Task.due { t with pc } :=
  Slots.total_set found _ _

section

variable (law : ∀ a b, norm (norm a + b) = norm (a + b))
include law

theorem Step.conserved (step : Step norm s a s') (clean : Undisturbed ⟨s, a, e, s'⟩) :
    norm (s'.cell + s'.due) = norm (s.cell + s.due) := by
  cases step with
  | @load i t found ready =>
      have due := due_setPc found (.loaded s.cell)
      have same : Task.due { t with pc := .loaded s.cell } = t.due := by
        simp [Task.due, ready]
      have cell : (s.setPc i t (.loaded s.cell)).cell = s.cell := rfl
      rw [cell, due, same, Int.sub_add_cancel]
  | @store i t value found loaded =>
      have due := due_setPc found .finished
      have same : s.cell = value := clean i t value rfl found loaded
      have owed : t.due = t.amount := by simp [Task.due, loaded]
      have settled : Task.due { t with pc := .finished } = 0 := rfl
      change norm (norm (value + t.amount) + (s.setPc i t .finished).due) = _
      rw [due, owed, settled, law, ← same]
      congr 1
      omega

/-- No update is lost in a run whose stores all find what was loaded. -/
theorem conserved_of_undisturbed {start : State} {ts}
    (run : (machine norm start).Exec start ts s) (clean : ∀ tr ∈ ts, Undisturbed tr) :
    norm (s.cell + s.due) = norm (start.cell + start.due) := by
  refine run.invariant_within clean (I := fun t => norm (t.cell + t.due) = _) rfl ?_
  intro v b w e held undisturbed step
  rw [← held]
  exact (step_of_next step).conserved law undisturbed

end

theorem due_of_finished (finished : s.Finished) : s.due = 0 := by
  have zero : Slots.total Task.due s.tasks = Slots.total (fun _ => 0) s.tasks := by
    apply Slots.total_congr
    intro t member
    simp [Task.due, finished t member]
  rw [State.due, zero]
  induction s.tasks with
  | nil => rfl
  | cons t rest ih => simpa using ih

def State.Idle (s : State) : Prop := ∀ t ∈ s.tasks, t.isLoaded = false

theorem State.Idle.unlocked (idle : s.Idle) : s.locked = false := by
  simp only [State.locked, List.any_eq_false, Bool.and_eq_true, not_and, Bool.not_eq_true]
  exact fun t member _ => idle t member

theorem getElem?_setPc {i : Nat} {t : Task} (found : s.tasks[i]? = some t) (pc : Pc) (j : Nat) :
    (s.setPc i t pc).tasks[j]? = if j = i then some { t with pc } else s.tasks[j]? :=
  Slots.getElem?_set found _ j

/-- The state after task `i` has run from its load to its store with nobody in
    between. -/
def State.alone (norm : Int → Int) (s : State) (i : Nat) (t : Task) : State :=
  { s.setPc i t .finished with cell := norm (s.cell + t.amount) }

theorem exec_alone (norm : Int → Int) (start : State) {i : Nat} {t : Task}
    (found : s.tasks[i]? = some t) (ready : t.pc = .ready)
    (free : t.exclusive = true → s.locked = false) :
    ∃ ts, (machine norm start).Exec s ts (s.alone norm i t) := by
  have load := next_load norm start found ready free
  have foundLoaded : (s.setPc i t (.loaded s.cell)).tasks[i]? =
      some { t with pc := .loaded s.cell } := by
    rw [getElem?_setPc found, if_pos rfl]
  have store := next_store norm start foundLoaded rfl
  have whole := Machine.Exec.cons load (.single store)
  simp only [State.setPc, List.set_set] at whole
  exact ⟨_, whole⟩

/-- One task runs to its end between the load and the store of another, which
    then stores over it. -/
theorem exec_overlap (norm : Int → Int) (start : State) {x y : Nat} {tx ty : Task} (idle : s.Idle)
    (foundX : s.tasks[x]? = some tx) (foundY : s.tasks[y]? = some ty) (apart : x ≠ y)
    (readyX : tx.pc = .ready) (readyY : ty.pc = .ready)
    (free : ¬ (tx.exclusive = true ∧ ty.exclusive = true)) :
    ∃ ts u, (machine norm start).Exec s ts u ∧ u.Idle ∧
      u.cell = norm (s.cell + ty.amount) ∧ u.due = s.due - tx.amount - ty.amount := by
  have loadY := next_load norm start foundY readyY fun _ => idle.unlocked
  let s1 := s.setPc y ty (.loaded s.cell)
  have foundX1 : s1.tasks[x]? = some tx := by
    rw [getElem?_setPc foundY, if_neg apart, foundX]
  have freeX : tx.exclusive = true → s1.locked = false := by
    intro exclusive
    have shared : ty.exclusive = false := by
      by_contra other
      exact free ⟨exclusive, by simpa using other⟩
    simp only [State.locked, List.any_eq_false, Bool.and_eq_true, not_and, Bool.not_eq_true]
    intro t member
    rcases List.mem_or_eq_of_mem_set member with old | rfl
    · exact fun _ => idle t old
    · simp [shared]
  obtain ⟨ts, ranX⟩ := exec_alone norm start foundX1 readyX freeX
  let s2 := s1.alone norm x tx
  have foundY2 : s2.tasks[y]? = some { ty with pc := .loaded s.cell } := by
    have late := getElem?_setPc foundX1 .finished y
    rw [if_neg apart.symm, getElem?_setPc foundY, if_pos rfl] at late
    exact late
  have storeY := next_store norm start foundY2 rfl
  refine ⟨_, _, .cons loadY (ranX.trans (.single storeY)), ?_, rfl, ?_⟩
  · intro t member
    obtain ⟨k, found⟩ := List.getElem?_of_mem member
    change (s2.setPc y _ .finished).tasks[k]? = some t at found
    rw [getElem?_setPc foundY2] at found
    split at found
    · obtain rfl := Option.some.inj found
      rfl
    · rename_i notY
      change (s1.setPc x tx .finished).tasks[k]? = some t at found
      rw [getElem?_setPc foundX1] at found
      split at found
      · obtain rfl := Option.some.inj found
        rfl
      · rw [getElem?_setPc foundY, if_neg notY] at found
        exact idle t (List.mem_of_getElem? found)
  · have last := due_setPc foundY2 .finished
    have second := due_setPc foundX1 .finished
    have first := due_setPc foundY (.loaded s.cell)
    change s2.due = _ at second
    change s1.due = _ at first
    simp only [Task.due, readyX, readyY] at last second first
    change (s2.setPc y _ .finished).due = _
    omega

section

variable (law : ∀ a b, norm (norm a + b) = norm (a + b))
include law

theorem exists_completion (start : State) {s : State} (idle : s.Idle) :
    ∃ ts t, (machine norm start).Exec s ts t ∧ t.Finished ∧
      norm t.cell = norm (s.cell + s.due) := by
  -- By the number of tasks that have not started.
  induction count : s.tasks.countP Task.isReady generalizing s with
  | zero =>
      have finished : s.Finished := by
        intro t member
        have waiting := List.countP_eq_zero.mp count t member
        have between := idle t member
        cases pc : t.pc <;> simp [Task.isReady, Task.isLoaded, pc] at waiting between ⊢
      exact ⟨[], s, .nil, finished, by simp [due_of_finished finished]⟩
  | succ n ih =>
      obtain ⟨t, member, ready⟩ := List.countP_pos_iff.mp (by rw [count]; exact Nat.succ_pos n)
      obtain ⟨i, found⟩ := List.getElem?_of_mem member
      have ready : t.pc = .ready := by simpa [Task.isReady] using ready
      obtain ⟨first, ran⟩ := exec_alone norm start found ready fun _ => idle.unlocked
      let u := s.alone norm i t
      have tasks : u.tasks = s.tasks.set i { t with pc := .finished } := rfl
      have idle' : u.Idle := by
        intro r inU
        rw [tasks] at inU
        rcases List.mem_or_eq_of_mem_set inU with old | rfl
        · exact idle r old
        · rfl
      have fewer : u.tasks.countP Task.isReady = n := by
        have moved := Slots.countP_set found { t with pc := .finished } Task.isReady
        rw [← tasks] at moved
        simp only [Task.isReady, ready, decide_true, if_true, reduceCtorEq, decide_false,
          Bool.false_eq_true, if_false, Nat.add_zero] at moved
        omega
      obtain ⟨ts, v, run, finished, cell⟩ := ih idle' fewer
      refine ⟨_, v, ran.trans run, finished, ?_⟩
      have due : u.due = s.due - t.amount := by
        unfold State.due
        rw [tasks, Slots.total_set found]
        simp [Task.due, ready]
      rw [cell, due]
      change norm (norm (s.cell + t.amount) + (s.due - t.amount)) = _
      rw [law]
      congr 1
      omega

/-- Two tasks that do not exclude each other can overlap so that one is lost. -/
theorem exists_loss (start : State) {x y : Nat} {tx ty : Task}
    (foundX : start.tasks[x]? = some tx) (foundY : start.tasks[y]? = some ty) (apart : x ≠ y)
    (fresh : ∀ t ∈ start.tasks, t.pc = .ready) (free : ¬ (tx.exclusive = true ∧ ty.exclusive = true)) :
    ∃ ts s, (machine norm start).Exec start ts s ∧ s.Finished ∧
      norm s.cell = norm (start.cell + start.due - tx.amount) := by
  have readyX := fresh tx (List.mem_of_getElem? foundX)
  have readyY := fresh ty (List.mem_of_getElem? foundY)
  have idle : start.Idle := by
    intro t member
    simp [Task.isLoaded, fresh t member]
  obtain ⟨first, u, overlap, idle', lost, due⟩ :=
    exec_overlap norm start idle foundX foundY apart readyX readyY free
  obtain ⟨rest, t, run, finished, cell⟩ := exists_completion law start idle'
  refine ⟨_, t, overlap.trans run, finished, ?_⟩
  rw [cell, lost, due, law]
  congr 1
  omega

end

end SharedCell
