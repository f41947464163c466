import Mathlib.Data.Finset.Card
import Mathlib.Logic.Function.Basic
import TinyLlb.Library.Machine

/-! # A server with lines

Customers of several classes stand in one line for each class. The server takes
the head of a line while fewer than a fixed number are being served; a customer
may also give up while it waits, or never join. Nothing is said about which line
is next: this is what every discipline that serves its lines in order agrees on.
-/

namespace Server

/-- What customer `i`, of class `k`, does or has done to it. -/
inductive Move (κ ι : Type*) where
  | balk (i : ι)
  | join (k : κ) (i : ι)
  | grant (k : κ) (i : ι)
  | withdraw (k : κ) (i : ι)
  | leave (i : ι)
  deriving DecidableEq

inductive Place where
  | outside
  | waiting
  | served
  | gone
  deriving DecidableEq

@[ext]
structure State (κ ι : Type*) where
  line : κ → List ι
  place : ι → Place
  busy : Nat

variable {κ ι : Type*}

def Move.customer : Move κ ι → ι
  | .balk i | .join _ i | .grant _ i | .withdraw _ i | .leave i => i

namespace State

variable [DecidableEq κ] [DecidableEq ι]

def start : State κ ι := { line := fun _ => [], place := fun _ => .outside, busy := 0 }

def put (s : State κ ι) (i : ι) (place : Place) : State κ ι :=
  { s with place := Function.update s.place i place }

def setLine (s : State κ ι) (k : κ) (line : List ι) : State κ ι :=
  { s with line := Function.update s.line k line }

end State

open State in
/-- One move, where the rules allow it. -/
def next [DecidableEq κ] [DecidableEq ι] (limit : Nat) (s : State κ ι) : Move κ ι → Option (State κ ι)
  | .balk i => if s.place i = .outside then some (s.put i .gone) else none
  | .join k i =>
      if s.place i = .outside then some ((s.put i .waiting).setLine k (s.line k ++ [i])) else none
  | .grant k i =>
      if s.line k = i :: (s.line k).tail ∧ s.busy < limit then
        some { (s.put i .served).setLine k (s.line k).tail with busy := s.busy + 1 }
      else none
  | .withdraw k i =>
      if i ∈ s.line k then some ((s.put i .gone).setLine k ((s.line k).filter (· ≠ i))) else none
  | .leave i =>
      if s.place i = .served then some { s.put i .gone with busy := s.busy - 1 } else none

/-- The server as a machine that shows its moves. -/
def machine (κ ι : Type*) [DecidableEq κ] [DecidableEq ι] (limit : Nat) :
    Machine (State κ ι) (Move κ ι) (Move κ ι) :=
  { start := State.start, next := fun s move => (next limit s move).map (·, some move) }

section

variable [DecidableEq κ] [DecidableEq ι]

def lifeOf (i : ι) (history : List (Move κ ι)) : List (Move κ ι) :=
  history.filter fun move => decide (move.customer = i)

def joinsOf (k : κ) (history : List (Move κ ι)) : List ι :=
  history.filterMap fun
    | .join l i => if l = k then some i else none
    | _ => none

def grantsOf (k : κ) (history : List (Move κ ι)) : List ι :=
  history.filterMap fun
    | .grant l i => if l = k then some i else none
    | _ => none

def Move.isGrant : Move κ ι → Bool
  | .grant _ _ => true
  | _ => false

def Move.isLeave : Move κ ι → Bool
  | .leave _ => true
  | _ => false

/-- The lives a customer can have led when it is found at a place. -/
inductive Life (i : ι) : Place → List (Move κ ι) → Prop where
  | outside : Life i .outside []
  | balked : Life i .gone [.balk i]
  | waiting (k : κ) : Life i .waiting [.join k i]
  | withdrawn (k : κ) : Life i .gone [.join k i, .withdraw k i]
  | served (k : κ) : Life i .served [.join k i, .grant k i]
  | left (k : κ) : Life i .gone [.join k i, .grant k i, .leave i]

/-- What a state and the history that led to it say about each other. -/
structure Account (limit : Nat) (s : State κ ι) (history : List (Move κ ι)) : Prop where
  life : ∀ i, Life i (s.place i) (lifeOf i history)
  line : ∀ k, ∀ i ∈ s.line k, s.place i = .waiting ∧ lifeOf i history = [.join k i]
  nodup : ∀ k, (s.line k).Nodup
  fifo : ∀ k, (grantsOf k history ++ s.line k).Sublist (joinsOf k history)
  balance : history.countP Move.isGrant = history.countP Move.isLeave + s.busy
  room : s.busy ≤ limit
  served : ∃ inService : Finset ι, (∀ i, s.place i = .served ↔ i ∈ inService) ∧
    inService.card = s.busy

variable {limit : Nat} {s t : State κ ι} {history : List (Move κ ι)} {move : Move κ ι}

omit [DecidableEq κ] in
theorem lifeOf_append (i : ι) (before after : List (Move κ ι)) :
    lifeOf i (before ++ after) = lifeOf i before ++ lifeOf i after := List.filter_append ..

omit [DecidableEq κ] in
theorem lifeOf_own (move : Move κ ι) : lifeOf move.customer [move] = [move] := by
  simp [lifeOf]

omit [DecidableEq κ] in
theorem lifeOf_other {i : ι} (other : i ≠ move.customer) : lifeOf i [move] = [] := by
  simp [lifeOf, other.symm]

omit [DecidableEq κ] [DecidableEq ι] in
theorem Life.eq_of_outside {i : ι} {life : List (Move κ ι)} (lives : Life i .outside life) :
    life = [] := by
  cases lives
  rfl

omit [DecidableEq κ] [DecidableEq ι] in
theorem Life.eq_of_served {i : ι} {life : List (Move κ ι)} (lives : Life i .served life) :
    ∃ k, life = [.join k i, .grant k i] := by
  cases lives with
  | served k => exact ⟨k, rfl⟩

namespace Account

theorem start (limit : Nat) : Account limit (State.start : State κ ι) [] where
  life := fun _ => .outside
  line := by simp [State.start]
  nodup := by simp [State.start]
  fifo := by simp [State.start, grantsOf]
  balance := rfl
  room := Nat.zero_le _
  served := ⟨∅, by simp [State.start], rfl⟩

theorem line_unique (account : Account limit s history) {k l : κ} {i : ι} (inK : i ∈ s.line k)
    (inL : i ∈ s.line l) : k = l := by
  have first := (account.line k i inK).2
  rw [(account.line l i inL).2] at first
  simpa using first.symm

theorem life_next (account : Account limit s history) {i : ι} (mine : move.customer = i)
    {place : Place} (place_eq : t.place = Function.update s.place i place) {past : List (Move κ ι)}
    (lived : lifeOf i history = past) (own : Life i place (past ++ [move])) (j : ι) :
    Life j (t.place j) (lifeOf j (history ++ [move])) := by
  subst lived
  rw [lifeOf_append, place_eq]
  by_cases same : j = i
  · subst j
    have last := lifeOf_own move
    rw [mine] at last
    rw [Function.update_self, last]
    exact own
  · have last : lifeOf j [move] = [] := lifeOf_other (by rw [mine]; exact same)
    rw [Function.update_of_ne same, last, List.append_nil]
    exact account.life j

theorem line_next (account : Account limit s history) {i j : ι} {k : κ} (mine : move.customer = i)
    {place : Place} (place_eq : t.place = Function.update s.place i place) (stood : j ∈ s.line k)
    (other : j ≠ i) : t.place j = .waiting ∧ lifeOf j (history ++ [move]) = [.join k j] := by
  obtain ⟨waits, life⟩ := account.line k j stood
  rw [lifeOf_append, lifeOf_other (by rw [mine]; exact other), List.append_nil, place_eq,
    Function.update_of_ne other]
  exact ⟨waits, life⟩

theorem ne_of_line (account : Account limit s history) {i j : ι} {k : κ} (stood : j ∈ s.line k)
    {place : Place} (here : s.place i = place) (elsewhere : place ≠ .waiting) : j ≠ i := by
  rintro rfl
  exact elsewhere (here.symm.trans (account.line k j stood).1)

theorem balk (account : Account limit s history) {i : ι} (outside : s.place i = .outside) :
    Account limit (s.put i .gone) (history ++ [.balk i]) where
  life := by
    have fresh := account.life i
    rw [outside] at fresh
    exact account.life_next rfl rfl fresh.eq_of_outside .balked
  line := by
    intro k j stood
    exact account.line_next rfl rfl stood (account.ne_of_line stood outside (by decide))
  nodup := account.nodup
  fifo := by
    intro k
    simpa [grantsOf, joinsOf, State.put] using account.fifo k
  balance := by
    simpa [List.countP_append, Move.isGrant, Move.isLeave, State.put] using account.balance
  room := account.room
  served := by
    obtain ⟨inService, iff, card⟩ := account.served
    refine ⟨inService, ?_, card⟩
    intro j
    by_cases same : j = i
    · subst j
      rw [← iff]
      simp [State.put, outside]
    · rw [← iff]
      simp [State.put, Function.update_of_ne same]

theorem join (account : Account limit s history) {k : κ} {i : ι} (outside : s.place i = .outside) :
    Account limit ((s.put i .waiting).setLine k (s.line k ++ [i])) (history ++ [.join k i]) where
  life := by
    have fresh := account.life i
    rw [outside] at fresh
    exact account.life_next rfl rfl fresh.eq_of_outside (.waiting k)
  line := by
    intro l j stood
    by_cases same : l = k
    · subst l
      simp only [State.setLine, Function.update_self, List.mem_append, List.mem_singleton] at stood
      rcases stood with before | rfl
      · exact account.line_next rfl rfl before (account.ne_of_line before outside (by decide))
      · have fresh := account.life j
        rw [outside] at fresh
        refine ⟨by simp [State.setLine, State.put], ?_⟩
        rw [lifeOf_append, fresh.eq_of_outside]
        exact lifeOf_own (Move.join k j)
    · simp only [State.setLine, Function.update_of_ne same] at stood
      exact account.line_next rfl rfl stood (account.ne_of_line stood outside (by decide))
  nodup := by
    intro l
    by_cases same : l = k
    · subst l
      simp only [State.setLine, Function.update_self]
      refine (account.nodup k).append (List.nodup_singleton i) ?_
      intro j stood last
      exact account.ne_of_line stood outside (by decide) (List.mem_singleton.mp last)
    · simpa [State.setLine, State.put, Function.update_of_ne same] using account.nodup l
  fifo := by
    intro l
    by_cases same : l = k
    · subst l
      have fifo := (account.fifo k).append (List.Sublist.refl [i])
      simpa [grantsOf, joinsOf, State.setLine] using fifo
    · have other : ¬ k = l := fun h => same h.symm
      simpa [grantsOf, joinsOf, State.setLine, State.put, Function.update_of_ne same, other]
        using account.fifo l
  balance := by
    simpa [List.countP_append, Move.isGrant, Move.isLeave, State.put, State.setLine]
      using account.balance
  room := account.room
  served := by
    obtain ⟨inService, iff, card⟩ := account.served
    refine ⟨inService, ?_, card⟩
    intro j
    by_cases same : j = i
    · subst j
      rw [← iff]
      simp [State.put, State.setLine, outside]
    · rw [← iff]
      simp [State.put, State.setLine, Function.update_of_ne same]

theorem grant (account : Account limit s history) {k : κ} {i : ι} {rest : List ι}
    (head : s.line k = i :: rest) (under : s.busy < limit) :
    Account limit { (s.put i .served).setLine k rest with busy := s.busy + 1 }
      (history ++ [.grant k i]) where
  life := by
    obtain ⟨-, life⟩ := account.line k i (by simp [head])
    exact account.life_next rfl rfl life (.served k)
  line := by
    intro l j stood
    have distinct := account.nodup k
    rw [head, List.nodup_cons] at distinct
    by_cases same : l = k
    · subst l
      simp only [State.setLine, Function.update_self] at stood
      refine account.line_next (k := k) rfl rfl (by simp [head, stood]) ?_
      rintro rfl
      exact distinct.1 stood
    · simp only [State.setLine, Function.update_of_ne same] at stood
      refine account.line_next rfl rfl stood ?_
      rintro rfl
      exact same (account.line_unique stood (by simp [head]))
  nodup := by
    intro l
    have distinct := account.nodup l
    by_cases same : l = k
    · subst l
      rw [head, List.nodup_cons] at distinct
      simpa [State.setLine] using distinct.2
    · simpa [State.setLine, State.put, Function.update_of_ne same] using distinct
  fifo := by
    intro l
    have fifo := account.fifo l
    by_cases same : l = k
    · subst l
      rw [head] at fifo
      simpa [grantsOf, joinsOf, State.setLine] using fifo
    · have other : ¬ k = l := fun h => same h.symm
      simpa [grantsOf, joinsOf, State.setLine, State.put, Function.update_of_ne same, other]
        using fifo
  balance := by
    have balance := account.balance
    simp only [List.countP_append, List.countP_singleton, Move.isGrant, Move.isLeave, if_true,
      Bool.false_eq_true, if_false]
    omega
  room := under
  served := by
    obtain ⟨inService, iff, card⟩ := account.served
    have waits := (account.line k i (by simp [head])).1
    have absent : i ∉ inService := by
      rw [← iff, waits]
      decide
    refine ⟨insert i inService, ?_, by rw [Finset.card_insert_of_notMem absent, card]⟩
    intro j
    by_cases same : j = i
    · subst j
      simp [State.put, State.setLine]
    · rw [Finset.mem_insert, ← iff]
      simp [State.put, State.setLine, same]

theorem withdraw (account : Account limit s history) {k : κ} {i : ι} (stood : i ∈ s.line k) :
    Account limit ((s.put i .gone).setLine k ((s.line k).filter (· ≠ i)))
      (history ++ [.withdraw k i]) where
  life := by
    obtain ⟨-, life⟩ := account.line k i stood
    exact account.life_next rfl rfl life (.withdrawn k)
  line := by
    intro l j stays
    by_cases same : l = k
    · subst l
      simp only [State.setLine, Function.update_self, List.mem_filter, decide_eq_true_eq] at stays
      exact account.line_next rfl rfl stays.1 stays.2
    · simp only [State.setLine, Function.update_of_ne same] at stays
      refine account.line_next rfl rfl stays ?_
      rintro rfl
      exact same (account.line_unique stays stood)
  nodup := by
    intro l
    by_cases same : l = k
    · subst l
      simpa [State.setLine] using (account.nodup k).filter _
    · simpa [State.setLine, State.put, Function.update_of_ne same] using account.nodup l
  fifo := by
    intro l
    have fifo := account.fifo l
    by_cases same : l = k
    · subst l
      have fewer : ((s.line k).filter (· ≠ i)).Sublist (s.line k) := List.filter_sublist
      simpa [grantsOf, joinsOf, State.setLine] using (fewer.append_left _).trans fifo
    · simpa [grantsOf, joinsOf, State.setLine, State.put, Function.update_of_ne same] using fifo
  balance := by
    simpa [List.countP_append, Move.isGrant, Move.isLeave, State.put, State.setLine]
      using account.balance
  room := account.room
  served := by
    obtain ⟨inService, iff, card⟩ := account.served
    have waits := (account.line k i stood).1
    refine ⟨inService, ?_, card⟩
    intro j
    by_cases same : j = i
    · subst j
      rw [← iff]
      simp [State.put, State.setLine, waits]
    · rw [← iff]
      simp [State.put, State.setLine, Function.update_of_ne same]

theorem leave (account : Account limit s history) {i : ι} (serving : s.place i = .served) :
    Account limit { s.put i .gone with busy := s.busy - 1 } (history ++ [.leave i]) := by
  obtain ⟨inService, iff, card⟩ := account.served
  have inside : i ∈ inService := (iff i).mp serving
  have positive : 0 < s.busy := by
    rw [← card]
    exact Finset.card_pos.mpr ⟨i, inside⟩
  refine ⟨?_, ?_, account.nodup, ?_, ?_, (Nat.sub_le _ _).trans account.room, ?_⟩
  · have lived := account.life i
    rw [serving] at lived
    obtain ⟨k, life⟩ := lived.eq_of_served
    exact account.life_next rfl rfl life (.left k)
  · intro k j stood
    exact account.line_next rfl rfl stood (account.ne_of_line stood serving (by decide))
  · intro k
    simpa [grantsOf, joinsOf, State.put] using account.fifo k
  · have balance := account.balance
    simp only [List.countP_append, List.countP_singleton, Move.isGrant, Move.isLeave, if_true,
      Bool.false_eq_true, if_false]
    omega
  · refine ⟨inService.erase i, ?_, by rw [Finset.card_erase_of_mem inside, card]⟩
    intro j
    by_cases same : j = i
    · subst j
      simp [State.put]
    · rw [Finset.mem_erase, ← iff]
      simp [State.put, same]

theorem next (account : Account limit s history) (h : Server.next limit s move = some t) :
    Account limit t (history ++ [move]) := by
  cases move with
  | balk i =>
      simp only [Server.next, Option.ite_none_right_eq_some, Option.some.injEq] at h
      obtain ⟨outside, rfl⟩ := h
      exact account.balk outside
  | join k i =>
      simp only [Server.next, Option.ite_none_right_eq_some, Option.some.injEq] at h
      obtain ⟨outside, rfl⟩ := h
      exact account.join outside
  | grant k i =>
      simp only [Server.next, Option.ite_none_right_eq_some, Option.some.injEq] at h
      obtain ⟨⟨head, under⟩, rfl⟩ := h
      exact account.grant head under
  | withdraw k i =>
      simp only [Server.next, Option.ite_none_right_eq_some, Option.some.injEq] at h
      obtain ⟨stood, rfl⟩ := h
      exact account.withdraw stood
  | leave i =>
      simp only [Server.next, Option.ite_none_right_eq_some, Option.some.injEq] at h
      obtain ⟨serving, rfl⟩ := h
      exact account.leave serving

/-- The account of a whole run. -/
theorem of_run {us} (run : (machine κ ι limit).Exec State.start us s) :
    Account limit s (Machine.events us) := by
  induction run with
  | nil => exact start limit
  | snoc before step ih =>
      obtain ⟨t, moved, same⟩ := Option.map_eq_some_iff.mp step
      obtain ⟨rfl, rfl⟩ := Prod.mk.inj same
      rw [Machine.events_append, Machine.events_singleton]
      exact ih.next moved

end Account

end

end Server
