import TinyLlb.Scheduler.Accumulation

/-! # Representation invariant of the scheduler state

`waiting`, `rr_cursor` and `deficit` are kept in step by hand in six code paths.
`RepInv` is what they agree on. Each operation is described once by its effect on
the queues and the cursor; `trySelect_spec` does this for the selection, and at
the same time shows that under the invariant none of its panics is reachable.
-/

namespace TinyLlb

open TrySelect

/-- Ids of a queue, oldest first. -/
def pendingIds (queue : List Pending) : List Nat := queue.map Pending.pendingId

structure RepInv (s : DrrState) : Prop where
  nodup : s.rrCursor.Nodup
  keys : ∀ f, f ∈ s.rrCursor ↔ f ∈ s.waiting
  nonempty : ∀ f, f ∈ s.waiting → s.queue f ≠ []
  below : ∀ f, ∀ p ∈ s.queue f, p.pendingId < s.nextPendingId
  sorted : ∀ f, (pendingIds (s.queue f)).Pairwise (· < ·)
  apart : ∀ f g, f ≠ g → ∀ p ∈ s.queue f, ∀ r ∈ s.queue g, p.pendingId ≠ r.pendingId

namespace DrrState

theorem queue_of_lookup {s : DrrState} {f : FlowId} {queue} (h : s.waiting.lookup f = some queue) :
    s.queue f = queue := by
  simp [DrrState.queue, h]

theorem queue_eq_nil_of_notMem {s : DrrState} {f : FlowId} (h : f ∉ s.waiting) : s.queue f = [] := by
  simp [DrrState.queue, Assoc.notMem_iff_lookup.mp h]

theorem lookup_of_queue_cons {s : DrrState} {f : FlowId} {p rest} (h : s.queue f = p :: rest) :
    s.waiting.lookup f = some (p :: rest) := by
  unfold DrrState.queue at h
  cases found : s.waiting.lookup f with
  | none => simp [found] at h
  | some queue => simpa [found] using h

theorem hasWaiting_iff_queue {s : DrrState} {f : FlowId} :
    hasWaiting s.waiting f = true ↔ s.queue f ≠ [] := by
  unfold hasWaiting DrrState.queue
  cases s.waiting.lookup f with
  | none => simp
  | some queue => cases queue <;> simp

end DrrState

namespace RepInv

variable {s : DrrState}

theorem mem_waiting_iff (inv : RepInv s) {f : FlowId} : f ∈ s.waiting ↔ s.queue f ≠ [] := by
  constructor
  · exact inv.nonempty f
  · intro h
    by_contra absent
    exact h (DrrState.queue_eq_nil_of_notMem absent)

theorem mem_cursor_iff (inv : RepInv s) {f : FlowId} : f ∈ s.rrCursor ↔ s.queue f ≠ [] :=
  (inv.keys f).trans inv.mem_waiting_iff

theorem hasWaiting_iff (inv : RepInv s) {f : FlowId} :
    hasWaiting s.waiting f = true ↔ f ∈ s.rrCursor :=
  DrrState.hasWaiting_iff_queue.trans inv.mem_cursor_iff.symm

/-- A cursor entry always has a head to serve: the `None` and empty arms of
    phase 2 are never taken. -/
theorem head_of_mem (inv : RepInv s) {f : FlowId} (member : f ∈ s.rrCursor) :
    ∃ p rest, s.waiting.lookup f = some (p :: rest) ∧ s.queue f = p :: rest := by
  obtain ⟨p, rest, found⟩ := TrySelect.hasWaiting_iff.mp (inv.hasWaiting_iff.mpr member)
  exact ⟨p, rest, found, DrrState.queue_of_lookup found⟩

theorem new (maxActiveFlows : Nat) : RepInv (DrrState.new maxActiveFlows) where
  nodup := List.nodup_nil
  keys := by
    intro f
    simp [DrrState.new]
  nonempty := by
    intro f member
    simp [DrrState.new] at member
  below := by
    intro f p member
    simp [DrrState.new, DrrState.queue] at member
  sorted := by
    intro f
    simp [DrrState.new, DrrState.queue, pendingIds]
  apart := by
    intro f g _ p member
    simp [DrrState.new, DrrState.queue] at member

end RepInv

namespace DrrState

theorem queue_enqueue (s : DrrState) (f : FlowId) (tx : Nat) (enter : Instant) (workUnit : F64)
    (g : FlowId) :
    (s.enqueue f tx enter workUnit).queue g =
      if g = f then s.queue f ++ [⟨s.nextPendingId, tx, enter, workUnit⟩] else s.queue g := by
  unfold DrrState.enqueue
  simp only [DrrState.queue, Assoc.lookup_insert]
  split <;> rfl

theorem dropGuard_cases {s : DrrState} {f : FlowId} {queue} (found : s.waiting.lookup f = some queue)
    (pendingId : Option Nat) :
    (kept pendingId queue = [] ∧ s.dropGuard f pendingId =
      { s with
        waiting := s.waiting.erase f
        deficit := s.deficit.erase f
        rrCursor := Cursor.retire f s.rrCursor }) ∨
    (kept pendingId queue ≠ [] ∧ s.dropGuard f pendingId =
      { s with waiting := s.waiting.insert f (kept pendingId queue) }) := by
  simp only [DrrState.dropGuard, found, List.isEmpty_iff]
  by_cases empty : kept pendingId queue = []
  · exact .inl ⟨empty, if_pos empty⟩
  · exact .inr ⟨empty, if_neg empty⟩

theorem dropGuard_of_none {s : DrrState} {f : FlowId} (absent : s.waiting.lookup f = none)
    (pendingId : Option Nat) : s.dropGuard f pendingId = s := by
  simp only [DrrState.dropGuard, absent]

theorem dropGuard_counters (s : DrrState) (f : FlowId) (pendingId : Option Nat) :
    (s.dropGuard f pendingId).nextPendingId = s.nextPendingId ∧
      (s.dropGuard f pendingId).availablePermits = s.availablePermits ∧
      (s.dropGuard f pendingId).maxPermits = s.maxPermits := by
  cases found : s.waiting.lookup f with
  | none => simp only [dropGuard_of_none found, and_self]
  | some queue =>
      rcases dropGuard_cases found pendingId with ⟨-, dropped⟩ | ⟨-, dropped⟩ <;>
        simp only [dropped, and_self]

theorem queue_dropGuard (s : DrrState) (f : FlowId) (pendingId : Option Nat) (g : FlowId) :
    (s.dropGuard f pendingId).queue g =
      if g = f then kept pendingId (s.queue f) else s.queue g := by
  cases found : s.waiting.lookup f with
  | none =>
      rw [dropGuard_of_none found]
      split
      · subst g
        cases pendingId <;> simp [DrrState.queue, found, kept]
      · rfl
  | some queue =>
      rw [queue_of_lookup found]
      rcases dropGuard_cases found pendingId with ⟨empty, dropped⟩ | ⟨-, dropped⟩
      · rw [dropped, empty]
        simp only [DrrState.queue, Assoc.lookup_erase]
        split <;> rfl
      · rw [dropped]
        simp only [DrrState.queue, Assoc.lookup_insert]
        split <;> rfl

theorem mem_kept {pendingId : Option Nat} {queue : List Pending} {p : Pending} :
    p ∈ kept pendingId queue ↔ p ∈ queue ∧ pendingId ≠ some p.pendingId := by
  cases pendingId with
  | none => simp [kept]
  | some myId =>
      simp only [kept, List.mem_filter, decide_eq_true_eq, ne_eq, Option.some.injEq]
      rw [eq_comm]

theorem kept_sublist (pendingId : Option Nat) (queue : List Pending) :
    (kept pendingId queue).Sublist queue := by
  cases pendingId with
  | none => exact List.Sublist.refl _
  | some myId => exact List.filter_sublist

end DrrState

theorem RepInv.enqueue {s : DrrState} (inv : RepInv s) (f : FlowId) (tx : Nat) (enter : Instant)
    (workUnit : F64) : RepInv (s.enqueue f tx enter workUnit) where
  nodup := Cursor.nodup_join inv.nodup
  keys := by
    intro g
    simp only [DrrState.enqueue, Cursor.mem_join, AList.mem_insert, inv.keys g, or_comm]
  nonempty := by
    intro g member
    rw [DrrState.queue_enqueue]
    split
    · simp
    · rename_i other
      apply inv.nonempty g
      simpa [DrrState.enqueue, AList.mem_insert, other] using member
  below := by
    intro g p member
    rw [DrrState.queue_enqueue] at member
    simp only [DrrState.enqueue]
    split at member
    · rcases List.mem_append.mp member with old | new
      · exact Nat.lt_succ_of_lt (inv.below f p old)
      · obtain rfl := List.mem_singleton.mp new
        exact Nat.lt_succ_self _
    · exact Nat.lt_succ_of_lt (inv.below g p member)
  sorted := by
    intro g
    rw [DrrState.queue_enqueue]
    split
    · simp only [pendingIds, List.map_append, List.map_cons, List.map_nil]
      rw [List.pairwise_append]
      refine ⟨inv.sorted f, List.pairwise_singleton _ _, ?_⟩
      intro a old b new
      obtain rfl := List.mem_singleton.mp new
      obtain ⟨p, member, rfl⟩ := List.mem_map.mp old
      exact inv.below f p member
    · exact inv.sorted g
  apart := by
    intro g h different p hp r hr
    rw [DrrState.queue_enqueue] at hp hr
    -- A fresh id is above every id already queued.
    split at hp <;> split at hr
    · subst g h
      exact absurd rfl different
    · rcases List.mem_append.mp hp with old | new
      · subst g
        exact inv.apart f h different p old r hr
      · obtain rfl := List.mem_singleton.mp new
        exact Nat.ne_of_gt (inv.below h r hr)
    · rcases List.mem_append.mp hr with old | new
      · subst h
        exact inv.apart g f different p hp r old
      · obtain rfl := List.mem_singleton.mp new
        exact Nat.ne_of_lt (inv.below g p hp)
    · exact inv.apart g h different p hp r hr

theorem DrrState.dropGuard_keys {s : DrrState} (inv : RepInv s) (f : FlowId)
    (pendingId : Option Nat) (g : FlowId) :
    (g ∈ (s.dropGuard f pendingId).waiting ↔ (s.dropGuard f pendingId).queue g ≠ []) ∧
      (g ∈ (s.dropGuard f pendingId).rrCursor ↔ g ∈ (s.dropGuard f pendingId).waiting) := by
  rw [DrrState.queue_dropGuard]
  cases found : s.waiting.lookup f with
  | none =>
      have absent : f ∉ s.waiting := Assoc.notMem_iff_lookup.mpr found
      rw [DrrState.dropGuard_of_none found]
      refine ⟨?_, inv.keys g⟩
      split
      · subst g
        simp [absent, DrrState.queue_eq_nil_of_notMem absent, DrrState.kept]
        cases pendingId <;> rfl
      · exact inv.mem_waiting_iff
  | some queue =>
      have present : f ∈ s.waiting := Assoc.mem_iff_lookup.mpr ⟨queue, found⟩
      rw [DrrState.queue_of_lookup found]
      rcases DrrState.dropGuard_cases found pendingId with ⟨empty, dropped⟩ | ⟨left, dropped⟩
      · rw [dropped, empty]
        by_cases same : g = f
        · simp [same, AList.mem_erase]
        · simp only [AList.mem_erase, Cursor.mem_retire, same, ne_eq, not_false_eq_true, true_and,
            if_false, and_true]
          exact ⟨inv.mem_waiting_iff, inv.keys g⟩
      · rw [dropped]
        by_cases same : g = f
        · simp [same, AList.mem_insert, left, inv.keys f, present]
        · simp only [AList.mem_insert, same, false_or, if_false]
          exact ⟨inv.mem_waiting_iff, inv.keys g⟩

theorem RepInv.dropGuard {s : DrrState} (inv : RepInv s) (f : FlowId) (pendingId : Option Nat) :
    RepInv (s.dropGuard f pendingId) := by
  have sub : ∀ g, ((s.dropGuard f pendingId).queue g).Sublist (s.queue g) := by
    intro g
    rw [DrrState.queue_dropGuard]
    split
    · subst g
      exact DrrState.kept_sublist _ _
    · exact List.Sublist.refl _
  refine ⟨?_, fun g => (DrrState.dropGuard_keys inv f pendingId g).2,
    fun g => (DrrState.dropGuard_keys inv f pendingId g).1.mp, ?_, ?_, ?_⟩
  · cases found : s.waiting.lookup f with
    | none => simpa only [DrrState.dropGuard_of_none found] using inv.nodup
    | some queue =>
        rcases DrrState.dropGuard_cases found pendingId with ⟨-, dropped⟩ | ⟨-, dropped⟩
        · simpa only [dropped] using Cursor.nodup_retire inv.nodup
        · simpa only [dropped] using inv.nodup
  · intro g p member
    rw [(DrrState.dropGuard_counters s f pendingId).1]
    exact inv.below g p ((sub g).subset member)
  · intro g
    exact (inv.sorted g).sublist ((sub g).map _)
  · intro g h different p hp r hr
    exact inv.apart g h different p ((sub g).subset hp) r ((sub h).subset hr)

theorem RepInv.release {s : DrrState} (inv : RepInv s) : RepInv s.release :=
  ⟨inv.nodup, inv.keys, inv.nonempty, inv.below, inv.sorted, inv.apart⟩

end TinyLlb
