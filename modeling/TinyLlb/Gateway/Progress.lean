import TinyLlb.Gateway.Lifecycle
import TinyLlb.Library.Machine
import TinyLlb.Library.Slots

/-! # The progress tracker under its requests

Every request registers its estimate, counts its delivered tokens and unregisters when
its guard is dropped. Each access to the map is a step, and requests take their steps in
any order. To remove an entry takes two: one that finds that nothing is left of the sums,
and one that removes the entry.
-/

namespace TinyLlb

namespace FlowProgressTracker

/-- The first access of `unregister`, and whether a second one has to remove the entry. -/
def release (arith : I64Arith) (tracker : FlowProgressTracker) (f : FlowId)
    (estimated delivered : Int) : FlowProgressTracker × Bool :=
  match tracker.lookup f with
  | some entry =>
      let newEst := arith.saturatingSub entry.estimated estimated
      let newDel := arith.saturatingSub entry.delivered delivered
      if newEst = 0 ∧ newDel = 0 then (tracker, true) else (tracker.insert f ⟨newEst, newDel⟩, false)
  | none => (tracker, false)

/-- With nothing in between, the two accesses are `unregister`. -/
theorem unregister_eq (arith : I64Arith) (tracker : FlowProgressTracker) (f : FlowId)
    (estimated delivered : Int) :
    tracker.unregister arith f estimated delivered =
      if (tracker.release arith f estimated delivered).2 then
        (tracker.release arith f estimated delivered).1.erase f
      else (tracker.release arith f estimated delivered).1 := by
  unfold unregister release
  cases tracker.lookup f with
  | none => rfl
  | some entry =>
      simp only
      split <;> simp

end FlowProgressTracker

namespace Progress

inductive Phase where
  | registered
  /-- Dropped, with the entry still to be removed. -/
  | removing
  | gone
  deriving DecidableEq

structure Request where
  guard : LifecycleGuard
  /-- The sum of what it was told was delivered. -/
  delivered : Int
  phase : Phase
  deriving DecidableEq

structure State where
  tracker : FlowProgressTracker
  requests : List Request

inductive Action where
  | create (f : FlowId) (body : RequestBody)
  | deliver (i : Nat) (count : Int)
  | drop (i : Nat)
  | remove (i : Nat)
  deriving DecidableEq

variable (arith : I64Arith)

def create (s : State) (f : FlowId) (body : RequestBody) : State :=
  let estimated := (extractMaxTokens body).asI64
  { tracker := s.tracker.register arith f estimated
    requests := s.requests ++ [⟨LifecycleGuard.new f estimated, 0, .registered⟩] }

def deliver (s : State) (i : Nat) (r : Request) (count : Int) : State :=
  { tracker := s.tracker.updateDelivered arith r.guard.flowId count
    requests := s.requests.set i
      { r with guard := r.guard.addDeliveredTokens arith count, delivered := r.delivered + count } }

def drop (s : State) (i : Nat) (r : Request) : State :=
  let released :=
    s.tracker.release arith r.guard.flowId r.guard.estimatedCost r.guard.deliveredTokens
  { tracker := released.1
    requests := s.requests.set i { r with phase := if released.2 then .removing else .gone } }

def remove (s : State) (i : Nat) (r : Request) : State :=
  { tracker := s.tracker.erase r.guard.flowId
    requests := s.requests.set i { r with phase := .gone } }

def next (s : State) : Action → Option (State × Option Empty)
  | .create f body => some (create arith s f body, none)
  | .deliver i count => do
      let r ← s.requests[i]?
      if r.phase = .registered then some (deliver arith s i r count, none) else none
  | .drop i => do
      let r ← s.requests[i]?
      if r.phase = .registered then some (drop arith s i r, none) else none
  | .remove i => do
      let r ← s.requests[i]?
      if r.phase = .removing then some (remove s i r, none) else none

def machine : Machine State Action Empty := ⟨⟨∅, []⟩, next arith⟩

/-- A registered request of the flow. -/
def Request.isOf (f : FlowId) (r : Request) : Bool := r.guard.flowId = f && r.phase = .registered

/-- A dropped request of the flow that has yet to remove the entry. -/
def Request.isRemoving (f : FlowId) (r : Request) : Bool :=
  r.guard.flowId = f && r.phase = .removing

namespace State

/-- The registered requests of a flow. -/
def registered (s : State) (f : FlowId) : Nat := s.requests.countP (Request.isOf f)

def removing (s : State) (f : FlowId) : Nat := s.requests.countP (Request.isRemoving f)

/-- The sum of their estimates. -/
def estimated (s : State) (f : FlowId) : Int :=
  (s.requests.map fun r => if r.isOf f then r.guard.estimatedCost else 0).sum

/-- The sum of what was delivered to them. -/
def delivered (s : State) (f : FlowId) : Int :=
  (s.requests.map fun r => if r.isOf f then r.delivered else 0).sum

/-- No operation is in progress. -/
def Quiet (s : State) : Prop := ∀ r ∈ s.requests, r.phase ≠ .removing

instance (s : State) : Decidable s.Quiet :=
  inferInstanceAs (Decidable (∀ r ∈ s.requests, r.phase ≠ .removing))

/-- The entry a flow should have. -/
def entry (s : State) (f : FlowId) : Option ProgressEntry :=
  if s.registered f = 0 then none else some ⟨s.estimated f, s.delivered f⟩

end State

/-- A step that keeps the tracker true, by the state before it: nobody registers between
    the two accesses of a removal, sums are stored as they are, and a request that leaves
    others behind does not leave both sums at zero. -/
def Sound (s : State) : Action → Prop
  | .create f body =>
      s.removing f = 0 ∧
        arith.store (s.estimated f + (extractMaxTokens body).asI64) =
          s.estimated f + (extractMaxTokens body).asI64
  | .deliver i count => ∀ r, s.requests[i]? = some r →
      arith.store (r.delivered + count) = r.delivered + count ∧
        arith.store (s.delivered r.guard.flowId + count) = s.delivered r.guard.flowId + count
  | .drop i => ∀ r, s.requests[i]? = some r →
      let estimated := s.estimated r.guard.flowId
      let delivered := s.delivered r.guard.flowId
      arith.saturatingSub estimated r.guard.estimatedCost = estimated - r.guard.estimatedCost ∧
        arith.saturatingSub delivered r.delivered = delivered - r.delivered ∧
        (2 ≤ s.registered r.guard.flowId →
          ¬ (estimated = r.guard.estimatedCost ∧ delivered = r.delivered))
  | .remove _ => True

instance (s : State) : ∀ action, Decidable (Sound arith s action)
  | .create _ _ => inferInstanceAs (Decidable (_ ∧ _))
  | .deliver i _ => inferInstanceAs (Decidable (∀ r ∈ s.requests[i]?, _ ∧ _))
  | .drop i => inferInstanceAs (Decidable (∀ r ∈ s.requests[i]?, _ ∧ _ ∧ (_ → ¬ (_ ∧ _))))
  | .remove _ => inferInstanceAs (Decidable True)

/-- Between the operations the entry is the one there should be. -/
structure Tracked (s : State) : Prop where
  cells : ∀ r ∈ s.requests, r.guard.deliveredTokens = r.delivered
  alone : ∀ f, s.removing f ≠ 0 → s.registered f = 0
  entries : ∀ f, s.removing f = 0 → s.tracker.lookup f = s.entry f

variable {arith} {s : State} {tracker : FlowProgressTracker} {i : Nat} {r r' : Request} {f g : FlowId}

theorem isOf_iff : r.isOf f = true ↔ r.guard.flowId = f ∧ r.phase = .registered := by
  simp [Request.isOf]

theorem isRemoving_iff : r.isRemoving f = true ↔ r.guard.flowId = f ∧ r.phase = .removing := by
  simp [Request.isRemoving]

theorem isOf_self (open_ : r.phase = .registered) : r.isOf r.guard.flowId = true :=
  isOf_iff.mpr ⟨rfl, open_⟩

theorem isOf_of_ne (other : g ≠ r.guard.flowId) : r.isOf g = false := by
  simp [Request.isOf, other.symm]

theorem isRemoving_of_ne (other : g ≠ r.guard.flowId) : r.isRemoving g = false := by
  simp [Request.isRemoving, other.symm]

theorem isRemoving_of_registered (open_ : r.phase = .registered) : r.isRemoving f = false := by
  simp [Request.isRemoving, open_]

theorem isOf_phase {phase : Phase} (left : phase ≠ .registered) :
    Request.isOf f { r with phase := phase } = false := by
  simp [Request.isOf, left]

theorem isRemoving_phase (phase : Phase) :
    Request.isRemoving r.guard.flowId { r with phase := phase } = decide (phase = .removing) := by
  simp [Request.isRemoving]

theorem registered_pos (found : s.requests[i]? = some r) (open_ : r.phase = .registered) :
    s.registered r.guard.flowId ≠ 0 := by
  have counted : 0 < s.registered r.guard.flowId :=
    List.countP_pos_iff.mpr ⟨r, List.mem_of_getElem? found, isOf_self open_⟩
  omega

theorem sum_eq_zero_of_registered (none_ : s.registered f = 0) (share : Request → Int) :
    (s.requests.map fun r => if r.isOf f then share r else 0).sum = 0 := by
  apply List.sum_eq_zero
  intro x member
  obtain ⟨r, inside, rfl⟩ := List.mem_map.mp member
  rw [if_neg (List.countP_eq_zero.mp none_ r inside)]

theorem entry_getD (s : State) (f : FlowId) :
    (s.entry f).getD ⟨0, 0⟩ = ⟨s.estimated f, s.delivered f⟩ := by
  unfold State.entry
  by_cases none_ : s.registered f = 0
  · rw [if_pos none_, State.estimated, State.delivered, sum_eq_zero_of_registered none_,
      sum_eq_zero_of_registered none_]
    rfl
  · rw [if_neg none_, Option.getD_some]

theorem set_row (tracker : FlowProgressTracker) (found : s.requests[i]? = some r) (r' : Request)
    (g : FlowId) :
    let t : State := ⟨tracker, s.requests.set i r'⟩
    t.registered g + (if r.isOf g then 1 else 0) = s.registered g + (if r'.isOf g then 1 else 0) ∧
      t.removing g + (if r.isRemoving g then 1 else 0) =
        s.removing g + (if r'.isRemoving g then 1 else 0) ∧
      t.estimated g + (if r.isOf g then r.guard.estimatedCost else 0) =
        s.estimated g + (if r'.isOf g then r'.guard.estimatedCost else 0) ∧
      t.delivered g + (if r.isOf g then r.delivered else 0) =
        s.delivered g + (if r'.isOf g then r'.delivered else 0) :=
  ⟨Slots.countP_set found r' _, Slots.countP_set found r' _, Slots.sum_set found r' _,
    Slots.sum_set found r' _⟩

theorem set_elsewhere (tracker : FlowProgressTracker) (found : s.requests[i]? = some r)
    (same : r'.guard.flowId = r.guard.flowId) (other : g ≠ r.guard.flowId) :
    State.registered ⟨tracker, s.requests.set i r'⟩ g = s.registered g ∧
      State.removing ⟨tracker, s.requests.set i r'⟩ g = s.removing g ∧
      State.entry ⟨tracker, s.requests.set i r'⟩ g = s.entry g := by
  have other' : g ≠ r'.guard.flowId := same ▸ other
  obtain ⟨registered, removing, estimated, delivered⟩ := set_row tracker found r' g
  simp only [isOf_of_ne other, isOf_of_ne other', isRemoving_of_ne other, isRemoving_of_ne other',
    Bool.false_eq_true, if_false, add_zero] at registered removing estimated delivered
  exact ⟨registered, removing, by simp only [State.entry, registered, estimated, delivered]⟩

theorem tracked_set (tracked : Tracked s) (found : s.requests[i]? = some r) (r' : Request)
    (same : r'.guard.flowId = r.guard.flowId) (cell : r'.guard.deliveredTokens = r'.delivered)
    (frame : ∀ g, g ≠ r.guard.flowId → tracker.lookup g = s.tracker.lookup g)
    (alone : State.removing ⟨tracker, s.requests.set i r'⟩ r.guard.flowId ≠ 0 →
      State.registered ⟨tracker, s.requests.set i r'⟩ r.guard.flowId = 0)
    (here : State.removing ⟨tracker, s.requests.set i r'⟩ r.guard.flowId = 0 →
      tracker.lookup r.guard.flowId =
        State.entry ⟨tracker, s.requests.set i r'⟩ r.guard.flowId) :
    Tracked ⟨tracker, s.requests.set i r'⟩ := by
  refine ⟨?_, ?_, ?_⟩
  · intro q member
    rcases List.mem_or_eq_of_mem_set member with old | rfl
    · exact tracked.cells q old
    · exact cell
  · intro g
    by_cases flow : g = r.guard.flowId
    · exact flow ▸ alone
    · obtain ⟨registered, removing, -⟩ := set_elsewhere tracker found same flow
      rw [registered, removing]
      exact tracked.alone g
  · intro g
    by_cases flow : g = r.guard.flowId
    · exact flow ▸ here
    · obtain ⟨-, removing, entry⟩ := set_elsewhere tracker found same flow
      rw [removing, entry, frame g flow]
      exact tracked.entries g

theorem create_row (arith : I64Arith) (s : State) (f : FlowId) (body : RequestBody) (g : FlowId) :
    (create arith s f body).registered g = s.registered g + (if g = f then 1 else 0) ∧
      (create arith s f body).removing g = s.removing g ∧
      (create arith s f body).estimated g =
        s.estimated g + (if g = f then (extractMaxTokens body).asI64 else 0) ∧
      (create arith s f body).delivered g = s.delivered g := by
  refine ⟨?_, ?_, ?_, ?_⟩
  · by_cases here : g = f <;>
      simp [create, State.registered, Request.isOf, LifecycleGuard.new, here, Ne.symm]
  · simp [create, State.removing, Request.isRemoving]
  · by_cases here : g = f <;>
      simp [create, State.estimated, Request.isOf, LifecycleGuard.new, here, Ne.symm]
  · simp [create, State.delivered, Request.isOf, LifecycleGuard.new]

theorem tracked_create (tracked : Tracked s) {f : FlowId} {body : RequestBody}
    (sound : Sound arith s (.create f body)) : Tracked (create arith s f body) := by
  obtain ⟨calm, stored⟩ := sound
  refine ⟨?_, ?_, ?_⟩
  · intro r member
    rcases List.mem_append.mp member with old | new
    · exact tracked.cells r old
    · rw [List.mem_singleton.mp new]
      rfl
  · intro g busy
    obtain ⟨registered, removing, -, -⟩ := create_row arith s f body g
    rw [removing] at busy
    have other : g ≠ f := fun same => busy (same ▸ calm)
    rw [registered, if_neg other]
    exact tracked.alone g busy
  · intro g quiet
    obtain ⟨registered, removing, estimated, delivered⟩ := create_row arith s f body g
    rw [removing] at quiet
    have entry := tracked.entries g quiet
    change (FlowProgressTracker.register arith s.tracker f _).lookup g = _
    unfold FlowProgressTracker.register
    rw [Assoc.lookup_insert, State.entry, registered, estimated, delivered]
    by_cases here : g = f
    · subst here
      rw [if_pos rfl, if_pos rfl, if_pos rfl, if_neg (Nat.succ_ne_zero _), entry, entry_getD]
      simp only [stored]
    · rw [if_neg here, if_neg here, if_neg here, add_zero, add_zero, entry]
      rfl

theorem calm_of_registered (tracked : Tracked s) (found : s.requests[i]? = some r)
    (open_ : r.phase = .registered) : s.removing r.guard.flowId = 0 := by
  by_contra busy
  exact registered_pos found open_ (tracked.alone _ busy)

theorem lookup_of_registered (tracked : Tracked s) (found : s.requests[i]? = some r)
    (open_ : r.phase = .registered) :
    s.tracker.lookup r.guard.flowId =
      some ⟨s.estimated r.guard.flowId, s.delivered r.guard.flowId⟩ := by
  rw [tracked.entries _ (calm_of_registered tracked found open_), State.entry,
    if_neg (registered_pos found open_)]

theorem lookup_insert_of_ne (other : g ≠ f) (entry : ProgressEntry) :
    AList.lookup g (tracker.insert f entry) = tracker.lookup g := by
  rw [Assoc.lookup_insert, if_neg other]

theorem tracked_deliver (tracked : Tracked s) (found : s.requests[i]? = some r)
    (open_ : r.phase = .registered) {count : Int} (sound : Sound arith s (.deliver i count)) :
    Tracked (deliver arith s i r count) := by
  obtain ⟨own, whole⟩ := sound r found
  have calm := calm_of_registered tracked found open_
  have cell := tracked.cells r (List.mem_of_getElem? found)
  have writes : s.tracker.updateDelivered arith r.guard.flowId count =
      s.tracker.insert r.guard.flowId
        ⟨s.estimated r.guard.flowId, s.delivered r.guard.flowId + count⟩ := by
    simp only [FlowProgressTracker.updateDelivered, lookup_of_registered tracked found open_, whole]
  unfold deliver
  rw [writes]
  generalize changed : ({ r with
    guard := r.guard.addDeliveredTokens arith count, delivered := r.delivered + count } : Request) = r'
  have flow : r'.guard.flowId = r.guard.flowId := by rw [← changed]; rfl
  have open' : r'.phase = .registered := by rw [← changed]; exact open_
  have estimate : r'.guard.estimatedCost = r.guard.estimatedCost := by rw [← changed]; rfl
  have total : r'.delivered = r.delivered + count := by rw [← changed]
  have mine' : r'.isOf r.guard.flowId = true := isOf_iff.mpr ⟨flow, open'⟩
  obtain ⟨registered, removing, estimated, delivered⟩ := set_row
    (s.tracker.insert r.guard.flowId
      ⟨s.estimated r.guard.flowId, s.delivered r.guard.flowId + count⟩) found r' r.guard.flowId
  simp only [isOf_self open_, mine', isRemoving_of_registered open_,
    isRemoving_of_registered open', estimate, total, if_true, Bool.false_eq_true, if_false,
    add_zero, add_left_inj] at registered removing estimated delivered
  apply tracked_set tracked found r' flow
  · rw [← changed]
    change arith.store (r.guard.deliveredTokens + count) = r.delivered + count
    rw [cell, own]
  · exact fun g other => lookup_insert_of_ne other _
  · intro busy
    exact absurd (removing.trans calm) busy
  · intro _
    have sum : State.delivered ⟨s.tracker.insert r.guard.flowId
        ⟨s.estimated r.guard.flowId, s.delivered r.guard.flowId + count⟩, s.requests.set i r'⟩
        r.guard.flowId = s.delivered r.guard.flowId + count := by omega
    rw [Assoc.lookup_insert, if_pos rfl, State.entry, registered,
      if_neg (registered_pos found open_), estimated, sum]

theorem tracked_drop (tracked : Tracked s) (found : s.requests[i]? = some r)
    (open_ : r.phase = .registered) (sound : Sound arith s (.drop i)) :
    Tracked (drop arith s i r) := by
  obtain ⟨storedEst, storedDel, others⟩ := sound r found
  have calm := calm_of_registered tracked found open_
  have cell := tracked.cells r (List.mem_of_getElem? found)
  have positive := registered_pos found open_
  have lookup := lookup_of_registered tracked found open_
  by_cases nothing : s.estimated r.guard.flowId = r.guard.estimatedCost ∧
      s.delivered r.guard.flowId = r.delivered
  · -- Nothing is left of the sums: the entry stays until the second access.
    have decided : s.tracker.release arith r.guard.flowId r.guard.estimatedCost
        r.guard.deliveredTokens = (s.tracker, true) := by
      simp only [FlowProgressTracker.release, lookup, cell, storedEst, storedDel]
      rw [if_pos (by omega)]
    unfold drop
    simp only [decided, if_true]
    obtain ⟨registered, removing, -, -⟩ :=
      set_row s.tracker found { r with phase := .removing } r.guard.flowId
    rw [isOf_self open_, isOf_phase (by simp)] at registered
    rw [isRemoving_of_registered open_, isRemoving_phase] at removing
    simp only [if_true, decide_true, Bool.false_eq_true, if_false, add_zero] at registered removing
    apply tracked_set tracked found { r with phase := .removing } rfl cell
    · exact fun _ _ => rfl
    · intro _
      have few : ¬ 2 ≤ s.registered r.guard.flowId := fun many => others many nothing
      omega
    · intro none_
      omega
  · have decided : s.tracker.release arith r.guard.flowId r.guard.estimatedCost
        r.guard.deliveredTokens = (s.tracker.insert r.guard.flowId
          ⟨s.estimated r.guard.flowId - r.guard.estimatedCost,
            s.delivered r.guard.flowId - r.delivered⟩, false) := by
      simp only [FlowProgressTracker.release, lookup, cell, storedEst, storedDel]
      rw [if_neg (by omega)]
    unfold drop
    simp only [decided, Bool.false_eq_true, if_false]
    obtain ⟨registered, removing, estimated, delivered⟩ := set_row (s.tracker.insert r.guard.flowId
      ⟨s.estimated r.guard.flowId - r.guard.estimatedCost,
        s.delivered r.guard.flowId - r.delivered⟩) found { r with phase := .gone } r.guard.flowId
    rw [isOf_self open_, isOf_phase (by simp)] at registered estimated delivered
    rw [isRemoving_of_registered open_, isRemoving_phase] at removing
    simp only [if_true, reduceCtorEq, decide_false, Bool.false_eq_true, if_false,
      add_zero] at registered removing estimated delivered
    apply tracked_set tracked found { r with phase := .gone } rfl cell
    · exact fun g other => lookup_insert_of_ne other _
    · intro busy
      exact absurd (removing.trans calm) busy
    · intro _
      rw [Assoc.lookup_insert, if_pos rfl, State.entry, if_neg, Option.some.injEq,
        ProgressEntry.mk.injEq]
      · omega
      · -- Without others there would be nothing left.
        intro none_
        have zeroEst := sum_eq_zero_of_registered none_ fun r => r.guard.estimatedCost
        have zeroDel := sum_eq_zero_of_registered none_ fun r => r.delivered
        rw [← State.estimated] at zeroEst
        rw [← State.delivered] at zeroDel
        exact nothing (by omega)

theorem tracked_remove (tracked : Tracked s) (found : s.requests[i]? = some r)
    (busy : r.phase = .removing) : Tracked (remove s i r) := by
  have mine : r.isRemoving r.guard.flowId = true := isRemoving_iff.mpr ⟨rfl, busy⟩
  have counted : 0 < s.removing r.guard.flowId :=
    List.countP_pos_iff.mpr ⟨r, List.mem_of_getElem? found, mine⟩
  have nobody := tracked.alone r.guard.flowId counted.ne'
  obtain ⟨registered, -, -, -⟩ :=
    set_row (s.tracker.erase r.guard.flowId) found { r with phase := .gone } r.guard.flowId
  have closed : r.isOf r.guard.flowId = false := by simp [Request.isOf, busy]
  rw [closed, isOf_phase (by simp), nobody] at registered
  simp only [Bool.false_eq_true, if_false, add_zero] at registered
  unfold remove
  apply tracked_set tracked found { r with phase := .gone } rfl
    (tracked.cells r (List.mem_of_getElem? found))
  · intro g other
    rw [Assoc.lookup_erase, if_neg other]
  · exact fun _ => registered
  · intro _
    rw [Assoc.lookup_erase, if_pos rfl, State.entry, if_pos registered]

theorem tracked_start : Tracked (machine arith).start :=
  ⟨by simp [machine], by simp [machine, State.removing],
    by simp [machine, State.entry, State.registered]⟩

/-- Everything a step can do. -/
theorem cases_of_next {t : State} {a : Action} {e} (step : next arith s a = some (t, e)) :
    (∃ f body, a = .create f body ∧ t = create arith s f body) ∨
      ∃ i r, s.requests[i]? = some r ∧
        ((∃ count, a = .deliver i count ∧ r.phase = .registered ∧ t = deliver arith s i r count) ∨
          (a = .drop i ∧ r.phase = .registered ∧ t = drop arith s i r) ∨
          (a = .remove i ∧ r.phase = .removing ∧ t = remove s i r)) := by
  cases a with
  | create f body =>
      obtain ⟨rfl, -⟩ := Prod.mk.inj (Option.some.inj step)
      exact .inl ⟨f, body, rfl, rfl⟩
  | deliver i count =>
      obtain ⟨r, found, rest⟩ := Option.bind_eq_some_iff.mp step
      split at rest
      · obtain ⟨rfl, -⟩ := Prod.mk.inj (Option.some.inj rest)
        exact .inr ⟨i, r, found, .inl ⟨count, rfl, ‹_›, rfl⟩⟩
      · cases rest
  | drop i =>
      obtain ⟨r, found, rest⟩ := Option.bind_eq_some_iff.mp step
      split at rest
      · obtain ⟨rfl, -⟩ := Prod.mk.inj (Option.some.inj rest)
        exact .inr ⟨i, r, found, .inr (.inl ⟨rfl, ‹_›, rfl⟩)⟩
      · cases rest
  | remove i =>
      obtain ⟨r, found, rest⟩ := Option.bind_eq_some_iff.mp step
      split at rest
      · obtain ⟨rfl, -⟩ := Prod.mk.inj (Option.some.inj rest)
        exact .inr ⟨i, r, found, .inr (.inr ⟨rfl, ‹_›, rfl⟩)⟩
      · cases rest

theorem tracked_next {t : State} {a : Action} {e} (tracked : Tracked s) (sound : Sound arith s a)
    (step : next arith s a = some (t, e)) : Tracked t := by
  rcases cases_of_next step with ⟨f, body, rfl, rfl⟩ | ⟨i, r, found, delivers | drops | removes⟩
  · exact tracked_create tracked sound
  · obtain ⟨count, rfl, open_, rfl⟩ := delivers
    exact tracked_deliver tracked found open_ sound
  · obtain ⟨rfl, open_, rfl⟩ := drops
    exact tracked_drop tracked found open_ sound
  · obtain ⟨rfl, busy, rfl⟩ := removes
    exact tracked_remove tracked found busy

theorem removing_of_quiet (quiet : s.Quiet) (f : FlowId) : s.removing f = 0 := by
  rw [State.removing, List.countP_eq_zero]
  intro r member busy
  exact quiet r member (isRemoving_iff.mp busy).2

/-- An estimate or a count of tokens that is not negative. -/
def Action.NonNegative : Action → Prop
  | .create _ body => 0 ≤ (extractMaxTokens body).asI64
  | .deliver _ count => 0 ≤ count
  | _ => True

/-- What the requests were told is not negative. -/
def NonNegative (s : State) : Prop :=
  ∀ r ∈ s.requests, 0 ≤ r.guard.estimatedCost ∧ 0 ≤ r.delivered

theorem nonNegative_set (all : NonNegative s) (tracker : FlowProgressTracker)
    (here : 0 ≤ r'.guard.estimatedCost ∧ 0 ≤ r'.delivered) :
    NonNegative ⟨tracker, s.requests.set i r'⟩ := by
  intro q member
  rcases List.mem_or_eq_of_mem_set member with old | rfl
  · exact all q old
  · exact here

theorem nonNegative_next {t : State} {a : Action} {e} (all : NonNegative s) (input : a.NonNegative)
    (step : next arith s a = some (t, e)) : NonNegative t := by
  rcases cases_of_next step with ⟨f, body, rfl, rfl⟩ | ⟨i, r, found, delivers | drops | removes⟩
  · intro r member
    rcases List.mem_append.mp member with old | new
    · exact all r old
    · rw [List.mem_singleton.mp new]
      exact ⟨input, le_rfl⟩
  · obtain ⟨count, rfl, -, rfl⟩ := delivers
    obtain ⟨estimate, delivered⟩ := all r (List.mem_of_getElem? found)
    exact nonNegative_set all _ ⟨estimate, Int.add_nonneg delivered input⟩
  · obtain ⟨rfl, -, rfl⟩ := drops
    exact nonNegative_set all _ (all r (List.mem_of_getElem? found))
  · obtain ⟨rfl, -, rfl⟩ := removes
    exact nonNegative_set all _ (all r (List.mem_of_getElem? found))

theorem sum_nonneg_of_shares {share : Request → Int} (shares : ∀ r ∈ s.requests, 0 ≤ share r)
    (f : FlowId) : 0 ≤ (s.requests.map fun r => if r.isOf f then share r else 0).sum := by
  apply List.sum_nonneg
  intro x member
  obtain ⟨r, inside, rfl⟩ := List.mem_map.mp member
  split
  · exact shares r inside
  · exact le_rfl

theorem entry_nonneg (all : NonNegative s) {entry : ProgressEntry} (found : s.entry f = some entry) :
    0 ≤ entry.estimated ∧ 0 ≤ entry.delivered := by
  unfold State.entry at found
  split at found
  · cases found
  · obtain rfl := Option.some.inj found
    exact ⟨sum_nonneg_of_shares (fun r inside => (all r inside).1) f,
      sum_nonneg_of_shares (fun r inside => (all r inside).2) f⟩

/-- After every run of sound steps, whenever nothing is in progress, the tracker has the
    sums of the registered requests and nothing else; they are not negative where no
    input is. -/
theorem progress_aggregates {arith : I64Arith} {ts} {s : State}
    (run : (machine arith).Exec (machine arith).start ts s)
    (sound : ∀ tr ∈ ts, Sound arith tr.pre tr.action) (quiet : s.Quiet) :
    (∀ f, s.tracker.lookup f = s.entry f) ∧
    ((∀ tr ∈ ts, tr.action.NonNegative) → ∀ f entry, s.tracker.lookup f = some entry →
      0 ≤ entry.estimated ∧ 0 ≤ entry.delivered) := by
  have tracked : Tracked s := run.invariant_within sound tracked_start tracked_next
  have same : ∀ f, s.tracker.lookup f = s.entry f :=
    fun f => tracked.entries f (removing_of_quiet quiet f)
  refine ⟨same, ?_⟩
  intro inputs f entry found
  have all : NonNegative s :=
    run.invariant_within inputs (by simp [NonNegative, machine]) nonNegative_next
  exact entry_nonneg all ((same f).symm.trans found)

def agentFlow : FlowId := ⟨"agent"⟩

/-- A body that asks for so many tokens. -/
def asking (tokens : ℚ) : RequestBody := .json (some (.number (.fin tokens)))

/-- Two requests of one flow, and the first one ends. -/
def twoRequests (first second : ℚ) : List Action :=
  [.create agentFlow (asking first), .create agentFlow (asking second), .deliver 1 20, .drop 0]

theorem progress_aggregates_two :
    ((machine .wrapping).after (twoRequests 100 50)).tracker.lookup agentFlow = some ⟨50, 20⟩ := by
  have run := (machine .wrapping).exec_after (twoRequests 100 50)
  have law := progress_aggregates run (by decide +kernel) (by decide +kernel)
  rw [law.1 agentFlow]
  decide +kernel

/-- A request that registers between the two accesses of a removal is forgotten too. -/
example : ((machine .wrapping).after [.create agentFlow (asking 5), .drop 0,
    .create agentFlow (asking 7), .remove 0]).tracker.lookup agentFlow = none := by decide +kernel

/-- The first of two requests that ask for nothing takes the entry with it. -/
theorem zero_estimates_lose_entry :
    ¬ ∀ ts s, (machine .wrapping).Exec (machine .wrapping).start ts s → s.Quiet →
      ∀ f, s.tracker.lookup f = s.entry f := by
  intro always
  have same := always _ _ ((machine .wrapping).exec_after
    [.create agentFlow (asking 0), .create agentFlow (asking 0), .drop 0, .remove 0])
    (by decide +kernel) agentFlow
  revert same
  decide +kernel

end Progress

end TinyLlb
