import TinyLlb.Runtime.Links

/-! # Who is treated as starved

One timestamp per flow decides about starvation. It is written by the admission
after it has left the lock under which it pushed its request, and cleared by
selections and cancellations of the flow. If nothing that matters falls between
a push and the write that belongs to it, the cell always holds the time of the
latest enqueue, or nothing once a request of the flow has been selected or
cancelled since. A selection in that gap clears the cell first, and the late
write leaves a time behind that belongs to nobody.
-/

namespace TinyLlb

variable {cfg : Config} {arith : I64Arith} {s s' : System} {action : Action} {event : Option Event}

/-- An enqueue, a selection or a cancellation of `f`. -/
def Event.touches (f : FlowId) : Event → Bool
  | .enqueued _ g _ => decide (g = f)
  | .selected selection _ => decide (selection.flowId = f)
  | .cancelled _ g _ => decide (g = f)
  | .capRead _ _ => false

def lastTouch (f : FlowId) (es : List Event) : Option Event :=
  (es.filter (Event.touches f)).getLast?

/-- The `enter` time of the latest enqueue of `f`, unless a request of `f` was
    selected or cancelled since. -/
def clock (f : FlowId) (es : List Event) : Option Instant :=
  match lastTouch f es with
  | some (.enqueued _ _ p) => some p.enqueuedAt
  | _ => none

/-- What phase 1 of `try_select` takes for starved. -/
def TreatedAsStarved (cfg : Config) (s : System) (f : FlowId) : Prop :=
  s.inner.queue f ≠ [] ∧ (isStarved (s.flow f) s.now cfg.scheduler.starvationTimeout).isSome = true

/-- What should be taken for starved, by the history `es` of the run. -/
def DueByHistory (cfg : Config) (es : List Event) (s : System) (f : FlowId) : Prop :=
  s.inner.queue f ≠ [] ∧ ∃ i p, lastTouch f es = some (.enqueued i f p) ∧
    cfg.scheduler.starvationTimeout < s.now.durationSince p.enqueuedAt

/-- The request is pushed and `enqueued_at` still to be written. -/
def Phase.unstamped : Phase → Bool
  | .inQueue _ .pushed _ => true
  | _ => false

/-- The admission has not returned and has not been dropped. -/
def Phase.inProgress : Phase → Bool
  | .entered | .atGate | .inQueue _ _ _ | .unwinding _ | .waking (some _) => true
  | .admitted _ | .waking none | .finished => false

/-- No selection falls between a push and its write of `enqueued_at`, and no
    enqueue or cancellation of the same flow does. -/
def stampedInTime (tr : Transition System Action Event) : Bool :=
  match tr.action with
  | .trySelect => tr.pre.admissions.all fun a => !a.phase.unstamped
  | .enqueue i | .dropGuard i =>
      tr.pre.admissions[i]?.all fun a =>
        tr.pre.admissions.all fun b => !b.phase.unstamped || decide (b.flowId ≠ a.flowId)
  | _ => true

theorem settled_of_stampedInTime (inTime : stampedInTime ⟨s, .trySelect, event, s'⟩ = true) :
    ∀ a ∈ s.admissions, a.phase.unstamped = false := by
  simpa [stampedInTime] using inTime

theorem sibling_of_stampedInTime {i : Nat} {a : Admission}
    (which : action = .enqueue i ∨ action = .dropGuard i)
    (inTime : stampedInTime ⟨s, action, event, s'⟩ = true) (found : s.admissions[i]? = some a) :
    ∀ b ∈ s.admissions, b.phase.unstamped = true → b.flowId ≠ a.flowId := by
  have apart : ∀ b ∈ s.admissions, b.phase.unstamped = false ∨ ¬ b.flowId = a.flowId := by
    rcases which with rfl | rfl <;> simpa [stampedInTime, found] using inTime
  intro b member open_
  cases apart b member with
  | inl closed => simp [closed] at open_
  | inr other => exact other

theorem lastTouch_snoc (f : FlowId) (es : List Event) (e : Event) :
    lastTouch f (es ++ [e]) = if e.touches f then some e else lastTouch f es := by
  unfold lastTouch
  rw [List.filter_append, List.getLast?_append]
  cases touched : e.touches f <;> simp [touched]

theorem clock_eq_some {f : FlowId} {es : List Event} {t : Instant} (h : clock f es = some t) :
    ∃ i p, lastTouch f es = some (.enqueued i f p) ∧ p.enqueuedAt = t := by
  unfold clock at h
  split at h
  · rename_i i g p found
    have member := List.mem_of_getLast? found
    obtain rfl : g = f := by simpa [Event.touches] using (List.mem_filter.mp member).2
    exact ⟨i, p, found, Option.some.inj h⟩
  · simp at h

theorem clock_of_enqueued {f : FlowId} {es : List Event} {i : Nat} {p : Pending}
    (h : lastTouch f es = some (.enqueued i f p)) : clock f es = some p.enqueuedAt := by
  unfold clock
  rw [h]

/-- The timestamp cells agree with the history, but for one write per flow that
    is still to come. -/
structure Clocked (s : System) (es : List Event) : Prop where
  stamped : ∀ f, (∀ a ∈ s.admissions, a.flowId = f → a.phase.unstamped = false) →
    (s.flow f).enqueuedAt = clock f es
  pushed : ∀ a ∈ s.admissions, a.phase.unstamped = true → clock a.flowId es = some a.enter
  alone : ∀ (i j : Nat) (a b : Admission), s.admissions[i]? = some a → s.admissions[j]? = some b →
    a.phase.unstamped = true → b.phase.unstamped = true → a.flowId = b.flowId → i = j
  latest : ∀ f i p, lastTouch f es = some (.enqueued i f p) → p ∈ s.inner.queue f

/-- The writes still to come are the same in both states. -/
structure SamePushes (s s' : System) : Prop where
  back : ∀ (i : Nat) (b : Admission), s'.admissions[i]? = some b → b.phase.unstamped = true →
    ∃ a, s.admissions[i]? = some a ∧ a.phase.unstamped = true ∧ a.flowId = b.flowId ∧
      a.enter = b.enter
  forth : ∀ a ∈ s.admissions, a.phase.unstamped = true →
    ∃ b ∈ s'.admissions, b.phase.unstamped = true ∧ b.flowId = a.flowId

namespace SamePushes

theorem of_eq (same : s'.admissions = s.admissions) : SamePushes s s' where
  back := by
    intro i b found open_
    rw [same] at found
    exact ⟨b, found, open_, rfl, rfl⟩
  forth := by
    intro a member open_
    exact ⟨a, same ▸ member, open_, rfl⟩

theorem of_set {i : Nat} {a : Admission} (phase : Phase) (found : s.admissions[i]? = some a)
    (kept : phase.unstamped = a.phase.unstamped)
    (same : s'.admissions = s.admissions.set i { a with phase }) : SamePushes s s' where
  back := by
    intro j b foundB open_
    rw [same, Slots.getElem?_set found] at foundB
    split at foundB
    · subst j
      obtain rfl := Option.some.inj foundB
      exact ⟨a, found, kept ▸ open_, rfl, rfl⟩
    · exact ⟨b, foundB, open_, rfl, rfl⟩
  forth := by
    intro b member open_
    obtain ⟨j, bound, rfl⟩ := List.getElem_of_mem member
    have row := Slots.getElem?_set found { a with phase } j
    rw [← same] at row
    split at row
    · subst j
      rw [List.getElem?_eq_getElem bound, Option.some.injEq] at found
      refine ⟨_, List.mem_of_getElem? row, ?_, by rw [found]⟩
      rw [found] at open_
      exact kept.trans open_
    · rw [List.getElem?_eq_getElem bound] at row
      exact ⟨_, List.mem_of_getElem? row, open_, rfl⟩

theorem settled (pushes : SamePushes s s') {f : FlowId}
    (after : ∀ a ∈ s'.admissions, a.flowId = f → a.phase.unstamped = false) :
    ∀ a ∈ s.admissions, a.flowId = f → a.phase.unstamped = false := by
  intro a member same
  by_contra unstamped
  obtain ⟨b, memberB, openB, flow⟩ := pushes.forth a member (by simpa using unstamped)
  have closed := after b memberB (flow.trans same)
  simp [closed] at openB

end SamePushes

namespace Clocked

variable {es : List Event}

theorem start (cfg : Config) : Clocked (System.start cfg) [] where
  stamped := fun _ _ => rfl
  pushed := by
    intro a member
    simp [System.start] at member
  alone := by
    intro i j a b found
    simp [System.start] at found
  latest := by
    intro f i p found
    simp [lastTouch] at found

theorem alone_after (clocked : Clocked s es) (pushes : SamePushes s s') (i j : Nat) (a b : Admission)
    (foundA : s'.admissions[i]? = some a) (foundB : s'.admissions[j]? = some b)
    (openA : a.phase.unstamped = true) (openB : b.phase.unstamped = true)
    (same : a.flowId = b.flowId) : i = j := by
  obtain ⟨a', oldA, openA', flowA, -⟩ := pushes.back i a foundA openA
  obtain ⟨b', oldB, openB', flowB, -⟩ := pushes.back j b foundB openB
  exact clocked.alone i j a' b' oldA oldB openA' openB' (flowA.trans (same.trans flowB.symm))

theorem frame (clocked : Clocked s es) (event : Option Event) (pushes : SamePushes s s')
    (cells : ∀ f, (s'.flow f).enqueuedAt = (s.flow f).enqueuedAt)
    (queue : s'.inner.queue = s.inner.queue)
    (silent : ∀ f, lastTouch f (es ++ event.toList) = lastTouch f es) :
    Clocked s' (es ++ event.toList) := by
  have clocks : ∀ f, clock f (es ++ event.toList) = clock f es := by
    intro f
    simp only [clock, silent]
  refine ⟨?_, ?_, ?_, ?_⟩
  · intro f settled
    rw [cells, clocks]
    exact clocked.stamped f (pushes.settled settled)
  · intro b member open_
    obtain ⟨i, bound, rfl⟩ := List.getElem_of_mem member
    obtain ⟨a, found, openA, flow, enter⟩ :=
      pushes.back i _ (List.getElem?_eq_getElem bound) open_
    rw [clocks, ← flow, ← enter]
    exact clocked.pushed a (List.mem_of_getElem? found) openA
  · exact clocked.alone_after pushes
  · intro f i p found
    rw [silent] at found
    rw [queue]
    exact clocked.latest f i p found

theorem quiet (clocked : Clocked s es) (pushes : SamePushes s s')
    (cells : ∀ f, (s'.flow f).enqueuedAt = (s.flow f).enqueuedAt)
    (queue : s'.inner.queue = s.inner.queue) : Clocked s' (es ++ (none : Option Event).toList) :=
  clocked.frame none pushes cells queue (fun f => by simp)

theorem clear (clocked : Clocked s es) (pushes : SamePushes s s') {g : FlowId} {e : Event}
    (touch : ∀ f, e.touches f = decide (g = f)) (other : ∀ i f p, e ≠ .enqueued i f p)
    (inTime : ∀ b ∈ s.admissions, b.phase.unstamped = true → b.flowId ≠ g)
    (cell : (s'.flow g).enqueuedAt = none)
    (cells : ∀ f, f ≠ g → (s'.flow f).enqueuedAt = (s.flow f).enqueuedAt)
    (queue : ∀ f, f ≠ g → s'.inner.queue f = s.inner.queue f) : Clocked s' (es ++ [e]) := by
  have last : ∀ f, lastTouch f (es ++ [e]) = if g = f then some e else lastTouch f es := by
    intro f
    simp only [lastTouch_snoc, touch, decide_eq_true_eq]
  have cleared : clock g (es ++ [e]) = none := by
    unfold clock
    rw [last, if_pos rfl]
    cases e with
    | enqueued i f p => exact absurd rfl (other i f p)
    | capRead | selected | cancelled => rfl
  have clocks : ∀ f, f ≠ g → clock f (es ++ [e]) = clock f es := by
    intro f different
    simp only [clock, last, different.symm, if_false]
  refine ⟨?_, ?_, ?_, ?_⟩
  · intro f settled
    by_cases same : f = g
    · subst f
      rw [cell, cleared]
    · rw [cells f same, clocks f same]
      exact clocked.stamped f (pushes.settled settled)
  · intro b member open_
    obtain ⟨i, bound, rfl⟩ := List.getElem_of_mem member
    obtain ⟨a, found, openA, flow, enter⟩ :=
      pushes.back i _ (List.getElem?_eq_getElem bound) open_
    have different := inTime a (List.mem_of_getElem? found) openA
    rw [← flow, ← enter, clocks _ different]
    exact clocked.pushed a (List.mem_of_getElem? found) openA
  · exact clocked.alone_after pushes
  · intro f i p found
    rw [last] at found
    split at found
    · exact absurd (Option.some.inj found) (other i f p)
    · rename_i different
      rw [queue f (fun same => different same.symm)]
      exact clocked.latest f i p found

theorem settled_of_set {i : Nat} {a c : Admission} {table : List Admission} {f : FlowId}
    (found : s.admissions[i]? = some a)
    (rows : ∀ j : Nat, table[j]? = if j = i then some c else s.admissions[j]?)
    (different : f ≠ a.flowId)
    (after : ∀ b ∈ table, b.flowId = f → b.phase.unstamped = false) :
    ∀ b ∈ s.admissions, b.flowId = f → b.phase.unstamped = false := by
  intro b member flow
  obtain ⟨j, bound, rfl⟩ := List.getElem_of_mem member
  have row := rows j
  split at row
  · subst j
    rw [List.getElem?_eq_getElem bound, Option.some.injEq] at found
    exact absurd (found ▸ flow).symm different
  · rw [List.getElem?_eq_getElem bound] at row
    exact after _ (List.mem_of_getElem? row) flow

theorem enqueue (clocked : Clocked s es) {i : Nat} {a : Admission}
    (found : s.admissions[i]? = some a)
    (inTime : ∀ b ∈ s.admissions, b.phase.unstamped = true → b.flowId ≠ a.flowId) :
    Clocked (s.enqueue i a)
      (es ++ [.enqueued i a.flowId ⟨s.inner.nextPendingId, i, a.enter, a.workUnit⟩]) := by
  have rows : ∀ j : Nat, (s.enqueue i a).admissions[j]? = if j = i then
      some { a with phase := .inQueue s.inner.nextPendingId .pushed none }
      else s.admissions[j]? := Slots.getElem?_set found _
  have last : ∀ f, lastTouch f
      (es ++ [.enqueued i a.flowId ⟨s.inner.nextPendingId, i, a.enter, a.workUnit⟩]) =
      if a.flowId = f then
        some (.enqueued i a.flowId ⟨s.inner.nextPendingId, i, a.enter, a.workUnit⟩)
      else lastTouch f es := by
    intro f
    simp only [lastTouch_snoc, Event.touches, decide_eq_true_eq]
  have clocks : ∀ f, f ≠ a.flowId → clock f
      (es ++ [.enqueued i a.flowId ⟨s.inner.nextPendingId, i, a.enter, a.workUnit⟩]) =
      clock f es := by
    intro f different
    simp only [clock, last, different.symm, if_false]
  -- An admission that waits to write is the new one, or an old one of another flow.
  have pushes : ∀ (j : Nat) (b : Admission), (s.enqueue i a).admissions[j]? = some b →
      b.phase.unstamped = true →
      (j = i ∧ b = { a with phase := .inQueue s.inner.nextPendingId .pushed none }) ∨
        (s.admissions[j]? = some b ∧ b.flowId ≠ a.flowId) := by
    intro j b foundB open_
    rw [rows] at foundB
    split at foundB
    · exact .inl ⟨‹_›, (Option.some.inj foundB).symm⟩
    · exact .inr ⟨foundB, inTime b (List.mem_of_getElem? foundB) open_⟩
  refine ⟨?_, ?_, ?_, ?_⟩
  · intro f settled
    have different : f ≠ a.flowId := by
      rintro rfl
      have row := rows i
      rw [if_pos rfl] at row
      have closed := settled _ (List.mem_of_getElem? row) rfl
      simp [Phase.unstamped] at closed
    rw [clocks f different]
    exact clocked.stamped f (settled_of_set found rows different settled)
  · intro b member open_
    obtain ⟨j, bound, rfl⟩ := List.getElem_of_mem member
    cases pushes j _ (List.getElem?_eq_getElem bound) open_ with
    | inl new =>
        rw [new.2]
        simp only [clock, last, if_true]
    | inr old =>
        rw [clocks _ old.2]
        exact clocked.pushed _ (List.mem_of_getElem? old.1) open_
  · intro j k b c foundB foundC openB openC same
    cases pushes j b foundB openB with
    | inl newB =>
        cases pushes k c foundC openC with
        | inl newC => exact newB.1.trans newC.1.symm
        | inr oldC => exact absurd (same.symm.trans (congrArg Admission.flowId newB.2)) oldC.2
    | inr oldB =>
        cases pushes k c foundC openC with
        | inl newC => exact absurd (same.trans (congrArg Admission.flowId newC.2)) oldB.2
        | inr oldC => exact clocked.alone j k b c oldB.1 oldC.1 openB openC same
  · intro f j p touched
    rw [last] at touched
    have queue : (s.enqueue i a).inner.queue f = _ := DrrState.queue_enqueue _ _ _ _ _ f
    rw [queue]
    split at touched
    · rename_i same
      simp only [Option.some.injEq, Event.enqueued.injEq] at touched
      obtain ⟨-, -, rfl⟩ := touched
      simp [same]
    · rename_i different
      have other : ¬ f = a.flowId := fun h => different h.symm
      rw [if_neg other]
      exact clocked.latest f j p touched

theorem stamp (clocked : Clocked s es) {i : Nat} {a : Admission} {pendingId : Nat}
    {slot : Option Ticket} (found : s.admissions[i]? = some a)
    (phase : a.phase = .inQueue pendingId .pushed slot) :
    Clocked (s.stamp i a pendingId slot) es := by
  have rows : ∀ j : Nat, (s.stamp i a pendingId slot).admissions[j]? = if j = i then
      some { a with phase := .inQueue pendingId .stamped slot } else s.admissions[j]? :=
    Slots.getElem?_set found _
  have unwritten : a.phase.unstamped = true := by simp [phase, Phase.unstamped]
  have cell : ∀ f, ((s.stamp i a pendingId slot).flow f).enqueuedAt =
      if f = a.flowId then some a.enter else (s.flow f).enqueuedAt := by
    intro f
    have written := System.flow_modifyFlow (s.setPhase i a (.inQueue pendingId .stamped slot))
      a.flowId (fun flow => flow.setEnqueuedAt (some a.enter)) f
    change ((System.modifyFlow _ _ _).flow f).enqueuedAt = _
    rw [written]
    split <;> rfl
  have old : ∀ (j : Nat) (b : Admission), (s.stamp i a pendingId slot).admissions[j]? = some b →
      b.phase.unstamped = true → s.admissions[j]? = some b := by
    intro j b foundB open_
    rw [rows] at foundB
    split at foundB
    · obtain rfl := Option.some.inj foundB
      simp [Phase.unstamped] at open_
    · exact foundB
  refine ⟨?_, ?_, ?_, clocked.latest⟩
  · intro f settled
    rw [cell]
    split
    · rename_i same
      subst f
      exact (clocked.pushed a (List.mem_of_getElem? found) unwritten).symm
    · rename_i different
      exact clocked.stamped f (settled_of_set found rows different settled)
  · intro b member open_
    obtain ⟨j, bound, rfl⟩ := List.getElem_of_mem member
    have before := old j _ (List.getElem?_eq_getElem bound) open_
    exact clocked.pushed _ (List.mem_of_getElem? before) open_
  · intro j k b c foundB foundC openB openC same
    exact clocked.alone j k b c (old j b foundB openB) (old k c foundC openC) openB openC same

theorem round (clocked : Clocked s es) {env : SelectEnv} {r : Round}
    (spec : RoundSpec env s.registry s.inner r) {forced : Bool}
    (inTime : ∀ a ∈ s.admissions, a.phase.unstamped = false) :
    Clocked (s.afterRound r)
      (es ++ (r.selection.map fun selection => Event.selected selection forced).toList) := by
  cases spec with
  | atCap | nobody | barren => exact clocked.quiet (.of_eq rfl) (fun _ => rfl) rfl
  | @forced g _ p rest t _ _ served | @regular g p rest t _ _ _ _ served =>
      refine clocked.clear (g := g) (e := .selected ⟨g, p, p.workUnit⟩ forced) ?_ (fun _ => rfl)
        (by simp) ?_ ?_ ?_ ?_
      · exact .of_eq rfl
      · intro b member open_
        simp [inTime b member] at open_
      · change ((TrySelect.debit env s.registry g p).getOrCreate g).enqueuedAt = none
        rw [TrySelect.debit, FlowRegistry.getOrCreate_modify, if_pos rfl]
      · intro f different
        change ((TrySelect.debit env s.registry g p).getOrCreate f).enqueuedAt = _
        rw [TrySelect.debit, FlowRegistry.getOrCreate_modify, if_neg different]
        rfl
      · intro f different
        change t.queue f = _
        rw [served.queue, if_neg different]

theorem dropGuard (clocked : Clocked s es) {i : Nat} {a : Admission} {pendingId : Option Nat}
    {removed : List Pending} (found : s.admissions[i]? = some a)
    (phase : a.phase = .unwinding pendingId)
    (inTime : ∀ b ∈ s.admissions, b.phase.unstamped = true → b.flowId ≠ a.flowId) :
    Clocked (s.dropGuard i a pendingId) (es ++ [.cancelled i a.flowId removed]) := by
  have released : ∀ f, ((s.setPhase i a .finished).releaseGuard a.flowId |>.flow f).enqueuedAt =
      (s.flow f).enqueuedAt := fun f =>
    System.field_modifyFlow Flow.enqueuedAt Flow.decDepth (fun _ => rfl)
      (s.setPhase i a .finished) a.flowId f
  have cleared := System.flow_modifyFlow ((s.setPhase i a .finished).releaseGuard a.flowId)
    a.flowId (fun flow => flow.setEnqueuedAt none)
  refine clocked.clear (g := a.flowId)
    (.of_set .finished found (by simp [phase, Phase.unstamped]) rfl)
    (fun _ => rfl) (by simp) inTime ?_ ?_ ?_
  · change ((System.modifyFlow _ _ _).flow a.flowId).enqueuedAt = none
    rw [cleared, if_pos rfl]
    rfl
  · intro f different
    change ((System.modifyFlow _ _ _).flow f).enqueuedAt = _
    rw [cleared, if_neg different]
    exact released f
  · intro f different
    have queue : (s.dropGuard i a pendingId).inner.queue f = _ := DrrState.queue_dropGuard _ _ _ f
    rw [queue, if_neg different]

theorem next (clocked : Clocked s es) (step : Step cfg arith s action event s')
    (inTime : stampedInTime ⟨s, action, event, s'⟩ = true) : Clocked s' (es ++ event.toList) := by
  cases step with
  | enqueue found phase =>
      exact clocked.enqueue found (sibling_of_stampedInTime (.inl rfl) inTime found)
  | stamp found phase => simpa using clocked.stamp found phase
  | dropGuard found phase =>
      exact clocked.dropGuard found phase (sibling_of_stampedInTime (.inr rfl) inTime found)
  | round pc spec => exact clocked.round spec (settled_of_stampedInTime inTime)
  | @arrive f workUnit _ =>
      refine clocked.quiet ⟨?_, ?_⟩ (System.field_modifyFlow _ id (fun _ => rfl) s f) rfl
      · intro i b found open_
        simp only [System.arrive, List.getElem?_append] at found
        split at found
        · exact ⟨b, found, open_, rfl, rfl⟩
        · obtain rfl := List.mem_singleton.mp (List.mem_of_getElem? found)
          simp [Phase.unstamped] at open_
      · intro a member open_
        exact ⟨a, List.mem_append_left _ member, open_, rfl⟩
  | @createGuard i a found phase =>
      exact clocked.quiet (.of_set _ found (by simp [phase, Phase.unstamped]) rfl)
        (System.field_modifyFlow _ Flow.incDepth (fun _ => rfl) (s.setPhase i a .atGate) a.flowId) rfl
  | notify found phase =>
      exact clocked.quiet (.of_set _ found (by simp [phase, Phase.unstamped]) rfl) (fun _ => rfl) rfl
  | @receive i a pendingId since ticket found phase =>
      refine clocked.quiet (.of_set _ found (by simp [phase, Phase.unstamped]) rfl) ?_ rfl
      intro f
      have up := System.field_modifyFlow Flow.enqueuedAt Flow.incActive
        (fun _ => rfl) ((s.setPhase i a (.admitted ticket)).releaseGuard a.flowId) a.flowId f
      have released := System.field_modifyFlow Flow.enqueuedAt Flow.decDepth
        (fun _ => rfl) (s.setPhase i a (.admitted ticket)) a.flowId f
      exact up.trans released
  | leaveGate found phase =>
      exact clocked.quiet (.of_set _ found (by simp [phase, Phase.unstamped]) rfl) (fun _ => rfl) rfl
  | @closeReceiver _ i a pendingId since slot _ found phase =>
      cases slot with
      | none =>
          exact clocked.quiet (.of_set (.unwinding (some pendingId)) found
            (by simp [phase, Phase.unstamped]) rfl) (fun _ => rfl) rfl
      | some ticket =>
          exact clocked.quiet (.of_set (.waking (some pendingId)) found
            (by simp [phase, Phase.unstamped]) rfl)
            (System.field_modifyFlow _ Flow.decActive (fun _ => rfl) s ticket.flowId) rfl
  | @dropTicket i a ticket found phase =>
      exact clocked.quiet (.of_set (.waking none) found (by simp [phase, Phase.unstamped]) rfl)
        (System.field_modifyFlow _ Flow.decActive (fun _ => rfl) s ticket.flowId) rfl
  | @wake i a pendingId found phase =>
      refine clocked.quiet (.of_set _ found ?_ rfl) (fun _ => rfl) rfl
      cases pendingId <;> simp [phase, Phase.unstamped]
  | @sent selection a pendingId stage pc found phase =>
      refine clocked.quiet (.of_set _ found ?_ rfl) (fun _ => rfl) rfl
      cases stage <;> simp [phase, Phase.unstamped]
  | readCap =>
      refine clocked.frame (some _) (.of_eq rfl) (fun _ => rfl) rfl ?_
      intro f
      exact lastTouch_snoc f es _
  | register =>
      refine clocked.quiet (.of_eq rfl) ?_ rfl
      apply System.field_modifyFlow
      intro flow
      rfl
  | rejected =>
      exact clocked.quiet (.of_eq rfl) (System.field_modifyFlow _ id (fun _ => rfl) s _) rfl
  | setPriority | reportAccounting =>
      refine clocked.quiet (.of_eq rfl) ?_ rfl
      apply System.field_modifyFlow
      intro flow
      rfl
  | _ => exact clocked.quiet (.of_eq rfl) (fun _ => rfl) rfl

theorem of_run {ts} (run : (scheduler cfg arith).Exec (System.start cfg) ts s)
    (inTime : ∀ tr ∈ ts, stampedInTime tr = true) : Clocked s (Machine.events ts) := by
  induction run with
  | nil => exact start cfg
  | snoc before step ih =>
      have inv := SystemInv.reachable ⟨_, before⟩
      rw [Machine.events_append, Machine.events_singleton]
      exact (ih fun tr member => inTime tr (List.mem_append_left _ member)).next
        (inv.step_of_next step) (inTime _ (List.mem_append_right _ List.mem_cons_self))

/-- With every write made, the cell decides as the history does. -/
theorem starved_iff (clocked : Clocked s es)
    (settled : ∀ a ∈ s.admissions, a.phase.unstamped = false) (f : FlowId) :
    TreatedAsStarved cfg s f ↔ DueByHistory cfg es s f := by
  have cell := clocked.stamped f fun a member _ => settled a member
  unfold TreatedAsStarved DueByHistory isStarved
  refine and_congr_right fun _ => ?_
  constructor
  · intro starved
    rw [cell] at starved
    cases time : clock f es with
    | none => simp [time] at starved
    | some at_ =>
        obtain ⟨i, p, touched, rfl⟩ := clock_eq_some time
        refine ⟨i, p, touched, ?_⟩
        by_contra early
        simp [time, early] at starved
  · rintro ⟨i, p, touched, late⟩
    rw [cell, clock_of_enqueued touched]
    simp [late]

end Clocked

/-- In a run whose writes of `enqueued_at` all come in time, a flow is treated as
    starved exactly if it has a waiting request, nothing of it was selected or
    cancelled since its latest enqueue, and that lies further back than the
    timeout. A forced selection then serves a flow with a request that waited so
    long, and no time is left behind for a flow without admission in progress. -/
theorem starvation_law (cfg : Config) (arith : I64Arith) {ts s}
    (run : (scheduler cfg arith).Exec (System.start cfg) ts s)
    (inTime : ∀ tr ∈ ts, stampedInTime tr = true) :
    (∀ before tr after, ts = before ++ tr :: after → tr.action = .trySelect →
      ∀ f, TreatedAsStarved cfg tr.pre f ↔ DueByHistory cfg (Machine.events before) tr.pre f) ∧
      (∀ tr ∈ ts, ∀ selection, tr.event = some (.selected selection true) →
        ∃ p ∈ tr.pre.inner.queue selection.flowId,
          cfg.scheduler.starvationTimeout < tr.pre.now.durationSince p.enqueuedAt) ∧
      ∀ f, (∀ a ∈ s.admissions, a.flowId = f → a.phase.inProgress = false) →
        (s.flow f).enqueuedAt = none := by
  have law : ∀ before tr after, ts = before ++ tr :: after → tr.action = .trySelect →
      ∀ f, TreatedAsStarved cfg tr.pre f ↔
        DueByHistory cfg (Machine.events before) tr.pre f := by
    rintro before tr after rfl selecting f
    obtain ⟨first, -, -⟩ := run.split_at
    have clocked := Clocked.of_run first fun tr' member => inTime tr' (by simp [member])
    have settled := inTime tr (by simp)
    obtain ⟨pre, action, event, post⟩ := tr
    obtain rfl : action = .trySelect := selecting
    exact clocked.starved_iff (settled_of_stampedInTime settled) f
  refine ⟨law, ?_, ?_⟩
  · intro tr member selection emitted
    obtain ⟨before, after, rfl, first, -⟩ := run.split_of_mem member
    have inv := SystemInv.reachable ⟨before, first⟩
    obtain ⟨cap, r, selecting, -, spec, selected, forced, -⟩ :=
      (step_of_run run member).2.of_selected emitted
    have starved : TreatedAsStarved cfg tr.pre selection.flowId := by
      cases spec with
      | atCap | nobody | barren => simp at selected
      | regular => simp at forced
      | @forced g wait p rest t under found served =>
          obtain rfl := Option.some.inj selected
          obtain ⟨inCursor, waited⟩ := mem_of_firstStarved found
          refine ⟨inv.repInv.mem_cursor_iff.mp inCursor, ?_⟩
          have shown : isStarved (tr.pre.flow g) tr.pre.now cfg.scheduler.starvationTimeout =
            some wait := waited
          simp [shown]
    obtain ⟨-, i, p, touched, late⟩ :=
      (law before tr after rfl selecting selection.flowId).mp starved
    have clocked := Clocked.of_run first fun tr' member' => inTime tr' (by simp [member'])
    exact ⟨p, clocked.latest _ i p touched, late⟩
  · intro f idle
    have clocked := Clocked.of_run run inTime
    have links := Links.reachable ⟨ts, run⟩
    have cell := clocked.stamped f fun a member same => by
      have done := idle a member same
      cases phase : a.phase <;> simp [phase, Phase.inProgress, Phase.unstamped] at done ⊢
    rw [cell]
    cases time : clock f (Machine.events ts) with
    | none => rfl
    | some at_ =>
        -- The latest enqueue is still queued, so its admission is under way.
        obtain ⟨i, p, touched, -⟩ := clock_eq_some time
        obtain ⟨a, found, waits⟩ := links.queued f p (clocked.latest f i p touched)
        have done := idle a (List.mem_of_getElem? found) waits.flow
        have awaits := waits.awaits
        cases phase : a.phase <;> simp [phase, Phase.inProgress, Phase.Awaits] at done awaits

/-- `a` waits for the only permit until it is starved. -/
def waitsTooLong : List Action :=
  sendOne ⟨"b"⟩ (.fin 1) 0 ++
    [.receive 0, .readCap, .readState, .arrive ⟨"a"⟩ (.fin 10), .createGuard 1, .enqueue 1,
      .stamp 1, .notify 1, .tick (Duration.fromSecs 301), .dropTicket 0, .wake 0, .wakeNotified,
      .readCap, .readState, .trySelect]

theorem starvation_law_forced :
    let m := scheduler Config.onePermit .wrapping
    let ts := m.trace waitsTooLong
    Event.selected ⟨⟨"a"⟩, ⟨1, 1, 0, .fin 10⟩, .fin 10⟩ true ∈ Machine.events ts ∧
      ∀ tr ∈ ts, ∀ selection, tr.event = some (.selected selection true) →
        ∃ p ∈ tr.pre.inner.queue selection.flowId,
          Duration.fromSecs 300 < tr.pre.now.durationSince p.enqueuedAt := by
  refine ⟨by decide +kernel, ?_⟩
  exact (starvation_law Config.onePermit .wrapping (Machine.exec_after _ waitsTooLong)
    (by decide +kernel)).2.1

/-- The loop selects the request of `a` before its `enqueued_at` is written. When
    the next request of `a` arrives, much later, the loop looks at it before it
    has written its own time. -/
def writesLate : List Action :=
  [.arrive ⟨"a"⟩ (.fin 1), .createGuard 0, .enqueue 0,
    .arrive ⟨"x"⟩ (.fin 1), .createGuard 1, .enqueue 1, .stamp 1, .notify 1,
    .wakeNotified, .readCap, .readState, .trySelect, .send,
    .stamp 0, .notify 0, .receive 0, .dropTicket 0, .wake 0,
    .readCap, .readState, .trySelect, .send, .receive 1, .readCap, .readState,
    .tick (Duration.fromSecs 301),
    .arrive ⟨"a"⟩ (.fin 1), .createGuard 2, .enqueue 2, .wakeNotified, .readCap, .readState]

/-- A request that has not waited at all is treated as starved and served as
    such; before it arrived, a time was left in the cell of a flow without any
    admission in progress. -/
theorem starvation_by_stale_time :
    let m := scheduler .default .wrapping
    let s := m.after writesLate
    (TreatedAsStarved .default s ⟨"a"⟩ ∧
      ¬ DueByHistory .default (Machine.events (m.trace writesLate)) s ⟨"a"⟩) ∧
    (Event.selected ⟨⟨"a"⟩, ⟨2, 2, Duration.fromSecs 301, .fin 1⟩, .fin 1⟩ true ∈
        Machine.events (m.trace (writesLate ++ [.trySelect])) ∧
      ∀ p ∈ s.inner.queue ⟨"a"⟩, s.now.durationSince p.enqueuedAt = 0) ∧
    let before := m.after (writesLate.take 26)
    (∀ a ∈ before.admissions, a.flowId = ⟨"a"⟩ → a.phase.inProgress = false) ∧
      (before.flow ⟨"a"⟩).enqueuedAt = some 0 := by
  refine ⟨⟨?_, ?_⟩, ?_, ?_⟩
  · unfold TreatedAsStarved
    decide +kernel
  · rintro ⟨-, i, p, touched, late⟩
    have last : lastTouch ⟨"a"⟩ (Machine.events ((scheduler .default .wrapping).trace writesLate)) =
        some (.enqueued 2 ⟨"a"⟩ ⟨2, 2, Duration.fromSecs 301, .fin 1⟩) := by decide +kernel
    rw [last] at touched
    obtain ⟨-, -, rfl⟩ := Event.enqueued.inj (Option.some.inj touched)
    revert late
    decide +kernel
  · decide +kernel
  · decide +kernel

end TinyLlb
