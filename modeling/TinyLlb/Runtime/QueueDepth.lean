import TinyLlb.Runtime.Permits

/-! # Admit guards and the depth counters

A `DrrAdmitGuard` raises the depth of its flow and appends the flow to
`waiting_queue` when it is made; `consume`, or else its drop, takes both back. A
guard lives from its creation at the gate up to the receipt of the ticket or to
the end of the unwinding, whichever way the call ends. A channel that its sender
has closed ends the call like a cancellation that finds the channel empty.

`GuardChange` says everything a step can do to guards, depths and the queue. The
order of `waiting_queue` and the depth gauge rest on it as well.
-/

namespace TinyLlb

variable {cfg : Config} {arith : I64Arith} {s s' : System} {action : Action} {event : Option Event}

/-- The guard of one call of `admit`. -/
inductive GuardState where
  | absent
  | live (flowId : FlowId)
  | gone
  deriving DecidableEq

namespace GuardState

def flow? : GuardState → Option FlowId
  | .live f => some f
  | _ => none

/-- How often the guard has raised a depth. -/
def raised : GuardState → Nat
  | .absent => 0
  | _ => 1

/-- How often it has lowered one. -/
def lowered : GuardState → Nat
  | .gone => 1
  | _ => 0

theorem flow?_eq_some {g : GuardState} {f : FlowId} : g.flow? = some f ↔ g = .live f := by
  cases g <;> simp [flow?]

end GuardState

def Admission.guard (a : Admission) : GuardState :=
  match a.phase with
  | .entered => .absent
  | .atGate | .inQueue _ _ _ | .unwinding _ | .waking (some _) => .live a.flowId
  | .admitted _ | .waking none | .finished => .gone

namespace System

/-- The guard of the call with number `i`; a call still to come has none. -/
def guardOf (s : System) (i : Nat) : GuardState :=
  ((s.admissions[i]?).map Admission.guard).getD .absent

/-- The flow of that call. -/
def flowOf (s : System) (i : Nat) : Option FlowId := (s.admissions[i]?).map Admission.flowId

/-- The flows of the live guards, with repetitions. -/
def guardFlows (s : System) : List FlowId := s.admissions.filterMap fun a => a.guard.flow?

def liveGuards (s : System) (f : FlowId) : Nat := s.guardFlows.count f

theorem guardOf_of_found {i : Nat} {a : Admission} (found : s.admissions[i]? = some a) :
    s.guardOf i = a.guard := by
  simp [guardOf, found]

theorem flowOf_of_found {i : Nat} {a : Admission} (found : s.admissions[i]? = some a) :
    s.flowOf i = some a.flowId := by
  simp [flowOf, found]

theorem guardOf_set {i : Nat} {a : Admission} (found : s.admissions[i]? = some a) {phase : Phase}
    (admissions : s'.admissions = s.admissions.set i { a with phase }) (j : Nat) :
    s'.guardOf j = if j = i then Admission.guard { a with phase } else s.guardOf j := by
  unfold guardOf
  rw [admissions, Slots.getElem?_set found]
  split <;> rfl

end System

/-- The call whose guard an action creates. -/
def Action.opens? : Action → Option Nat
  | .createGuard i => some i
  | _ => none

/-- The call whose guard an action consumes or drops. -/
def Action.closes? : Action → Option Nat
  | .receive i => some i
  | .dropGuard i => some i
  | _ => none

/-- What a step does to guards, depths and the waiting queue. -/
inductive GuardChange (s : System) (action : Action) (s' : System) : Prop where
  | opened (i : Nat) (f : FlowId) (which : action.opens? = some i) (other : action.closes? = none)
      (flow : s.flowOf i = some f) (before : s.guardOf i = .absent)
      (after : ∀ j, s'.guardOf j = if j = i then .live f else s.guardOf j)
      (flows : s'.guardFlows.Perm (f :: s.guardFlows))
      (depth : ∀ g, (s'.flow g).depth = if g = f then (s.flow g).depth + 1 else (s.flow g).depth)
      (queue : s'.waitingQueue = s.waitingQueue ++ [f])
  | closed (i : Nat) (f : FlowId) (which : action.closes? = some i) (other : action.opens? = none)
      (flow : s.flowOf i = some f) (before : s.guardOf i = .live f)
      (after : ∀ j, s'.guardOf j = if j = i then .gone else s.guardOf j)
      (flows : s.guardFlows.Perm (f :: s'.guardFlows))
      (depth : ∀ g, (s'.flow g).depth = if g = f then (s.flow g).depth - 1 else (s.flow g).depth)
      (queue : s'.waitingQueue = s.waitingQueue.erase f)
  | kept (opens : action.opens? = none) (closes : action.closes? = none)
      (guards : ∀ j, s'.guardOf j = s.guardOf j) (flows : s'.guardFlows = s.guardFlows)
      (depth : ∀ g, (s'.flow g).depth = (s.flow g).depth) (queue : s'.waitingQueue = s.waitingQueue)

namespace GuardChange

theorem advance {i : Nat} {a : Admission} (phase : Phase) (found : s.admissions[i]? = some a)
    (same : Admission.guard { a with phase } = a.guard)
    (admissions : s'.admissions = s.admissions.set i { a with phase })
    (opens : action.opens? = none) (closes : action.closes? = none)
    (depth : ∀ g, (s'.flow g).depth = (s.flow g).depth)
    (queue : s'.waitingQueue = s.waitingQueue) : GuardChange s action s' := by
  apply GuardChange.kept opens closes _ _ depth queue
  · intro j
    rw [System.guardOf_set found admissions j]
    split
    · subst j
      rw [same, System.guardOf_of_found found]
    · rfl
  · unfold System.guardFlows
    rw [admissions]
    exact Slots.filterMap_set_of_eq found (by rw [same])

theorem elsewhere (admissions : s'.admissions = s.admissions)
    (opens : action.opens? = none) (closes : action.closes? = none)
    (depth : ∀ g, (s'.flow g).depth = (s.flow g).depth)
    (queue : s'.waitingQueue = s.waitingQueue) : GuardChange s action s' := by
  apply GuardChange.kept opens closes _ _ depth queue
  · intro j
    rw [System.guardOf, admissions]
    rfl
  · rw [System.guardFlows, admissions]
    rfl

theorem createGuard {i : Nat} {a : Admission} (found : s.admissions[i]? = some a)
    (phase : a.phase = .entered) : GuardChange s (.createGuard i) (s.createGuard i a) := by
  have absent : a.guard = .absent := by simp [Admission.guard, phase]
  apply GuardChange.opened i a.flowId rfl rfl (System.flowOf_of_found found)
  · rw [System.guardOf_of_found found, absent]
  · intro j
    have same : (s.createGuard i a).admissions = s.admissions.set i { a with phase := .atGate } := rfl
    exact System.guardOf_set found same j
  · have moved := Slots.filterMap_set_perm found { a with phase := .atGate } fun a => a.guard.flow?
    rw [absent] at moved
    exact moved
  · intro g
    have raised := System.flow_modifyFlow (s.setPhase i a .atGate) a.flowId Flow.incDepth g
    change (((s.setPhase i a .atGate).modifyFlow a.flowId Flow.incDepth).flow g).depth = _
    rw [raised]
    split
    · subst g
      rfl
    · rfl
  · rfl

/-- What `consume` and the drop have in common; the writes after the release
    leave the depth alone. -/
theorem release {i : Nat} {a : Admission} (phase : Phase) (write : Flow → Flow)
    (found : s.admissions[i]? = some a) (live : a.guard = .live a.flowId)
    (gone : Admission.guard { a with phase } = .gone)
    (keeps : ∀ flow, (write flow).depth = flow.depth)
    (admissions : s'.admissions = s.admissions.set i { a with phase })
    (registry : s'.registry =
      (((s.setPhase i a phase).releaseGuard a.flowId).modifyFlow a.flowId write).registry)
    (queue : s'.waitingQueue = s.waitingQueue.erase a.flowId)
    (closes : action.closes? = some i) (opens : action.opens? = none) : GuardChange s action s' := by
  apply GuardChange.closed i a.flowId closes opens (System.flowOf_of_found found) _ _ _ _ queue
  · rw [System.guardOf_of_found found, live]
  · intro j
    rw [System.guardOf_set found admissions j, gone]
  · have moved := Slots.filterMap_set_perm found { a with phase } fun a => a.guard.flow?
    rw [← admissions, live, gone] at moved
    exact moved.symm
  · intro g
    have written := System.field_modifyFlow Flow.depth write keeps
      ((s.setPhase i a phase).releaseGuard a.flowId) a.flowId g
    have lowered := System.flow_modifyFlow (s.setPhase i a phase) a.flowId Flow.decDepth g
    change (s'.registry.getOrCreate g).depth = _
    rw [registry]
    apply written.trans
    change (((s.setPhase i a phase).modifyFlow a.flowId Flow.decDepth).flow g).depth = _
    rw [lowered]
    split
    · subst g
      rfl
    · rfl

end GuardChange

/-- Every step opens one guard, closes one, or leaves them all alone. -/
theorem Step.guardChange (step : Step cfg arith s action event s') : GuardChange s action s' := by
  have written : ∀ (t : System) (f : FlowId) (write : Flow → Flow),
      (∀ flow, (write flow).depth = flow.depth) →
      ∀ g, ((t.modifyFlow f write).flow g).depth = (t.flow g).depth :=
    fun t f write keeps g => System.field_modifyFlow Flow.depth write keeps t f g
  cases step with
  | createGuard found phase => exact GuardChange.createGuard found phase
  | @receive i a pendingId since ticket found phase =>
      have live : a.guard = .live a.flowId := by simp [Admission.guard, phase]
      exact GuardChange.release (.admitted ticket) Flow.incActive found live rfl (fun _ => rfl)
        rfl rfl rfl rfl rfl
  | @dropGuard i a pendingId found phase =>
      have live : a.guard = .live a.flowId := by simp [Admission.guard, phase]
      exact GuardChange.release .finished (fun flow => flow.setEnqueuedAt none) found live rfl
        (fun _ => rfl) rfl rfl rfl rfl rfl
  | @arrive f workUnit room =>
      have depth : ∀ g, ((s.arrive f workUnit).flow g).depth = (s.flow g).depth :=
        written s f id fun _ => rfl
      apply GuardChange.kept rfl rfl _ _ depth rfl
      · intro j
        -- the new call is past the end of the old ones and has no guard yet
        have list : (s.arrive f workUnit).admissions =
            s.admissions ++ [⟨f, workUnit, s.now, .entered⟩] := rfl
        unfold System.guardOf
        rw [list, List.getElem?_append]
        split
        · rfl
        · rename_i beyond
          rw [List.getElem?_eq_none (by omega : s.admissions.length ≤ j)]
          cases place : j - s.admissions.length <;> rfl
      · change (s.admissions ++ [_]).filterMap _ = _
        rw [List.filterMap_append]
        exact List.append_nil _
  | rejected => exact .elsewhere rfl rfl rfl (written s _ _ fun _ => rfl) rfl
  | @enqueue i a found phase =>
      have same : a.guard = .live a.flowId := by simp [Admission.guard, phase]
      exact .advance (.inQueue s.inner.nextPendingId .pushed none) found same.symm
        rfl rfl rfl (fun _ => rfl) rfl
  | @stamp i a pendingId slot found phase =>
      have same : a.guard = .live a.flowId := by simp [Admission.guard, phase]
      exact .advance (.inQueue pendingId .stamped slot) found same.symm rfl rfl rfl
        (written (s.setPhase i a (.inQueue pendingId .stamped slot)) _ _ fun _ => rfl) rfl
  | @notify i a pendingId slot found phase =>
      have same : a.guard = .live a.flowId := by simp [Admission.guard, phase]
      exact .advance (.inQueue pendingId (.polling s.now) slot) found same.symm
        rfl rfl rfl (fun _ => rfl) rfl
  | @leaveGate i a found phase =>
      have same : a.guard = .live a.flowId := by simp [Admission.guard, phase]
      exact .advance (.unwinding none) found same.symm rfl rfl rfl (fun _ => rfl) rfl
  | @closeReceiver _ i a pendingId since slot which found phase =>
      have same : a.guard = .live a.flowId := by simp [Admission.guard, phase]
      have opens : action.opens? = none := by rcases which with rfl | rfl <;> rfl
      have closes : action.closes? = none := by rcases which with rfl | rfl <;> rfl
      cases slot with
      | none =>
          exact .advance (.unwinding (some pendingId)) found same.symm rfl opens closes
            (fun _ => rfl) rfl
      | some ticket =>
          exact .advance (.waking (some pendingId)) found same.symm rfl opens closes
            (written s ticket.flowId Flow.decActive fun _ => rfl) rfl
  | @dropTicket i a ticket found phase =>
      have same : a.guard = .gone := by simp [Admission.guard, phase]
      exact .advance (.waking none) found same.symm rfl rfl rfl
        (written s ticket.flowId Flow.decActive fun _ => rfl) rfl
  | @wake i a pendingId found phase =>
      cases pendingId with
      | none =>
          have same : a.guard = .gone := by simp [Admission.guard, phase]
          exact .advance .finished found same.symm rfl rfl rfl (fun _ => rfl) rfl
      | some id =>
          have same : a.guard = .live a.flowId := by simp [Admission.guard, phase]
          exact .advance (.unwinding (some id)) found same.symm rfl rfl rfl (fun _ => rfl) rfl
  | @sent selection a pendingId stage pc found phase =>
      have same : a.guard = .live a.flowId := by simp [Admission.guard, phase]
      exact .advance (.inQueue pendingId stage (some ⟨selection.flowId, selection.workUnit⟩))
        found same.symm rfl rfl rfl (fun _ => rfl) rfl
  | @round cap r pc spec =>
      exact .elsewhere rfl rfl rfl
        (System.field_afterRound Flow.depth (fun _ _ _ => rfl) spec) rfl
  | register => exact .elsewhere rfl rfl rfl (written s _ _ fun _ => rfl) rfl
  | setPriority =>
      exact .elsewhere rfl rfl rfl (written s _ _ fun _ => rfl) rfl
  | reportAccounting =>
      exact .elsewhere rfl rfl rfl (written s _ _ fun _ => rfl) rfl
  | _ => exact .elsewhere rfl rfl rfl (fun _ => rfl) rfl

/-- The depth counters, each an atomic `u32` that wraps, and the waiting queue
    both count the live guards. -/
structure GuardsCounted (s : System) : Prop where
  depth : ∀ f, (s.flow f).depth = UInt32.ofNat (s.liveGuards f)
  queue : s.waitingQueue.Perm s.guardFlows

theorem count_cons_flow (f g : FlowId) (flows : List FlowId) :
    (f :: flows).count g = flows.count g + if g = f then 1 else 0 := by
  rw [List.count_cons]
  by_cases same : g = f
  · simp [same]
  · have other : ¬ f = g := fun h => same h.symm
    simp [same, other]

namespace GuardsCounted

theorem start (cfg : Config) : GuardsCounted (System.start cfg) := ⟨fun _ => rfl, .refl _⟩

theorem next (counted : GuardsCounted s) (change : GuardChange s action s') : GuardsCounted s' := by
  cases change with
  | opened i f which other flow before after flows depth queue =>
      constructor
      · intro g
        have count : s'.liveGuards g = s.liveGuards g + if g = f then 1 else 0 := by
          unfold System.liveGuards
          rw [flows.count_eq, count_cons_flow]
        rw [depth, count, counted.depth]
        split
        · rw [UInt32.ofNat_add]
          rfl
        · rfl
      · rw [queue]
        exact ((List.perm_append_singleton f _).trans (counted.queue.cons f)).trans flows.symm
  | closed i f which other flow before after flows depth queue =>
      constructor
      · intro g
        have count : s.liveGuards g = s'.liveGuards g + if g = f then 1 else 0 := by
          unfold System.liveGuards
          rw [flows.count_eq, count_cons_flow]
        rw [depth, counted.depth, count]
        split
        · rw [UInt32.ofNat_add]
          exact UInt32.add_sub_cancel _ _
        · rfl
      · rw [queue]
        have erased := (counted.queue.trans flows).erase f
        rwa [List.erase_cons_head] at erased
  | kept opens closes guards flows depth queue =>
      constructor
      · intro g
        rw [depth, counted.depth, System.liveGuards, System.liveGuards, flows]
      · rw [queue, flows]
        exact counted.queue

theorem reachable (reach : (scheduler cfg arith).Reachable s) : GuardsCounted s := by
  apply reach.invariant (start cfg)
  intro v a w e before counted step
  exact counted.next ((SystemInv.reachable before).step_of_next step).guardChange

theorem depth_toNat (counted : GuardsCounted s) {f : FlowId} (few : s.liveGuards f < 4294967296) :
    (s.flow f).depth.toNat = s.liveGuards f := by
  rw [counted.depth, UInt32.toNat_ofNat']
  exact Nat.mod_eq_of_lt few

theorem depth_ne_zero (counted : GuardsCounted s) {f : FlowId} (some_ : 0 < s.liveGuards f)
    (few : s.liveGuards f < 4294967296) : (s.flow f).depth ≠ 0 := by
  intro zero
  have count := counted.depth_toNat few
  rw [zero, UInt32.toNat_zero] at count
  omega

end GuardsCounted

theorem System.liveGuards_pos {i : Nat} {f : FlowId} (live : s.guardOf i = .live f) :
    0 < s.liveGuards f := by
  unfold System.guardOf at live
  cases found : s.admissions[i]? with
  | none => simp [found] at live
  | some a =>
      simp only [found, Option.map_some, Option.getD_some] at live
      apply List.count_pos_iff.mpr
      exact List.mem_filterMap.mpr ⟨a, List.mem_of_getElem? found, by rw [live]; rfl⟩

/-- Steps of the run that create the guard of call `i`. -/
def timesOpened (i : Nat) (ts : List (Transition System Action Event)) : Nat :=
  ts.countP fun tr => decide (tr.action.opens? = some i)

/-- Steps of the run that consume or drop it. -/
def timesClosed (i : Nat) (ts : List (Transition System Action Event)) : Nat :=
  ts.countP fun tr => decide (tr.action.closes? = some i)

/-- A guard raises the depth once when it is made and lowers it once when it goes. -/
theorem guard_balance {ts} (run : (scheduler cfg arith).Exec (System.start cfg) ts s) (i : Nat) :
    timesOpened i ts = (s.guardOf i).raised ∧ timesClosed i ts = (s.guardOf i).lowered := by
  induction run with
  | nil => exact ⟨rfl, rfl⟩
  | @snoc ts t a u e before step ih =>
      have inv := SystemInv.reachable ⟨ts, before⟩
      simp only [timesOpened, timesClosed, List.countP_append, List.countP_singleton] at ih ⊢
      cases (inv.step_of_next step).guardChange with
      | opened j f which other flow absent after =>
          rw [ih.1, ih.2, which, other, after i]
          by_cases same : i = j
          · subst j
            simp [absent, GuardState.raised, GuardState.lowered]
          · have apart : ¬ j = i := fun h => same h.symm
            simp [same, apart]
      | closed j f which other flow live after =>
          rw [ih.1, ih.2, which, other, after i]
          by_cases same : i = j
          · subst j
            simp [live, GuardState.raised, GuardState.lowered]
          · have apart : ¬ j = i := fun h => same h.symm
            simp [same, apart]
      | kept opens closes guards =>
          rw [ih.1, ih.2, opens, closes, guards i]
          exact ⟨rfl, rfl⟩

/-- Each guard raises its flow's depth once and lowers it once on whatever way
    the call ends, depth and waiting queue count the live guards, and below 2^32
    guards of a flow no depth is taken down from zero. -/
theorem queue_depth_accounting (cfg : Config) (arith : I64Arith) {ts s}
    (run : (scheduler cfg arith).Exec (System.start cfg) ts s) :
    (∀ i, timesOpened i ts = (s.guardOf i).raised ∧ timesClosed i ts = (s.guardOf i).lowered) ∧
      (∀ tr ∈ ts, GuardChange tr.pre tr.action tr.post) ∧
      (∀ f, (s.flow f).depth.toNat = s.liveGuards f % 4294967296) ∧
      s.waitingQueue.Perm s.guardFlows ∧
      ∀ tr ∈ ts, ∀ i f, tr.action.closes? = some i → tr.pre.guardOf i = .live f →
        tr.pre.liveGuards f < 4294967296 → (tr.pre.flow f).depth ≠ 0 := by
  have counted := GuardsCounted.reachable ⟨ts, run⟩
  refine ⟨guard_balance run, ?_, ?_, counted.queue, ?_⟩
  · intro tr member
    exact (step_of_run run member).2.guardChange
  · intro f
    rw [counted.depth, UInt32.toNat_ofNat']
  · intro tr member i f closes live few
    obtain ⟨before, after, -, first, -⟩ := run.split_of_mem member
    have counted' := GuardsCounted.reachable ⟨before, first⟩
    exact counted'.depth_ne_zero (System.liveGuards_pos live) few

/-- A request that receives its ticket beside one that gives up at the gate. -/
theorem queue_depth_accounting_two_exits :
    let m := scheduler .default .wrapping
    let actions := sendOne ⟨"a"⟩ (.fin 1) 0 ++ [.receive 0, .arrive ⟨"a"⟩ (.fin 1), .createGuard 1,
      .cancel 1, .dropGuard 1]
    (m.trace actions).length = 15 ∧ timesOpened 0 (m.trace actions) = 1 ∧
      timesClosed 1 (m.trace actions) = 1 ∧
      ((m.after actions).flow ⟨"a"⟩).depth.toNat =
        (m.after actions).liveGuards ⟨"a"⟩ % 4294967296 := by
  intro m actions
  have law := queue_depth_accounting .default .wrapping (m.exec_after actions)
  refine ⟨by decide +kernel, (law.1 0).1.trans ?_, (law.1 1).2.trans ?_, law.2.2.1 ⟨"a"⟩⟩
  · decide +kernel
  · decide +kernel

theorem exec_atGate (arith : I64Arith) (f : FlowId) (workUnit : F64) (n : Nat) :
    ∃ ts s, (scheduler .default arith).Exec (System.start .default) ts s ∧ s.now = 0 ∧
      s.admissions = List.replicate n ⟨f, workUnit, 0, .atGate⟩ := by
  induction n with
  | zero => exact ⟨[], _, .nil, rfl, rfl⟩
  | succ n ih =>
      obtain ⟨ts, s, run, clock, admissions⟩ := ih
      have arrives : (scheduler .default arith).next s (.arrive f workUnit) =
          some (s.arrive f workUnit, none) := rfl
      have here : (s.arrive f workUnit).admissions =
          List.replicate n ⟨f, workUnit, 0, .atGate⟩ ++ [⟨f, workUnit, 0, .entered⟩] := by
        change s.admissions ++ [⟨f, workUnit, s.now, .entered⟩] = _
        rw [admissions, clock]
      have found : (s.arrive f workUnit).admissions[n]? = some ⟨f, workUnit, 0, .entered⟩ := by
        rw [here, List.getElem?_append_right (by simp)]
        simp
      have creates : (scheduler .default arith).next (s.arrive f workUnit) (.createGuard n) =
          some ((s.arrive f workUnit).createGuard n ⟨f, workUnit, 0, .entered⟩, none) := by
        simp only [scheduler, nextSystem, found, Option.bind_eq_bind, Option.bind_some]
      refine ⟨_, _, (run.snoc arrives).snoc creates, clock, ?_⟩
      change (s.arrive f workUnit).admissions.set n ⟨f, workUnit, 0, .atGate⟩ = _
      rw [here, List.set_append_right _ _ (by simp), List.replicate_succ']
      simp

/-- With 2^32 requests of a flow at the gate its depth reads zero, and the next
    of them to give up takes it down from there. -/
theorem queue_depth_wraps :
    ∃ s, (scheduler .default .wrapping).Reachable s ∧ s.liveGuards ⟨"a"⟩ = 4294967296 ∧
      (s.flow ⟨"a"⟩).depth = 0 ∧ s.guardOf 0 = .live ⟨"a"⟩ ∧
      (nextSystem .default .wrapping s (.dropGuard 0)).isSome = true := by
  let a : Admission := ⟨⟨"a"⟩, .fin 1, 0, .atGate⟩
  obtain ⟨ts, s, run, -, admissions⟩ := exec_atGate .wrapping ⟨"a"⟩ (.fin 1) 4294967296
  have found : s.admissions[0]? = some a := by
    rw [admissions]
    exact List.getElem?_replicate_of_lt (by omega)
  have cancels : (scheduler .default .wrapping).next s (.cancel 0) =
      some (s.setPhase 0 a (.unwinding none), none) := by
    simp only [scheduler, nextSystem, found, Option.bind_eq_bind, Option.bind_some, a]
  have unwinding : (s.setPhase 0 a (.unwinding none)).admissions[0]? =
      some { a with phase := .unwinding none } := by
    exact (Slots.getElem?_set found _ 0).trans (if_pos rfl)
  have reach : (scheduler .default .wrapping).Reachable (s.setPhase 0 a (.unwinding none)) :=
    ⟨_, run.snoc cancels⟩
  have live : (s.setPhase 0 a (.unwinding none)).liveGuards ⟨"a"⟩ = 4294967296 := by
    have flows : (s.setPhase 0 a (.unwinding none)).guardFlows = s.guardFlows :=
      Slots.filterMap_set_of_eq found rfl
    unfold System.liveGuards
    rw [flows, System.guardFlows, admissions, List.filterMap_replicate]
    exact List.count_replicate_self
  have depth := (GuardsCounted.reachable reach).depth ⟨"a"⟩
  rw [live] at depth
  refine ⟨_, reach, live, depth.trans (by decide), System.guardOf_of_found unwinding, ?_⟩
  simp only [nextSystem, unwinding, Option.bind_eq_bind, Option.bind_some, Option.isSome_some]

end TinyLlb
