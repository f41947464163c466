import TinyLlb.Runtime.QueueDepth

/-! # The order of the waiting queue

`GET /queue` walks `waiting_queue` and lists every flow at its first entry. The
queue holds flow ids and not requests, and whichever request leaves takes the
first entry of its flow with it. As long as that entry stands next to its own,
up to entries of the same flow, the queue is the line of waiting requests by
arrival. A request that leaves past a waiting request of another flow moves its
flow behind that one although an older request of it waits on.
-/

namespace TinyLlb

variable {cfg : Config} {arith : I64Arith} {s s' : System} {action : Action} {event : Option Event}

structure QueueFlowEntry where
  id : String
  position : Nat
  deriving DecidableEq

structure QueueSnapshot where
  active : Nat
  waiting : Nat
  flows : List QueueFlowEntry
  deriving DecidableEq

/-- The variables of the loop in `queue_snapshot`. -/
structure SnapshotScan where
  seen : List String
  flows : List QueueFlowEntry
  position : Nat

/-- The body of that loop. -/
def SnapshotScan.visit (r : FlowRegistry) (scan : SnapshotScan) (f : FlowId) : SnapshotScan :=
  if f.name ∈ scan.seen then scan
  else
    match r.flows.lookup f with
    | some flow =>
        if flow.depth > 0 then
          { seen := f.name :: scan.seen
            flows := scan.flows ++ [⟨f.name, scan.position⟩]
            position := scan.position + 1 }
        else scan
    | none => scan

def FlowRegistry.scanQueue (r : FlowRegistry) (waitOrder : List FlowId) : SnapshotScan :=
  waitOrder.foldl (SnapshotScan.visit r) ⟨[], [], 1⟩

def FlowRegistry.queueSnapshot (r : FlowRegistry) (active waiting : Nat) (waitOrder : List FlowId) :
    QueueSnapshot :=
  { active, waiting, flows := (r.scanQueue waitOrder).flows }

/-- `DrrScheduler::queue_snapshot`; a negative gauge is cast to zero. -/
def System.queueSnapshot (s : System) : QueueSnapshot :=
  s.registry.queueSnapshot s.activeFlows.toNat s.registry.sumDepths.toNat s.waitingQueue

/-- Where every flow of the queue has a positive depth, the loop has listed the
    flows of the queue, each once and at the place of its first entry. -/
structure Scanned (waitOrder : List FlowId) (scan : SnapshotScan) : Prop where
  seen : ∀ f : FlowId, f.name ∈ scan.seen ↔ f ∈ waitOrder
  listed : ∀ name, name ∈ scan.seen ↔ name ∈ scan.flows.map QueueFlowEntry.id
  once : (scan.flows.map QueueFlowEntry.id).Nodup
  position : scan.position = scan.flows.length + 1
  positions : scan.flows.map QueueFlowEntry.position = List.range' 1 scan.flows.length
  ordered : scan.flows.Pairwise fun e e' =>
    waitOrder.idxOf (⟨e.id⟩ : FlowId) < waitOrder.idxOf (⟨e'.id⟩ : FlowId)

namespace Scanned

variable {r : FlowRegistry} {waitOrder : List FlowId} {scan : SnapshotScan}

theorem mem_of_entry (scanned : Scanned waitOrder scan) {e : QueueFlowEntry} (member : e ∈ scan.flows) :
    (⟨e.id⟩ : FlowId) ∈ waitOrder := by
  rw [← scanned.seen ⟨e.id⟩, scanned.listed]
  exact List.mem_map_of_mem member

theorem visit (scanned : Scanned waitOrder scan) {f : FlowId} (deep : (r.getOrCreate f).depth ≠ 0) :
    Scanned (waitOrder ++ [f]) (scan.visit r f) := by
  have ordered : scan.flows.Pairwise fun e e' =>
      (waitOrder ++ [f]).idxOf (⟨e.id⟩ : FlowId) < (waitOrder ++ [f]).idxOf (⟨e'.id⟩ : FlowId) := by
    apply scanned.ordered.imp_of_mem
    intro e e' here there before
    rwa [List.idxOf_append_of_mem (scanned.mem_of_entry here),
      List.idxOf_append_of_mem (scanned.mem_of_entry there)]
  unfold SnapshotScan.visit
  split
  · rename_i old
    have known := (scanned.seen f).mp old
    refine ⟨?_, scanned.listed, scanned.once, scanned.position, scanned.positions, ordered⟩
    intro g
    rw [scanned.seen, List.mem_append, List.mem_singleton]
    constructor
    · exact .inl
    · rintro (before | rfl)
      · exact before
      · exact known
  · rename_i new
    have absent : f ∉ waitOrder := fun member => new ((scanned.seen f).mpr member)
    cases found : r.flows.lookup f with
    | none =>
        -- an unregistered flow would read as a fresh one of depth zero
        simp [FlowRegistry.getOrCreate, found, Flow.new] at deep
    | some flow =>
        simp only [FlowRegistry.getOrCreate, found, Option.getD_some] at deep
        have positive : flow.depth > 0 := UInt32.pos_iff_ne_zero.mpr deep
        simp only [positive, if_true]
        constructor
        · intro g
          rw [List.mem_cons, scanned.seen, List.mem_append, List.mem_singleton, or_comm]
          cases g
          cases f
          simp
        · intro name
          simp only [List.mem_cons, scanned.listed, List.map_append, List.map_cons, List.map_nil,
            List.mem_append, List.not_mem_nil, or_false]
          exact or_comm
        · rw [List.map_append, List.map_cons, List.map_nil]
          apply List.nodup_append.mpr ⟨scanned.once, List.nodup_singleton _, _⟩
          intro name listed name' last same
          obtain rfl := List.mem_singleton.mp last
          subst same
          exact new ((scanned.listed _).mpr listed)
        · simp only [scanned.position, List.length_append, List.length_singleton]
        · rw [List.map_append, scanned.positions, List.length_append, List.length_singleton,
            List.range'_concat, scanned.position]
          simp [Nat.add_comm]
        · apply List.pairwise_append.mpr ⟨ordered, List.pairwise_singleton _ _, _⟩
          intro e here last member
          obtain rfl := List.mem_singleton.mp member
          have inside := scanned.mem_of_entry here
          rw [List.idxOf_append_of_mem inside, List.idxOf_append_of_notMem absent]
          have bound := List.idxOf_lt_length_of_mem inside
          omega

theorem of_depths (deep : ∀ f ∈ waitOrder, (r.getOrCreate f).depth ≠ 0) :
    Scanned waitOrder (r.scanQueue waitOrder) := by
  unfold FlowRegistry.scanQueue
  induction waitOrder using List.reverseRecOn with
  | nil => exact ⟨by simp, by simp, by simp, rfl, rfl, .nil⟩
  | append_singleton before f ih =>
      rw [List.foldl_append]
      have earlier := ih fun g member => deep g (List.mem_append_left _ member)
      exact earlier.visit (deep f (by simp))

end Scanned

/-- The requests that hold a guard, by the order of its creation. -/
def Action.lineAfter (line : List Nat) : Action → List Nat
  | .createGuard i => line ++ [i]
  | .receive i => line.erase i
  | .dropGuard i => line.erase i
  | _ => line

def queueLine (ts : List (Transition System Action Event)) : List Nat :=
  ts.foldl (fun line tr => tr.action.lineAfter line) []

@[simp] theorem queueLine_snoc (ts : List (Transition System Action Event)) (tr) :
    queueLine (ts ++ [tr]) = tr.action.lineAfter (queueLine ts) := by
  rw [queueLine, List.foldl_append]
  rfl

theorem Action.lineAfter_opens {i : Nat} (opens : action.opens? = some i) (line : List Nat) :
    action.lineAfter line = line ++ [i] := by
  cases action with
  | createGuard j =>
      obtain rfl := Option.some.inj opens
      rfl
  | _ => cases opens

theorem Action.lineAfter_closes {i : Nat} (closes : action.closes? = some i) (line : List Nat) :
    action.lineAfter line = line.erase i := by
  cases action with
  | receive j | dropGuard j =>
      obtain rfl := Option.some.inj closes
      rfl
  | _ => cases closes

theorem Action.lineAfter_other (opens : action.opens? = none) (closes : action.closes? = none)
    (line : List Nat) : action.lineAfter line = line := by
  cases action with
  | createGuard i => cases opens
  | receive i | dropGuard i => cases closes
  | _ => rfl

/-- The place in line of the oldest waiting request of a flow. -/
def oldestWaiting (s : System) (line : List Nat) (f : FlowId) : Nat :=
  line.findIdx fun i => decide (s.guardOf i = .live f)

/-- A list of the waiting flows by the arrival of their oldest waiting request. -/
structure ListsInOrder (s : System) (line : List Nat) (flows : List QueueFlowEntry) : Prop where
  once : (flows.map QueueFlowEntry.id).Nodup
  waiting : ∀ f : FlowId, f.name ∈ flows.map QueueFlowEntry.id ↔ 0 < s.liveGuards f
  positions : flows.map QueueFlowEntry.position = List.range' 1 flows.length
  ordered : flows.Pairwise fun e e' => oldestWaiting s line ⟨e.id⟩ < oldestWaiting s line ⟨e'.id⟩

/-- No request leaves past a waiting request of another flow that came after an
    older one of its own, and the depth counters do not wrap. -/
structure LeavesInOrder (line : List Nat) (tr : Transition System Action Event) : Prop where
  alike : ∀ i f, tr.action.closes? = some i → tr.pre.guardOf i = .live f →
    ∀ older between, [older, between, i].Sublist line → tr.pre.guardOf older = .live f →
      tr.pre.guardOf between = .live f
  few : ∀ f, tr.post.liveGuards f < 4294967296

/-- The waiting queue is the line of waiting requests, read by flow. -/
structure Lined (s : System) (line : List Nat) : Prop where
  nodup : line.Nodup
  waiting : ∀ i, i ∈ line ↔ ∃ f, s.guardOf i = .live f
  queue : s.waitingQueue.map some = line.map fun i => (s.guardOf i).flow?

/-- Taking out the first entry that reads `x` is taking out a given one, where
    nothing else stands between the two. -/
theorem erase_map_of_alike {α β : Type*} [BEq β] [LawfulBEq β] {read : α → β} {x : β} {i : α}
    {older : List α} (later : List α) (here : read i = x)
    (alike : ∀ j k, [j, k].Sublist older → read j = x → read k = x) :
    ((older ++ i :: later).map read).erase x = (older ++ later).map read := by
  induction older with
  | nil => simp [here]
  | cons c older ih =>
      by_cases first : read c = x
      · have rest : older.map read = List.replicate older.length x := by
          apply List.eq_replicate_iff.mpr ⟨List.length_map _, _⟩
          intro y member
          obtain ⟨k, inside, rfl⟩ := List.mem_map.mp member
          exact alike c k (List.cons_sublist_cons.mpr (List.singleton_sublist.mpr inside)) first
        simp only [List.cons_append, List.map_cons, List.map_append, first, here, rest,
          List.erase_cons_head]
        rw [← List.cons_append, ← List.replicate_succ, List.replicate_succ', List.append_assoc]
        rfl
      · have later' := ih fun j k inside => alike j k (inside.cons c)
        simp only [List.cons_append, List.map_cons]
        rw [List.erase_cons_tail (by simpa using first), later']

namespace Lined

variable {line : List Nat}

theorem start (cfg : Config) : Lined (System.start cfg) [] :=
  ⟨List.nodup_nil, by simp [System.guardOf, System.start], rfl⟩

theorem next (lined : Lined s line) (change : GuardChange s action s')
    (leaves : ∀ i f, action.closes? = some i → s.guardOf i = .live f →
      ∀ older between, [older, between, i].Sublist line → s.guardOf older = .live f →
        s.guardOf between = .live f) : Lined s' (action.lineAfter line) := by
  cases change with
  | opened i f which other flow before after flows depth queue =>
      rw [Action.lineAfter_opens which]
      have fresh : i ∉ line := by
        intro member
        obtain ⟨g, live⟩ := (lined.waiting i).mp member
        simp [before] at live
      constructor
      · apply List.nodup_append.mpr ⟨lined.nodup, List.nodup_singleton i, _⟩
        rintro j member k last rfl
        rw [List.mem_singleton.mp last] at member
        exact fresh member
      · intro j
        rw [List.mem_append, List.mem_singleton, after j]
        by_cases same : j = i
        · simp [same]
        · simp [same, lined.waiting]
      · rw [queue, List.map_append, List.map_append, lined.queue]
        congr 1
        · apply List.map_congr_left
          intro j member
          have other : j ≠ i := fun same => fresh (same ▸ member)
          rw [after j, if_neg other]
        · simp [after, GuardState.flow?]
  | closed i f which other flow live after flows depth queue =>
      rw [Action.lineAfter_closes which]
      have member := (lined.waiting i).mpr ⟨f, live⟩
      obtain ⟨older, later, rfl⟩ := List.append_of_mem member
      have distinct := List.nodup_append.mp lined.nodup
      have gone : i ∉ older := fun inside => distinct.2.2 i inside i List.mem_cons_self rfl
      have unique : i ∉ later := (List.nodup_cons.mp distinct.2.1).1
      have taken : (older ++ i :: later).erase i = older ++ later := by
        rw [List.erase_append_right _ gone, List.erase_cons_head]
      constructor
      · exact lined.nodup.erase i
      · intro j
        rw [lined.nodup.mem_erase_iff, lined.waiting, after j]
        by_cases same : j = i
        · simp [same]
        · simp [same]
      · rw [queue, taken]
        have moved : (s.waitingQueue.erase f).map some = (s.waitingQueue.map some).erase (some f) :=
          List.map_erase (Option.some_injective _) s.waitingQueue
        have here : (s.guardOf i).flow? = some f := by rw [live]; rfl
        have alike : ∀ j k, [j, k].Sublist older → (s.guardOf j).flow? = some f →
            (s.guardOf k).flow? = some f := by
          intro j k pair same
          have trio : [j, k, i].Sublist (older ++ i :: later) :=
            pair.append (List.singleton_sublist.mpr List.mem_cons_self)
          rw [leaves i f which live j k trio (GuardState.flow?_eq_some.mp same)]
          rfl
        have rest := erase_map_of_alike later here alike
        rw [moved, lined.queue, rest]
        apply List.map_congr_left
        intro j inside
        have other : j ≠ i := by
          rintro rfl
          exact (List.mem_append.mp inside).elim gone unique
        rw [after j, if_neg other]
  | kept opens closes guards flows depth queue =>
      rw [Action.lineAfter_other opens closes]
      refine ⟨lined.nodup, ?_, ?_⟩
      · intro i
        rw [guards i]
        exact lined.waiting i
      · rw [queue, lined.queue]
        apply List.map_congr_left
        intro i _
        rw [guards i]

end Lined

theorem findIdx_eq_idxOf_map (s : System) (line : List Nat) (f : FlowId) :
    oldestWaiting s line f = (line.map fun i => (s.guardOf i).flow?).idxOf (some f) := by
  unfold oldestWaiting List.idxOf
  rw [List.findIdx_map]
  congr 1
  funext i
  rw [Function.comp_apply, beq_eq_decide]
  exact decide_eq_decide.mpr GuardState.flow?_eq_some.symm

theorem idxOf_map_some (flows : List FlowId) (f : FlowId) :
    (flows.map some).idxOf (some f) = flows.idxOf f := by
  unfold List.idxOf
  rw [List.findIdx_map]
  rfl

theorem Lined.listsInOrder {line : List Nat} (lined : Lined s line) (counted : GuardsCounted s)
    (few : ∀ f, s.liveGuards f < 4294967296) : ListsInOrder s line s.queueSnapshot.flows := by
  have waits : ∀ f, f ∈ s.waitingQueue ↔ 0 < s.liveGuards f := by
    intro f
    rw [counted.queue.mem_iff, System.liveGuards, List.count_pos_iff]
  have deep : ∀ f ∈ s.waitingQueue, (s.registry.getOrCreate f).depth ≠ 0 := by
    intro f member
    exact counted.depth_ne_zero ((waits f).mp member) (few f)
  have scanned := Scanned.of_depths deep
  refine ⟨scanned.once, ?_, scanned.positions, ?_⟩
  · intro f
    rw [← waits, ← scanned.seen, scanned.listed]
    rfl
  · apply scanned.ordered.imp
    intro e e' before
    rw [findIdx_eq_idxOf_map, findIdx_eq_idxOf_map, ← lined.queue, idxOf_map_some, idxOf_map_some]
    exact before

theorem LeavesInOrder.of_oldest {line : List Nat} {tr : Transition System Action Event}
    (nodup : line.Nodup) (oldest : tr.action.closes? = none ∨ tr.action.closes? = line.head?)
    (few : tr.post.admissions.length < 4294967296) : LeavesInOrder line tr where
  alike := by
    intro i f closes live older between inside
    rw [closes] at oldest
    cases line with
    | nil => simp at oldest
    | cons first rest =>
        obtain rfl : i = first := by simpa using oldest
        have absent := (List.nodup_cons.mp nodup).1
        cases inside with
        | cons _ inside => exact absurd (inside.subset (by simp)) absent
        | cons_cons _ inside => exact absurd (inside.subset (by simp)) absent
  few := by
    intro f
    have guards : tr.post.guardFlows.length ≤ tr.post.admissions.length :=
      List.length_filterMap_le _ _
    have count : tr.post.liveGuards f ≤ tr.post.guardFlows.length := List.count_le_length
    omega

/-- Along a run in which every request leaves in order, `queue_snapshot` lists
    each waiting flow once, numbered from one, by the arrival of its oldest
    waiting request. -/
theorem queue_snapshot_order (cfg : Config) (arith : I64Arith) {ts s}
    (run : (scheduler cfg arith).Exec (System.start cfg) ts s)
    (orderly : ∀ n tr, ts[n]? = some tr → LeavesInOrder (queueLine (ts.take n)) tr) :
    ListsInOrder s (queueLine ts) s.queueSnapshot.flows := by
  have lined : Lined s (queueLine ts) := by
    induction run with
    | nil => exact Lined.start cfg
    | @snoc ts t a u e before step ih =>
        have last := orderly ts.length ⟨t, a, e, u⟩ (by simp)
        rw [List.take_left] at last
        have earlier := ih fun n tr found => by
          obtain ⟨bound, -⟩ := List.getElem?_eq_some_iff.mp found
          have kept := orderly n tr (Slots.getElem?_append found _)
          rwa [List.take_append_of_le_length (by omega)] at kept
        have change := ((SystemInv.reachable ⟨ts, before⟩).step_of_next step).guardChange
        rw [queueLine_snoc]
        exact earlier.next change last.alike
  have few : ∀ f, s.liveGuards f < 4294967296 := by
    cases run with
    | nil =>
        intro f
        change ([] : List FlowId).count f < _
        rw [List.count_nil]
        omega
    | @snoc ts t a _ e before step => exact (orderly ts.length ⟨t, a, e, s⟩ (by simp)).few
  exact lined.listsInOrder (GuardsCounted.reachable ⟨ts, run⟩) few

/-- Two requests of `a` around one of `b`, in the order of their arrival. -/
def aroundB : List Action :=
  [.arrive ⟨"a"⟩ (.fin 1), .createGuard 0, .arrive ⟨"b"⟩ (.fin 1), .createGuard 1,
    .arrive ⟨"a"⟩ (.fin 1), .createGuard 2]

/-- The older request of `a` gives up, so `b` comes first. -/
theorem queue_snapshot_order_oldest_leaves :
    let m := scheduler .default .wrapping
    let actions := aroundB ++ [.cancel 0, .dropGuard 0]
    (m.after actions).queueSnapshot.flows = [⟨"b", 1⟩, ⟨"a", 2⟩] ∧
      queueLine (m.trace actions) = [1, 2] ∧
      ListsInOrder (m.after actions) (queueLine (m.trace actions))
        (m.after actions).queueSnapshot.flows := by
  intro m actions
  refine ⟨by decide +kernel, by decide +kernel, ?_⟩
  apply queue_snapshot_order .default .wrapping (m.exec_after actions)
  intro n tr found
  have checked : ∀ n < 8, ∀ tr ∈ (m.trace actions)[n]?,
      (queueLine ((m.trace actions).take n)).Nodup ∧
        (tr.action.closes? = none ∨
          tr.action.closes? = (queueLine ((m.trace actions).take n)).head?) ∧
        tr.post.admissions.length < 4294967296 := by
    decide +kernel
  obtain ⟨bound, -⟩ := List.getElem?_eq_some_iff.mp found
  have steps : (m.trace actions).length = 8 := by decide +kernel
  obtain ⟨nodup, oldest, few⟩ := checked n (by omega) tr found
  exact LeavesInOrder.of_oldest nodup oldest few

/-- The younger request of `a` gives up: its flow is now listed behind `b`,
    although the request of `a` that came first still waits. -/
theorem queue_snapshot_misorders :
    let m := scheduler .default .wrapping
    let actions := aroundB ++ [.cancel 2, .dropGuard 2]
    (m.after actions).queueSnapshot.flows = [⟨"b", 1⟩, ⟨"a", 2⟩] ∧
      queueLine (m.trace actions) = [0, 1] ∧
      ¬ ListsInOrder (m.after actions) (queueLine (m.trace actions))
        (m.after actions).queueSnapshot.flows := by
  intro m actions
  have listed : (m.after actions).queueSnapshot.flows = [⟨"b", 1⟩, ⟨"a", 2⟩] := by decide +kernel
  refine ⟨listed, by decide +kernel, ?_⟩
  intro inOrder
  have ordered := inOrder.ordered
  rw [listed, List.pairwise_pair] at ordered
  revert ordered
  decide +kernel

end TinyLlb
