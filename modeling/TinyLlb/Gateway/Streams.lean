import TinyLlb.Gateway.Ledger
import TinyLlb.Stream.Endings

/-! # Stream tasks beside the gateway

The handler of a streamed request hands its ticket and its lifecycle guard to a
task of their own. Here any number of these tasks run beside the gateway: what a
task counts reaches the progress tracker at once, its guard is dropped after the
task has ended, and the ticket after the guard. A guard that no task owns belongs
to a request that is not streamed, or not by a task, and moves as before.
-/

namespace TinyLlb

structure Streams where
  gateway : Gateway
  /-- The task that owns the guard of an admission. -/
  tasks : Nat → Option RetryTask

inductive StreamsAction where
  | gateway (action : GatewayAction)
  /-- The handler gives the guard of an admission to a task. -/
  | spawn (i : Nat)
  | task (i : Nat) (action : TaskAction)

/-- What the scheduler shows, and what leaves the task of an admission. -/
abbrev StreamsEvent := Event ⊕ (Nat × TaskEvent)

def RetryTask.isOver (task : RetryTask) : Bool :=
  match task.pc with
  | .finished _ => true
  | _ => false

def Lifecycle.isDropped : Lifecycle → Bool
  | .dropped _ => true
  | _ => false

namespace Streams

/-- The configuration of a task, over the arithmetic of the gateway. -/
abbrev configOf (arith : I64Arith) (config : Nat → RetryConfig) (i : Nat) : RetryConfig :=
  { config i with arith }

def start (cfg : GatewayConfig) : Streams := ⟨Gateway.start cfg, fun _ => none⟩

/-- What may happen without the task of an admission: the guard is its own until it
    ends, and the ticket until the guard is gone. -/
def leavesToGateway (s : Streams) : GatewayAction → Bool
  | .addDelivered i _ | .markCompleted i => (s.tasks i).isNone
  | .dropLifecycle i => (s.tasks i).all RetryTask.isOver
  | .sched (.dropTicket i) => (s.tasks i).isNone || (s.gateway.lifecycle i).isDropped
  | _ => true

/-- What a step of a task tells its guard and, through it, the progress tracker. The
    guard and the counter of generated tokens are told the same number. -/
def follow (arith : I64Arith) (g : Gateway) (i : Nat) (task task' : RetryTask) : Gateway :=
  let count := task'.metrics.tokensGenerated - task.metrics.tokensGenerated
  if 0 < count then g.addDelivered arith i task.lifecycleGuard count
  else g.setLifecycle i (.open_ task'.lifecycleGuard)

end Streams

open TinyLlb.Streams in
def nextStreams (cfg : GatewayConfig) (arith : I64Arith) (config : Nat → RetryConfig) (s : Streams) :
    StreamsAction → Option (Streams × Option StreamsEvent)
  | .gateway action =>
      if s.leavesToGateway action then
        (nextGateway cfg arith s.gateway action).map fun next =>
          ({ s with gateway := next.1 }, next.2.map .inl)
      else none
  | .spawn i =>
      match s.gateway.lifecycle i, s.tasks i, s.gateway.system.admissions[i]?.map Admission.phase with
      -- The handler still has the ticket, and has told the guard nothing yet.
      | .open_ guard, none, some (.admitted _) =>
          if guard = .new guard.flowId guard.estimatedCost then
            some ({ s with tasks := Function.update s.tasks i (some (.start guard)) }, none)
          else none
      | _, _, _ => none
  | .task i action => do
      let task ← s.tasks i
      let (task', event) ← nextTask (configOf arith config i) task action
      some (⟨follow arith s.gateway i task task', Function.update s.tasks i (some task')⟩,
        event.map fun e => .inr (i, e))

/-- The gateway with the tasks of its streamed requests. -/
def streams (cfg : GatewayConfig) (arith : I64Arith) (config : Nat → RetryConfig) :
    Machine Streams StreamsAction StreamsEvent :=
  { start := Streams.start cfg, next := nextStreams cfg arith config }

abbrev StreamsTransition := Transition Streams StreamsAction StreamsEvent

/-- What the scheduler shows of a run. -/
def schedulerEvents (ts : List StreamsTransition) : List Event :=
  (Machine.events ts).filterMap fun
    | .inl e => some e
    | .inr _ => none

/-- The step of the task of admission `i` in a transition, if it is one. -/
def taskStep? (i : Nat) (tr : StreamsTransition) : Option TaskTransition :=
  match tr.action, tr.pre.tasks i, tr.post.tasks i with
  | .task j action, some task, some task' =>
      if j = i then some ⟨task, action, tr.event.bind fun e => e.getRight?.map Prod.snd, task'⟩
      else none
  | _, _, _ => none

/-- What the task of admission `i` went through. -/
def taskTrace (i : Nat) (ts : List StreamsTransition) : List TaskTransition :=
  ts.filterMap (taskStep? i)

open TinyLlb.Streams in
inductive StreamsStep (cfg : GatewayConfig) (arith : I64Arith) (config : Nat → RetryConfig)
    (s : Streams) : StreamsAction → Option StreamsEvent → Streams → Prop where
  | gateway {action event g'} (own : s.leavesToGateway action = true)
      (next : nextGateway cfg arith s.gateway action = some (g', event)) :
      StreamsStep cfg arith config s (.gateway action) (event.map .inl) { s with gateway := g' }
  | spawn {i guard a ticket} (live : s.gateway.lifecycle i = .open_ guard) (free : s.tasks i = none)
      (found : s.gateway.system.admissions[i]? = some a) (phase : a.phase = .admitted ticket)
      (fresh : guard = .new guard.flowId guard.estimatedCost) :
      StreamsStep cfg arith config s (.spawn i) none
        { s with tasks := Function.update s.tasks i (some (.start guard)) }
  | task {i action task task' event} (found : s.tasks i = some task)
      (next : nextTask (configOf arith config i) task action = some (task', event)) :
      StreamsStep cfg arith config s (.task i action) (event.map fun e => .inr (i, e))
        ⟨follow arith s.gateway i task task', Function.update s.tasks i (some task')⟩

section

variable {cfg : GatewayConfig} {arith : I64Arith} {config : Nat → RetryConfig} {s s' : Streams}
  {action : StreamsAction} {event : Option StreamsEvent} {ts : List StreamsTransition} {i : Nat}

theorem StreamsStep.of_next (next : nextStreams cfg arith config s action = some (s', event)) :
    StreamsStep cfg arith config s action event s' := by
  cases action with
  | gateway action =>
      simp only [nextStreams] at next
      split at next
      · rename_i own
        obtain ⟨⟨g', e⟩, moved, same⟩ := Option.map_eq_some_iff.mp next
        cases same
        exact .gateway own moved
      · cases next
  | spawn i =>
      simp only [nextStreams] at next
      split at next
      · rename_i guard ticket live free holds
        obtain ⟨a, found, phase⟩ := Option.map_eq_some_iff.mp holds
        split at next
        · rename_i fresh
          cases next
          exact .spawn live free found phase fresh
        · cases next
      · cases next
  | task i action =>
      obtain ⟨task, found, next⟩ := Option.bind_eq_some_iff.mp next
      obtain ⟨⟨task', e⟩, moved, same⟩ := Option.bind_eq_some_iff.mp next
      cases same
      exact .task found moved

/-- The guard of a task, in the gateway's books: open, with the ticket still out, or
    dropped after the end of the task. -/
inductive Attached (g : Gateway) (i : Nat) (task : RetryTask) : Prop where
  | live (a : Admission) (ticket : Ticket) (found : g.system.admissions[i]? = some a)
      (phase : a.phase = .admitted ticket) (guard : g.lifecycle i = .open_ task.lifecycleGuard)
  | settled (guard : g.lifecycle i = .dropped task.lifecycleGuard) (over_ : task.isOver = true)

variable {g g' : Gateway} {task task' : RetryTask}

theorem Attached.guard? (attached : Attached g i task) :
    (g.lifecycle i).guard? = some task.lifecycleGuard := by
  cases attached with
  | live a ticket found phase guard => rw [guard]; rfl
  | settled guard => rw [guard]; rfl

theorem GatewayStep.owned {action : GatewayAction} {event : Option Event}
    (step : GatewayStep cfg arith s.gateway action event g') (own : s.leavesToGateway action = true)
    (found : s.tasks i = some task) (present : s.gateway.lifecycle i ≠ .none) :
    g'.lifecycle i = s.gateway.lifecycle i ∨
      task.isOver = true ∧ ∃ guard, s.gateway.lifecycle i = .open_ guard ∧
        g'.lifecycle i = .dropped guard := by
  cases step with
  | @request f body unix isTurnBoundary =>
      exact .inl (congrFun (Gateway.request_lifecycle cfg s.gateway f body unix isTurnBoundary) i)
  | @openGuard j a ticket _ _ fresh =>
      have other : i ≠ j := by
        rintro rfl
        exact present fresh
      exact .inl (Function.update_of_ne other _ _)
  | @addDelivered j | @markCompleted j =>
      have other : i ≠ j := by
        rintro rfl
        simp [Streams.leavesToGateway, found] at own
      exact .inl (Function.update_of_ne other _ _)
  | @dropLifecycle j guard live =>
      by_cases same : i = j
      · subst j
        refine .inr ⟨?_, guard, live, Function.update_self ..⟩
        simpa [Streams.leavesToGateway, found] using own
      · exact .inl (Function.update_of_ne same _ _)
  | _ => exact .inl rfl

theorem GatewayStep.admitted_stays {action : GatewayAction} {event : Option Event} {a : Admission}
    {ticket : Ticket} (reach : (gateway cfg arith).Reachable g)
    (step : GatewayStep cfg arith g action event g') (found : g.system.admissions[i]? = some a)
    (phase : a.phase = .admitted ticket) (kept : action ≠ .sched (.dropTicket i)) :
    g'.system.admissions[i]? = some a := by
  have inv := SystemInv.reachable (Gateway.reachable reach)
  cases step with
  | @request => rwa [Gateway.request_system]
  | admitInner => exact Slots.getElem?_append found _
  | @sched action event s' own step =>
      cases (inv.step_of_next step).tableChange with
      | arrived f workUnit which admissions =>
          rw [admissions]
          exact Slots.getElem?_append found _
      | @moved j b next foundB move admissions =>
          have other : i ≠ j := by
            rintro rfl
            obtain rfl : a = b := Option.some.inj (found.symm.trans foundB)
            rw [phase] at move
            cases move
            exact kept rfl
          rw [admissions, Slots.getElem?_set foundB, if_neg other]
          exact found
      | kept other admissions => rwa [admissions]
  | _ => exact found

theorem Attached.gateway {action : GatewayAction} {event : Option Event}
    (attached : Attached s.gateway i task) (reach : (TinyLlb.gateway cfg arith).Reachable s.gateway)
    (step : GatewayStep cfg arith s.gateway action event g') (own : s.leavesToGateway action = true)
    (found : s.tasks i = some task) : Attached g' i task := by
  cases attached with
  | live a ticket foundA phase guard =>
      rcases step.owned own found (by simp [guard]) with same | ⟨over_, guard', live, dropped⟩
      · have kept : action ≠ .sched (.dropTicket i) := by
          rintro rfl
          simp [Streams.leavesToGateway, found, guard, Lifecycle.isDropped] at own
        exact .live a ticket (step.admitted_stays reach foundA phase kept) phase (same.trans guard)
      · obtain rfl := Lifecycle.open_.inj (guard.symm.trans live)
        exact .settled dropped over_
  | settled guard over_ =>
      rcases step.owned own found (by simp [guard]) with same | ⟨-, guard', live, -⟩
      · exact .settled (same.trans guard) over_
      · cases guard.symm.trans live

open TinyLlb.Streams in
theorem follow_admissions (arith : I64Arith) (g : Gateway) (i : Nat) (task task' : RetryTask) :
    (follow arith g i task task').system.admissions = g.system.admissions := by
  unfold follow
  dsimp only
  split <;> rfl

open TinyLlb.Streams in
theorem follow_elsewhere (arith : I64Arith) (g : Gateway) {i j : Nat} (other : j ≠ i)
    (task task' : RetryTask) : (follow arith g i task task').lifecycle j = g.lifecycle j := by
  unfold follow
  dsimp only
  split
  · exact Function.update_of_ne other _ _
  · exact Function.update_of_ne other _ _

open TinyLlb.Streams in
theorem follow_here (call : GuardCall arith task task') :
    (follow arith g i task task').lifecycle i = .open_ task'.lifecycleGuard := by
  have here : ∀ (h : Gateway) (lifecycle : Lifecycle),
      (h.setLifecycle i lifecycle).lifecycle i = lifecycle :=
    fun h lifecycle => Function.update_self ..
  unfold follow
  dsimp only
  split
  · rename_i positive
    cases call with
    | none _ counter | completed _ counter =>
        rw [counter] at positive
        omega
    | delivered count _ guard counter =>
        rw [counter, add_sub_cancel_left, guard]
        exact here _ _
  · exact here _ _

open TinyLlb.Streams in
/-- What a task tells its guard is a step of the gateway, or nothing. -/
theorem follow_run (cfg : GatewayConfig) (call : GuardCall arith task task')
    (live : g.lifecycle i = .open_ task.lifecycleGuard) :
    ∃ us, (gateway cfg arith).Exec g us (follow arith g i task task') ∧ Machine.events us = [] := by
  cases call with
  | none guard counter =>
      have same : follow arith g i task task' = g := by
        simp only [follow, counter, Int.sub_self, Int.lt_irrefl, if_false, guard, ← live,
          Gateway.setLifecycle, Function.update_eq_self]
      exact ⟨[], by rw [same]; exact .nil, rfl⟩
  | delivered count positive guard counter =>
      have step : (gateway cfg arith).next g (.addDelivered i count) =
          some (follow arith g i task task', none) := by
        simp only [gateway, nextGateway, live, positive, if_true, follow, counter,
          add_sub_cancel_left]
      exact ⟨_, .single step, rfl⟩
  | completed guard counter =>
      have step : (gateway cfg arith).next g (.markCompleted i) =
          some (follow arith g i task task', none) := by
        simp only [gateway, nextGateway, live, follow, counter, Int.sub_self, Int.lt_irrefl,
          if_false, guard]
      exact ⟨_, .single step, rfl⟩

/-- What the gateway and the tasks have come to after a run. -/
structure Beside (cfg : GatewayConfig) (arith : I64Arith) (config : Nat → RetryConfig)
    (ts : List StreamsTransition) (s : Streams) : Prop where
  viewed : ∃ us, (gateway cfg arith).Exec (Gateway.start cfg) us s.gateway ∧
    Machine.events us = schedulerEvents ts
  attached : ∀ i task, s.tasks i = some task → Attached s.gateway i task
  own : ∀ i task, s.tasks i = some task → ∃ flowId estimatedCost,
    (retryStream (Streams.configOf arith config i) (.new flowId estimatedCost)).Exec
      (retryStream (Streams.configOf arith config i) (.new flowId estimatedCost)).start
      (taskTrace i ts) task
  unspawned : ∀ i, s.tasks i = none → taskTrace i ts = []

theorem schedulerEvents_snoc (ts : List StreamsTransition) (tr : StreamsTransition) :
    schedulerEvents (ts ++ [tr]) = schedulerEvents ts ++ (tr.event.bind Sum.getLeft?).toList := by
  unfold schedulerEvents
  rw [Machine.events_append, Machine.events_singleton, List.filterMap_append]
  rcases tr with ⟨pre, action, _ | ⟨e | e⟩, post⟩ <;> rfl

theorem taskTrace_snoc (i : Nat) (ts : List StreamsTransition) (tr : StreamsTransition) :
    taskTrace i (ts ++ [tr]) = taskTrace i ts ++ (taskStep? i tr).toList := by
  unfold taskTrace
  rw [List.filterMap_append]
  cases step : taskStep? i tr <;> simp [step]

theorem Beside.start (cfg : GatewayConfig) (arith : I64Arith) (config : Nat → RetryConfig) :
    Beside cfg arith config [] (Streams.start cfg) where
  viewed := ⟨[], .nil, rfl⟩
  attached := by
    intro i task found
    cases found
  own := by
    intro i task found
    cases found
  unspawned := fun _ _ => rfl

theorem taskTrace_other {tr : StreamsTransition} (other : ∀ a, tr.action ≠ .task i a) :
    taskTrace i (ts ++ [tr]) = taskTrace i ts := by
  have none_ : taskStep? i tr = none := by
    unfold taskStep?
    split
    · rename_i j a task task' which _ _
      split
      · rename_i same
        subst same
        exact absurd which (other a)
      · rfl
    · rfl
  rw [taskTrace_snoc, none_]
  exact List.append_nil _

theorem taskTrace_task {action : TaskAction} {event : Option TaskEvent}
    (found : s.tasks i = some task) (after : s'.tasks i = some task') :
    taskTrace i (ts ++ [⟨s, .task i action, event.map fun e => .inr (i, e), s'⟩]) =
      taskTrace i ts ++ [⟨task, action, event, task'⟩] := by
  rw [taskTrace_snoc]
  congr 1
  cases event <;> simp [taskStep?, found, after]

theorem Beside.gateway {action : GatewayAction} {event : Option Event}
    (beside : Beside cfg arith config ts s) (own : s.leavesToGateway action = true)
    (next : nextGateway cfg arith s.gateway action = some (g', event)) :
    Beside cfg arith config
      (ts ++ [⟨s, .gateway action, event.map .inl, { s with gateway := g' }⟩])
      { s with gateway := g' } := by
  obtain ⟨us, before, shown⟩ := beside.viewed
  have quiet : ∀ i, taskTrace i (ts ++ [⟨s, .gateway action, event.map .inl,
      { s with gateway := g' }⟩]) = taskTrace i ts := fun i => taskTrace_other (by simp)
  refine ⟨⟨_, before.snoc next, ?_⟩, ?_, ?_, ?_⟩
  · rw [Machine.events_append, Machine.events_singleton, shown, schedulerEvents_snoc]
    cases event <;> rfl
  · intro i task found
    exact (beside.attached i task found).gateway ⟨us, before⟩ (.of_next next) own found
  · intro i task found
    rw [quiet]
    exact beside.own i task found
  · intro i free
    rw [quiet]
    exact beside.unspawned i free

theorem Beside.spawn {guard : LifecycleGuard} {a : Admission} {ticket : Ticket}
    (beside : Beside cfg arith config ts s) (live : s.gateway.lifecycle i = .open_ guard)
    (free : s.tasks i = none) (found : s.gateway.system.admissions[i]? = some a)
    (phase : a.phase = .admitted ticket) (fresh : guard = .new guard.flowId guard.estimatedCost)
    (after : s' = { s with tasks := Function.update s.tasks i (some (.start guard)) }) :
    Beside cfg arith config (ts ++ [⟨s, .spawn i, none, s'⟩]) s' := by
  obtain ⟨us, before, shown⟩ := beside.viewed
  have quiet : ∀ j, taskTrace j (ts ++ [⟨s, .spawn i, none, s'⟩]) = taskTrace j ts :=
    fun j => taskTrace_other (by simp)
  subst after
  refine ⟨⟨us, before, ?_⟩, ?_, ?_, ?_⟩
  · rw [shown, schedulerEvents_snoc]
    exact (List.append_nil _).symm
  · intro j task spawned
    by_cases same : j = i
    · subst j
      obtain rfl : RetryTask.start guard = task := by simpa using spawned
      exact .live a ticket found phase live
    · exact beside.attached j task (by simpa [same] using spawned)
  · intro j task spawned
    rw [quiet]
    by_cases same : j = i
    · subst j
      obtain rfl : RetryTask.start guard = task := by simpa using spawned
      rw [beside.unspawned i free]
      refine ⟨guard.flowId, guard.estimatedCost, ?_⟩
      rw [← fresh]
      exact .nil
    · exact beside.own j task (by simpa [same] using spawned)
  · intro j none_
    rw [quiet]
    apply beside.unspawned j
    by_cases same : j = i
    · subst j
      exact free
    · simpa [same] using none_

theorem Attached.active {action : TaskAction} {event : Option TaskEvent}
    (attached : Attached g i task)
    (next : nextTask (Streams.configOf arith config i) task action = some (task', event)) :
    ∃ a ticket, g.system.admissions[i]? = some a ∧ a.phase = .admitted ticket ∧
      g.lifecycle i = .open_ task.lifecycleGuard := by
  cases attached with
  | live a ticket found phase guard => exact ⟨a, ticket, found, phase, guard⟩
  | settled guard over_ =>
      cases pc : task.pc with
      | finished ending => exact absurd pc ((step_of_nextTask next).not_finished ending)
      | _ => simp [RetryTask.isOver, pc] at over_

theorem Beside.taskStep {action : TaskAction} {event : Option TaskEvent}
    (beside : Beside cfg arith config ts s) (found : s.tasks i = some task)
    (next : nextTask (Streams.configOf arith config i) task action = some (task', event))
    (after : s' = ⟨Streams.follow arith s.gateway i task task',
      Function.update s.tasks i (some task')⟩) :
    Beside cfg arith config
      (ts ++ [⟨s, .task i action, event.map fun e => .inr (i, e), s'⟩]) s' := by
  obtain ⟨us, before, shown⟩ := beside.viewed
  have call := guardCall_of_next next
  obtain ⟨a, ticket, foundA, phase, live⟩ := (beside.attached i task found).active next
  obtain ⟨more, moved, silent⟩ := follow_run cfg call live
  have mine : taskTrace i (ts ++ [⟨s, .task i action, event.map fun e => .inr (i, e), s'⟩]) =
      taskTrace i ts ++ [⟨task, action, event, task'⟩] := taskTrace_task found (by simp [after])
  have quiet : ∀ j, j ≠ i → taskTrace j
      (ts ++ [⟨s, .task i action, event.map fun e => .inr (i, e), s'⟩]) = taskTrace j ts := by
    intro j other
    apply taskTrace_other
    intro a which
    exact other (StreamsAction.task.inj which).1.symm
  subst after
  refine ⟨⟨us ++ more, before.trans moved, ?_⟩, ?_, ?_, ?_⟩
  · rw [Machine.events_append, silent, shown, schedulerEvents_snoc]
    cases event <;> rfl
  · intro j other found'
    by_cases same : j = i
    · subst j
      obtain rfl : task' = other := by simpa using found'
      exact .live a ticket ((follow_admissions ..).symm ▸ foundA) phase (follow_here call)
    · have foundJ : s.tasks j = some other := by simpa [same] using found'
      have kept := follow_elsewhere arith s.gateway same task task'
      cases beside.attached j other foundJ with
      | live b ticketB foundB phaseB guard =>
          exact .live b ticketB ((follow_admissions ..).symm ▸ foundB) phaseB (kept.trans guard)
      | settled guard over_ => exact .settled (kept.trans guard) over_
  · intro j other found'
    by_cases same : j = i
    · subst j
      obtain rfl : task' = other := by simpa using found'
      obtain ⟨flowId, estimatedCost, run⟩ := beside.own i task found
      rw [mine]
      exact ⟨flowId, estimatedCost, run.snoc next⟩
    · rw [quiet j same]
      exact beside.own j other (by simpa [same] using found')
  · intro j none_
    have same : j ≠ i := by
      rintro rfl
      simp at none_
    rw [quiet j same]
    exact beside.unspawned j (by simpa [same] using none_)

theorem Beside.next (beside : Beside cfg arith config ts s)
    (step : StreamsStep cfg arith config s action event s') :
    Beside cfg arith config (ts ++ [⟨s, action, event, s'⟩]) s' := by
  cases step with
  | gateway own next => exact beside.gateway own next
  | spawn live free found phase fresh => exact beside.spawn live free found phase fresh rfl
  | task found next => exact beside.taskStep found next rfl

theorem beside_of_run (run : (streams cfg arith config).Exec (Streams.start cfg) ts s) :
    Beside cfg arith config ts s := by
  induction run with
  | nil => exact Beside.start cfg arith config
  | snoc before next ih => exact ih.next (.of_next next)

theorem balanced_of_run {us} (run : (gateway cfg .exact).Exec (Gateway.start cfg) us g) :
    Balanced g (chosen (Machine.events us)) := by
  induction run with
  | nil => exact Balanced.start cfg
  | snoc before step ih =>
      rw [Machine.events_append, Machine.events_singleton, chosen_append]
      exact ih.next (guarded_of_run before) (debits_of_run before) ⟨_, before⟩ (.of_next step)
        (exactCredit_exact _ _ _)

theorem charge_of_stream {rc : RetryConfig} {flowId : FlowId} {estimatedCost : Int}
    {us : List TaskTransition} (unbounded : rc.arith = .exact)
    (run : (retryStream rc (.new flowId estimatedCost)).Exec
      (retryStream rc (.new flowId estimatedCost)).start us task) (over_ : task.isOver = true) :
    (Lifecycle.dropped task.lifecycleGuard).charge estimatedCost =
      streamCost rc estimatedCost us task := by
  have told := (guardTold_of_run run).1
  have estimate : task.lifecycleGuard.estimatedCost = estimatedCost := (guard_of_run run).2
  have delivered : task.lifecycleGuard.deliveredTokens = streamTokens rc us task := by
    unfold streamTokens
    split
    · rename_i accepted
      rw [told.delivered accepted, unbounded]
      rfl
    · rename_i open_
      exact told.undelivered (Bool.eq_false_iff.mpr open_)
  have completed : task.lifecycleGuard.completedNormally = (task.accepted && task.pc.isClosed) := by
    rw [Bool.eq_iff_iff, told.completed, Bool.and_eq_true]
    refine and_congr_right fun accepted => ?_
    cases pc : task.pc with
    | finished ending =>
        cases ending with
        | closed => simp [TaskPc.leaving, TaskPc.isClosed]
        | disconnected => simp [TaskPc.isClosed]
        | panicked => cases (open_of_panicked run pc).symm.trans accepted
    | _ => simp [RetryTask.isOver, pc] at over_
  have nonneg := streamTokens_nonneg rc us task
  simp only [Lifecycle.charge, Lifecycle.inFlight, Lifecycle.completedDelivered,
    Lifecycle.completedUnreported, Lifecycle.cancelledDelivered, streamCost, completed, delivered,
    estimate, Bool.and_eq_true, decide_eq_true_eq]
  by_cases ended : task.accepted = true ∧ task.pc.isClosed = true
  · by_cases none_ : streamTokens rc us task = 0
    · simp [ended, none_]
    · have some_ : 0 < streamTokens rc us task := by omega
      simp [ended, none_, some_]
  · simp [ended]

namespace Streams

/-- Streams whose guard has not been dropped. -/
def live (s : Streams) : Nat :=
  (List.range s.gateway.system.admissions.length).countP fun i =>
    (s.tasks i).isSome && !(s.gateway.lifecycle i).isDropped

/-- What request `i` is charged: the cost of its stream, once that is settled. -/
def owed (arith : I64Arith) (config : Nat → RetryConfig) (ts : List StreamsTransition) (s : Streams)
    (i : Nat) : Int :=
  match s.tasks i, s.gateway.lifecycle i with
  | some task, .dropped _ =>
      streamCost (configOf arith config i) (s.gateway.costOf i) (taskTrace i ts) task
  | _, lifecycle => lifecycle.charge (s.gateway.costOf i)

end Streams

open TinyLlb.Streams in
/-- Any number of stream tasks beside the gateway. -/
structure StreamsSettle (cfg : GatewayConfig) (arith : I64Arith) (config : Nat → RetryConfig)
    (ts : List StreamsTransition) (s : Streams) : Prop where
  /-- For the gateway this is one of its runs. -/
  refines : ∃ us, (gateway cfg arith).Exec (Gateway.start cfg) us s.gateway ∧
    Machine.events us = schedulerEvents ts
  /-- Each task runs as it does alone, for the flow and the estimate of its admission. -/
  alone : ∀ i task, s.tasks i = some task → ∃ a, s.gateway.system.admissions[i]? = some a ∧
    (retryStream (configOf arith config i) (.new a.flowId a.workUnit.asI64)).Exec
      (retryStream (configOf arith config i) (.new a.flowId a.workUnit.asI64)).start (taskTrace i ts)
      task
  attached : ∀ i task, s.tasks i = some task → Attached s.gateway i task
  /-- What its guard has been told, of the events cut from the bytes of its attempt. -/
  told : ∀ i task, s.tasks i = some task →
    GuardTold (configOf arith config i) (attemptBytes (configOf arith config i) (taskTrace i ts))
      (handledFrames (taskTrace i ts)) task
  bounded : s.live ≤ cfg.scheduler.maxActiveFlows.toNat
  /-- Without overflow, a flow's credit is minus what is owed for its requests. -/
  credit : arith = .exact → ∀ f, (s.gateway.system.flow f).credit =
    -Slots.total
      (fun i => if s.gateway.system.flowOf i = some f then s.owed arith config ts i else 0)
      (chosen (schedulerEvents ts))

theorem Beside.bounded (beside : Beside cfg arith config ts s) :
    s.live ≤ cfg.scheduler.maxActiveFlows.toNat := by
  obtain ⟨us, viewed, -⟩ := beside.viewed
  have inv := SystemInv.reachable (Gateway.reachable ⟨us, viewed⟩)
  have places : s.live ≤ s.gateway.system.ticketsSent := by
    apply Slots.countP_range_le
    intro i a found marked
    rw [Bool.and_eq_true, Option.isSome_iff_exists] at marked
    obtain ⟨⟨task, spawned⟩, open_⟩ := marked
    cases beside.attached i task spawned with
    | live b ticket foundB phase guard =>
        obtain rfl := Option.some.inj (found.symm.trans foundB)
        rw [phase]
        rfl
    | settled guard => simp [guard, Lifecycle.isDropped] at open_
  have conserved := inv.conserved
  rw [System.ticketsOut_eq, inv.budget] at conserved
  omega

theorem Beside.alone (beside : Beside cfg arith config ts s) {i : Nat} {task : RetryTask}
    (spawned : s.tasks i = some task) :
    ∃ a, s.gateway.system.admissions[i]? = some a ∧
      (retryStream (Streams.configOf arith config i) (.new a.flowId a.workUnit.asI64)).Exec
        (retryStream (Streams.configOf arith config i) (.new a.flowId a.workUnit.asI64)).start
        (taskTrace i ts) task := by
  obtain ⟨us, viewed, -⟩ := beside.viewed
  obtain ⟨a, found, flow, cost, -⟩ := guarded_of_run viewed i task.lifecycleGuard
    (beside.attached i task spawned).guard?
  obtain ⟨flowId, estimatedCost, run⟩ := beside.own i task spawned
  obtain ⟨sameFlow, sameCost⟩ := guard_of_run run
  obtain rfl : flowId = a.flowId := sameFlow.symm.trans flow
  obtain rfl : estimatedCost = a.workUnit.asI64 := sameCost.symm.trans cost
  exact ⟨a, found, run⟩

/-- What the ledger of the gateway has for a request is what is owed for it. -/
theorem Beside.charge_eq (beside : Beside cfg .exact config ts s) (i : Nat) :
    (s.gateway.lifecycle i).charge (s.gateway.costOf i) = s.owed .exact config ts i := by
  unfold Streams.owed
  split
  · rename_i task guard spawned dropped
    obtain ⟨a, found, run⟩ := beside.alone spawned
    have cost : s.gateway.costOf i = a.workUnit.asI64 := by simp [Gateway.costOf, found]
    cases beside.attached i task spawned with
    | live b ticket foundB phase guard' => cases guard'.symm.trans dropped
    | settled guard' over_ =>
        obtain rfl := Lifecycle.dropped.inj (guard'.symm.trans dropped)
        rw [dropped, cost]
        exact charge_of_stream rfl run over_
  · rfl

/-- For every number of streamed requests and every interleaving of the gateway, the
    tasks and their clients: the gateway keeps to its own runs and every task to those
    it has alone, no more streams are open than there are places, and what a flow
    owes for a stream is what the backend counted in the accepted attempt. -/
theorem streams_settle (run : (streams cfg arith config).Exec (Streams.start cfg) ts s) :
    StreamsSettle cfg arith config ts s := by
  have beside := beside_of_run run
  refine ⟨beside.viewed, fun i task => beside.alone, beside.attached, ?_, beside.bounded, ?_⟩
  · intro i task spawned
    obtain ⟨a, -, alone⟩ := beside.alone spawned
    exact (guardTold_of_run alone).1
  · rintro rfl f
    obtain ⟨us, viewed, shown⟩ := beside.viewed
    rw [balanced_of_run viewed f, shown]
    congr 1
    apply Slots.total_congr
    intro i _
    unfold Gateway.share
    rw [beside.charge_eq i]

end

/-- The client goes away when the frame with the five tokens is to be sent. -/
def abandonedTurn : List TaskAction :=
  [.read (.chunk (sampleEvent sampleContent)) false, .step true, .step true,
    .read (.chunk (sampleEvent sampleStop ++ sampleEvent sampleUsage)) false, .step true, .step false]

/-- One streamed request with an estimate of one token. -/
def oneStream : List StreamsAction :=
  (GatewayAction.serve [.wakeNotified] ⟨"a"⟩ 1 0).map .gateway ++ [.spawn 0] ++
    abandonedTurn.map (.task 0) ++ [.gateway (.dropLifecycle 0), .gateway (.sched (.dropTicket 0))]

theorem streams_settle_abandoned :
    let m := streams .default .exact fun _ => .sample
    ((m.after oneStream).gateway.system.flow ⟨"a"⟩).credit = -5 ∧
      chosen (schedulerEvents (m.trace oneStream)) = [0] ∧
      StreamsSettle .default .exact (fun _ => .sample) (m.trace oneStream) (m.after oneStream) := by
  intro m
  exact ⟨by decide +kernel, by decide +kernel, streams_settle (m.exec_after oneStream)⟩

end TinyLlb
