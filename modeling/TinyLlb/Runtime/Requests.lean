import TinyLlb.Library.QueueAccount
import TinyLlb.Runtime.Links

/-! # No request is lost or served twice

The events of a run give every flow a history: the ids issued to it, the ids
`try_select` returned for it, and the ids its guards removed. Together with the
queue that is left, these are the account of a queue, and each step keeps it.
-/

namespace TinyLlb

variable {cfg : Config} {arith : I64Arith} {s s' : System} {action : Action} {event : Option Event}

/-- The ids issued, with their flows, oldest first. -/
def issues (es : List Event) : List (FlowId × Nat) :=
  es.filterMap fun
    | .enqueued _ f p => some (f, p.pendingId)
    | _ => none

def issuedIds (f : FlowId) (es : List Event) : List Nat :=
  ((issues es).filter fun issue => decide (issue.1 = f)).map Prod.snd

/-- The ids that `try_select` returned for `f`, oldest first. -/
def selectedIds (f : FlowId) (es : List Event) : List Nat :=
  es.filterMap fun
    | .selected selection _ =>
        if selection.flowId = f then some selection.pending.pendingId else none
    | _ => none

/-- The ids that guards removed from the queue of `f`. -/
def removedIds (f : FlowId) (es : List Event) : List Nat :=
  es.flatMap fun
    | .cancelled _ g removed => if g = f then pendingIds removed else []
    | _ => []

@[simp] theorem issues_append (before after : List Event) :
    issues (before ++ after) = issues before ++ issues after := List.filterMap_append

@[simp] theorem issuedIds_append (f : FlowId) (before after : List Event) :
    issuedIds f (before ++ after) = issuedIds f before ++ issuedIds f after := by
  simp [issuedIds]

@[simp] theorem selectedIds_append (f : FlowId) (before after : List Event) :
    selectedIds f (before ++ after) = selectedIds f before ++ selectedIds f after :=
  List.filterMap_append

@[simp] theorem removedIds_append (f : FlowId) (before after : List Event) :
    removedIds f (before ++ after) = removedIds f before ++ removedIds f after :=
  List.flatMap_append

structure Accounts (s : System) (es : List Event) : Prop where
  below : ∀ issue ∈ issues es, issue.2 < s.inner.nextPendingId
  increasing : ((issues es).map Prod.snd).Pairwise (· < ·)
  account : ∀ f, QueueAccount (issuedIds f es) (selectedIds f es) (removedIds f es)
    (pendingIds (s.inner.queue f))

/-- Events that say nothing about requests. -/
def Event.isSilent : Option Event → Bool
  | none => true
  | some (.capRead _ _) => true
  | _ => false

theorem silent_histories {event : Option Event} (silent : Event.isSilent event = true) :
    issues event.toList = [] ∧ ∀ f, issuedIds f event.toList = [] ∧
      selectedIds f event.toList = [] ∧ removedIds f event.toList = [] := by
  cases event with
  | none => exact ⟨rfl, fun _ => ⟨rfl, rfl, rfl⟩⟩
  | some e =>
      cases e with
      | capRead => exact ⟨rfl, fun _ => ⟨rfl, rfl, rfl⟩⟩
      | enqueued | selected | cancelled => simp [Event.isSilent] at silent

namespace Accounts

variable {es : List Event}

theorem start (cfg : Config) : Accounts (System.start cfg) [] where
  below := by simp [issues]
  increasing := by simp [issues]
  account := fun _ => QueueAccount.empty

theorem frame (accounts : Accounts s es) (event : Option Event)
    (silent : Event.isSilent event = true)
    (queue : s'.inner.queue = s.inner.queue)
    (nextId : s'.inner.nextPendingId = s.inner.nextPendingId) :
    Accounts s' (es ++ event.toList) := by
  obtain ⟨noIssue, perFlow⟩ := silent_histories silent
  refine ⟨?_, ?_, ?_⟩
  · rw [issues_append, noIssue, List.append_nil, nextId]
    exact accounts.below
  · rw [issues_append, noIssue, List.append_nil]
    exact accounts.increasing
  · intro f
    obtain ⟨issued, selected, removed⟩ := perFlow f
    rw [issuedIds_append, selectedIds_append, removedIds_append, issued, selected, removed, queue]
    simpa only [List.append_nil] using accounts.account f

theorem enqueue (accounts : Accounts s es) (i : Nat) (a : Admission) :
    Accounts (s.enqueue i a)
      (es ++ [.enqueued i a.flowId ⟨s.inner.nextPendingId, i, a.enter, a.workUnit⟩]) where
  below := by
    intro issue member
    rw [issues_append, List.mem_append] at member
    cases member with
    | inl old => exact Nat.lt_succ_of_lt (accounts.below issue old)
    | inr new =>
        obtain rfl := List.mem_singleton.mp new
        exact Nat.lt_succ_self _
  increasing := by
    rw [issues_append, List.map_append, List.pairwise_append]
    refine ⟨accounts.increasing, List.pairwise_singleton _ _, ?_⟩
    intro x old y new
    obtain rfl : y = s.inner.nextPendingId := List.mem_singleton.mp new
    obtain ⟨issue, member, rfl⟩ := List.mem_map.mp old
    exact accounts.below issue member
  account := by
    intro f
    have account := accounts.account f
    have queue : (s.enqueue i a).inner.queue f = _ := DrrState.queue_enqueue _ _ _ _ _ f
    rw [issuedIds_append, selectedIds_append, removedIds_append, queue]
    by_cases same : f = a.flowId
    · subst f
      simp only [if_true, pendingIds, List.map_append, List.map_cons, List.map_nil]
      have issued : issuedIds a.flowId
          [.enqueued i a.flowId ⟨s.inner.nextPendingId, i, a.enter, a.workUnit⟩] =
          [s.inner.nextPendingId] := by simp [issuedIds, issues]
      have selected : selectedIds a.flowId
          [.enqueued i a.flowId ⟨s.inner.nextPendingId, i, a.enter, a.workUnit⟩] = [] := rfl
      have removed : removedIds a.flowId
          [.enqueued i a.flowId ⟨s.inner.nextPendingId, i, a.enter, a.workUnit⟩] = [] := rfl
      rw [issued, selected, removed, List.append_nil, List.append_nil]
      apply account.push
      intro id member
      obtain ⟨issue, listed, rfl⟩ := List.mem_map.mp member
      exact accounts.below issue (List.mem_of_mem_filter listed)
    · have other : ¬ a.flowId = f := fun h => same h.symm
      simpa [same, other, issuedIds, issues, selectedIds, removedIds] using account

theorem dropGuard (accounts : Accounts s es) (i : Nat) (a : Admission) (pendingId : Option Nat) :
    Accounts (s.dropGuard i a pendingId)
      (es ++ [.cancelled i a.flowId
        ((s.inner.queue a.flowId).filter fun p => decide (pendingId = some p.pendingId))]) where
  below := by
    intro issue member
    rw [issues_append] at member
    have nextId : (s.dropGuard i a pendingId).inner.nextPendingId = s.inner.nextPendingId :=
      (DrrState.dropGuard_counters _ _ _).1
    rw [nextId]
    exact accounts.below issue (by simpa [issues] using member)
  increasing := by
    rw [issues_append]
    simpa [issues] using accounts.increasing
  account := by
    intro f
    have account := accounts.account f
    have queue : (s.dropGuard i a pendingId).inner.queue f = _ := DrrState.queue_dropGuard _ _ _ f
    rw [issuedIds_append, selectedIds_append, removedIds_append, queue]
    by_cases same : f = a.flowId
    · subst f
      have removed : removedIds a.flowId [.cancelled i a.flowId
          ((s.inner.queue a.flowId).filter fun p => decide (pendingId = some p.pendingId))] =
          pendingIds
            ((s.inner.queue a.flowId).filter fun p => decide (pendingId = some p.pendingId)) := by
        simp [removedIds]
      have kept : DrrState.kept pendingId (s.inner.queue a.flowId) =
          (s.inner.queue a.flowId).filter fun p => !decide (pendingId = some p.pendingId) := by
        cases pendingId with
        | none => simp [DrrState.kept]
        | some myId =>
            simp only [DrrState.kept, Option.some.injEq, ne_eq, decide_not]
            apply List.filter_congr
            intro p _
            exact congrArg (!·) (decide_eq_decide.mpr eq_comm)
      have nothing : issuedIds a.flowId [.cancelled i a.flowId
          ((s.inner.queue a.flowId).filter fun p => decide (pendingId = some p.pendingId))] = [] ∧
          selectedIds a.flowId [.cancelled i a.flowId
          ((s.inner.queue a.flowId).filter fun p => decide (pendingId = some p.pendingId))] = [] :=
        ⟨rfl, rfl⟩
      rw [removed, nothing.1, nothing.2, List.append_nil, List.append_nil, if_pos rfl]
      refine account.delete ?_ ((DrrState.kept_sublist _ _).map _)
      rw [kept, pendingIds, pendingIds, pendingIds, ← List.map_append]
      exact (List.filter_append_perm _ _).symm.map _
    · have other : ¬ a.flowId = f := fun h => same h.symm
      simpa [same, other, issuedIds, issues, selectedIds, removedIds] using account

theorem round (accounts : Accounts s es) {env : SelectEnv} {r : Round}
    (spec : RoundSpec env s.registry s.inner r) {forced : Bool} :
    Accounts (s.afterRound r)
      (es ++ (r.selection.map fun selection => Event.selected selection forced).toList) := by
  cases selected : r.selection with
  | none =>
      obtain ⟨waiting, nextId⟩ := spec.waiting_eq selected
      refine accounts.frame none rfl ?_ nextId
      funext f
      simp only [System.afterRound, DrrState.queue, waiting]
  | some selection =>
      obtain ⟨-, rest, served⟩ := spec.served selected
      simp only [Option.map_some, Option.toList_some]
      refine ⟨?_, ?_, ?_⟩
      · intro issue member
        rw [issues_append] at member
        have nextId : (s.afterRound r).inner.nextPendingId = s.inner.nextPendingId := served.nextId
        rw [nextId]
        exact accounts.below issue (by simpa [issues] using member)
      · rw [issues_append]
        simpa [issues] using accounts.increasing
      · intro f
        have account := accounts.account f
        have queue : (s.afterRound r).inner.queue f = _ := served.queue f
        rw [issuedIds_append, selectedIds_append, removedIds_append, queue]
        by_cases same : f = selection.flowId
        · subst f
          have issued : issuedIds selection.flowId [.selected selection forced] = [] := rfl
          have taken : selectedIds selection.flowId [.selected selection forced] =
              [selection.pending.pendingId] := by simp [selectedIds]
          have removed : removedIds selection.flowId [.selected selection forced] = [] := rfl
          rw [issued, taken, removed, List.append_nil, List.append_nil, if_pos rfl]
          rw [served.head] at account
          exact account.pop
        · have other : ¬ selection.flowId = f := fun h => same h.symm
          simpa [same, other, issuedIds, issues, selectedIds, removedIds] using account

theorem next (accounts : Accounts s es) (step : Step cfg arith s action event s') :
    Accounts s' (es ++ event.toList) := by
  cases step with
  | enqueue => exact accounts.enqueue _ _
  | dropGuard => exact accounts.dropGuard _ _ _
  | round pc spec => exact accounts.round spec
  | closeReceiver =>
      unfold System.closeReceiver
      split <;> exact accounts.frame _ rfl rfl rfl
  | _ => exact accounts.frame _ rfl rfl rfl

theorem of_run {ts} (run : (scheduler cfg arith).Exec (System.start cfg) ts s) :
    Accounts s (Machine.events ts) := by
  induction run with
  | nil => exact start cfg
  | snoc before step ih =>
      have inv := SystemInv.reachable ⟨_, before⟩
      rw [Machine.events_append, Machine.events_singleton]
      exact ih.next (inv.step_of_next step)

theorem flow_unique (accounts : Accounts s es) {f g : FlowId} {id : Nat}
    (inF : (f, id) ∈ issues es) (inG : (g, id) ∈ issues es) : f = g := by
  have injective : Set.InjOn Prod.snd {issue | issue ∈ issues es} :=
    List.inj_on_of_nodup_map (accounts.increasing.imp fun h => Nat.ne_of_lt h)
  have same := injective inF inG rfl
  exact congrArg Prod.fst same

theorem mem_issuedIds {f : FlowId} {id : Nat} : id ∈ issuedIds f es ↔ (f, id) ∈ issues es := by
  simp [issuedIds]

end Accounts

/-- Among the queued requests, a guard carries the id of its own one only. -/
theorem Links.own_iff (links : Links s) {i : Nat} {a : Admission} {pendingId : Option Nat}
    (found : s.admissions[i]? = some a) (phase : a.phase = .unwinding pendingId) {g : FlowId}
    {p : Pending} (queued : p ∈ s.inner.queue g) :
    p.tx = i ↔ g = a.flowId ∧ pendingId = some p.pendingId := by
  obtain ⟨b, foundB, waits⟩ := links.queued g p queued
  constructor
  · intro mine
    rw [mine, found, Option.some.injEq] at foundB
    subst b
    exact ⟨waits.flow.symm, by simpa [phase, Phase.Awaits] using waits.awaits⟩
  · rintro ⟨-, carries⟩
    refine links.distinct p.tx i b a p.pendingId foundB found
      (Phase.guardId_of_awaits waits.awaits) ?_
    simpa [phase, Phase.guardId] using carries

/-- Dropping a guard takes out the request of its own admission, if that is
    still queued, and leaves all others in place. -/
theorem Links.queue_dropGuard (links : Links s) {i : Nat} {a : Admission} {pendingId : Option Nat}
    (found : s.admissions[i]? = some a) (phase : a.phase = .unwinding pendingId) (g : FlowId) :
    (s.dropGuard i a pendingId).inner.queue g =
      (s.inner.queue g).filter fun p => decide (p.tx ≠ i) := by
  have queue : (s.dropGuard i a pendingId).inner.queue g = _ := DrrState.queue_dropGuard _ _ _ g
  rw [queue]
  by_cases same : g = a.flowId
  · subst g
    rw [if_pos rfl]
    cases pendingId with
    | none =>
        symm
        simp only [DrrState.kept, List.filter_eq_self, decide_eq_true_eq]
        intro p queued mine
        have carries := ((links.own_iff found phase queued).mp mine).2
        simp at carries
    | some myId =>
        apply List.filter_congr
        intro p queued
        have own := links.own_iff found phase queued
        simp only [Option.some.injEq, true_and] at own
        rw [decide_eq_decide, ne_eq, ne_eq, own, eq_comm]
  · rw [if_neg same]
    symm
    simp only [List.filter_eq_self, decide_eq_true_eq]
    intro p queued mine
    exact same ((links.own_iff found phase queued).mp mine).1

/-- Every id ever issued is in the queue of its flow, was returned by one
    selection, or was removed by its own guard: exactly one of these, once. A
    guard removes no request but its own, and the ids of a flow are selected in
    increasing order. -/
theorem requests_exactly_once (cfg : Config) (arith : I64Arith) {ts s}
    (run : (scheduler cfg arith).Exec (System.start cfg) ts s) :
    (∀ i f p, Event.enqueued i f p ∈ Machine.events ts →
      p.tx = i ∧
      (pendingIds (s.inner.queue f)).count p.pendingId +
        (selectedIds f (Machine.events ts)).count p.pendingId +
        (removedIds f (Machine.events ts)).count p.pendingId = 1 ∧
      ∀ g, g ≠ f → p.pendingId ∉ pendingIds (s.inner.queue g) ∧
        p.pendingId ∉ selectedIds g (Machine.events ts) ∧
        p.pendingId ∉ removedIds g (Machine.events ts)) ∧
      (∀ i f removed, Event.cancelled i f removed ∈ Machine.events ts → ∀ p ∈ removed, p.tx = i) ∧
      (∀ tr ∈ ts, ∀ i, tr.action = .dropGuard i → ∀ g,
        tr.post.inner.queue g = (tr.pre.inner.queue g).filter fun p => decide (p.tx ≠ i)) ∧
      ∀ f, (selectedIds f (Machine.events ts)).Pairwise (· < ·) := by
  have accounts := Accounts.of_run run
  have linked : ∀ tr ∈ ts, Links tr.pre := by
    intro tr member
    obtain ⟨before, -, -, first, -⟩ := run.split_of_mem member
    exact Links.reachable ⟨before, first⟩
  refine ⟨?_, ?_, ?_, fun f => (accounts.account f).taken_increasing⟩
  · intro i f p member
    have issued : (f, p.pendingId) ∈ issues (Machine.events ts) :=
      List.mem_filterMap.mpr ⟨_, member, rfl⟩
    have nodup : (issuedIds f (Machine.events ts)).Nodup := by
      have sub : (issuedIds f (Machine.events ts)).Sublist
          ((issues (Machine.events ts)).map Prod.snd) := List.filter_sublist.map Prod.snd
      exact (accounts.increasing.sublist sub).imp fun h => Nat.ne_of_lt h
    refine ⟨?_, ?_, ?_⟩
    · obtain ⟨tr, inRun, emitted⟩ := List.mem_filterMap.mp member
      obtain ⟨a, -, -, -, -, rfl, -⟩ := (step_of_run run inRun).2.of_enqueued emitted
      rfl
    · exact (accounts.account f).exactly_once nodup (Accounts.mem_issuedIds.mpr issued)
    · intro g other
      have notIssued : p.pendingId ∉ issuedIds g (Machine.events ts) := by
        intro alsoG
        exact other (accounts.flow_unique (Accounts.mem_issuedIds.mp alsoG) issued)
      rw [(accounts.account g).mem_issued] at notIssued
      simp only [not_or] at notIssued
      exact ⟨notIssued.2.2, notIssued.1, notIssued.2.1⟩
  · intro i f removed member p inRemoved
    obtain ⟨tr, inRun, emitted⟩ := List.mem_filterMap.mp member
    obtain ⟨a, pendingId, -, found, phase, same, rfl, -⟩ :=
      (step_of_run run inRun).2.of_cancelled emitted
    obtain ⟨queued, carries⟩ := List.mem_filter.mp inRemoved
    exact ((linked tr inRun).own_iff found phase queued).mpr ⟨same, by simpa using carries⟩
  · intro tr inRun i drops g
    obtain ⟨a, pendingId, found, phase, post⟩ := (step_of_run run inRun).2.of_dropGuard drops
    rw [post]
    exact (linked tr inRun).queue_dropGuard found phase g

/-- Of two requests of a flow the second one is cancelled and the first one is
    selected. -/
theorem requests_exactly_once_sibling :
    let m := scheduler .default .wrapping
    let ts := m.trace
      [.arrive ⟨"a"⟩ (.fin 1), .createGuard 0, .enqueue 0, .stamp 0, .notify 0,
        .arrive ⟨"a"⟩ (.fin 1), .createGuard 1, .enqueue 1, .stamp 1, .notify 1,
        .cancel 1, .dropGuard 1, .wakeNotified, .readCap, .readState, .trySelect]
    selectedIds ⟨"a"⟩ (Machine.events ts) = [0] ∧ removedIds ⟨"a"⟩ (Machine.events ts) = [1] ∧
      ∀ tr ∈ ts, ∀ i, tr.action = .dropGuard i → ∀ g,
        tr.post.inner.queue g = (tr.pre.inner.queue g).filter fun p => decide (p.tx ≠ i) := by
  refine ⟨by decide +kernel, by decide +kernel, ?_⟩
  exact (requests_exactly_once .default .wrapping (Machine.exec_after _ _)).2.2.1

end TinyLlb
