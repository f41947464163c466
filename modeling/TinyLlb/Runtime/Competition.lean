import Mathlib.Algebra.BigOperators.Group.List.Basic
import Mathlib.Algebra.Order.Ring.Rat
import Mathlib.Data.Finset.Card
import Mathlib.Tactic.Ring
import TinyLlb.Runtime.Lulls
import TinyLlb.Scheduler.Duel

/-! # Runs in which two flows compete

What weighted fairness promises is about runs in which a fixed set of flows
competes at one priority. This module says what such a run is, and drives one:
any two of the flows can be kept backlogged through as many rounds as one likes,
and each is then served as often as it wins their duel.
-/

namespace TinyLlb

/-- The work of `f` that an event selects. -/
def Event.workFor (f : FlowId) : Event → ℚ
  | .selected selection _ => if selection.flowId = f then selection.workUnit.toRat else 0
  | _ => 0

/-- The total work of `f` selected in a stretch of a run. -/
def served (f : FlowId) (ts : List (Transition System Action Event)) : ℚ :=
  ((Machine.events ts).map (Event.workFor f)).sum

/-- Everybody who waits is one of `flows`, with its constant weight and the
    common priority. -/
def System.Contenders (flows : Finset FlowId) (w : FlowId → ℕ) (priority : Nat) (s : System) :
    Prop :=
  ∀ f, s.inner.queue f ≠ [] →
    f ∈ flows ∧ (s.flow f).weight = .fin (w f) ∧ (s.flow f).priority = priority

/-- A step of a run that the promise covers: only the given flows compete, no
    request costs more than `most`, and nobody is selected by force. -/
structure Competes (flows : Finset FlowId) (w : FlowId → ℕ) (most : ℚ) (priority : Nat)
    (tr : Transition System Action Event) : Prop where
  contenders : tr.pre.Contenders flows w priority
  costs : ∀ i f p, tr.event = some (.enqueued i f p) →
    ∃ cost, p.workUnit = .fin cost ∧ 0 ≤ cost ∧ cost ≤ most
  calm : ∀ selection, tr.event ≠ some (.selected selection true)

/-- The queue of `f` is never empty. -/
def Backlogged (f : FlowId) (ts : List (Transition System Action Event)) : Prop :=
  ∀ tr ∈ ts, tr.pre.inner.queue f ≠ [] ∧ tr.post.inner.queue f ≠ []

variable {cfg : Config} {arith : I64Arith} {s s' : System} {action : Action} {event : Option Event}

@[simp] theorem served_append (f : FlowId) (before after : List (Transition System Action Event)) :
    served f (before ++ after) = served f before + served f after := by
  simp [served]

theorem queued_cost {flows : Finset FlowId} {w : FlowId → ℕ} {most : ℚ} {priority : Nat} {ts}
    (run : (scheduler cfg arith).Exec (System.start cfg) ts s)
    (competes : ∀ tr ∈ ts, Competes flows w most priority tr) {f : FlowId} {p : Pending}
    (member : p ∈ s.inner.queue f) : ∃ cost, p.workUnit = .fin cost ∧ 0 ≤ cost ∧ cost ≤ most := by
  induction run with
  | nil => simp [System.start, DrrState.queue, DrrState.new] at member
  | snoc before step ih =>
      have inv := SystemInv.reachable ⟨_, before⟩
      cases (inv.step_of_next step).mem_queue member with
      | inl old => exact ih (fun tr earlier => competes tr (List.mem_append_left _ earlier)) old
      | inr pushed =>
          obtain ⟨i, emitted⟩ := pushed
          exact (competes _ (List.mem_append_right _ (List.mem_singleton_self _))).costs i f p emitted

theorem served_eq_zero {f : FlowId} {ts : List (Transition System Action Event)}
    (nothing : ∀ tr ∈ ts, ∀ e ∈ tr.event, e.workFor f = 0) : served f ts = 0 := by
  apply List.sum_eq_zero
  intro work member
  obtain ⟨e, emitted, rfl⟩ := List.mem_map.mp member
  obtain ⟨tr, inRun, happened⟩ := List.mem_filterMap.mp emitted
  exact nothing tr inRun e happened

theorem served_of_free {flows : Finset FlowId} {w : FlowId → ℕ} {most : ℚ} {priority : Nat}
    {before ts} (free : most ≤ 0)
    (first : (scheduler cfg arith).Exec (System.start cfg) before s)
    (second : (scheduler cfg arith).Exec s ts s')
    (competes : ∀ tr ∈ before ++ ts, Competes flows w most priority tr) (f : FlowId) :
    served f ts = 0 := by
  apply served_eq_zero
  intro tr member e happened
  cases e with
  | enqueued | capRead | cancelled => rfl
  | selected selection forced =>
      obtain ⟨early, late, rfl, prior, -⟩ := second.split_of_mem member
      have run := first.trans prior
      have inv := SystemInv.reachable ⟨_, run⟩
      have step := inv.step_of_next (second.step_of_mem member)
      obtain ⟨cap, r, -, -, spec, chosen, -, -⟩ := step.of_selected happened
      obtain ⟨-, rest, served⟩ := spec.served chosen
      have queued : selection.pending ∈ tr.pre.inner.queue selection.flowId := by simp [served.head]
      have within : ∀ tr ∈ before ++ early, Competes flows w most priority tr := by
        intro tr' earlier
        apply competes tr'
        rw [← List.append_assoc]
        exact List.mem_append_left _ earlier
      obtain ⟨cost, paid, nonneg, small⟩ := queued_cost run within queued
      have zero : cost = 0 := le_antisymm (small.trans free) nonneg
      have work : selection.workUnit.toRat = 0 := by
        rw [spec.workUnit_eq chosen, paid, zero]
        rfl
      simp [Event.workFor, work]

theorem SameContest.contenders {flows : Finset FlowId} {w : FlowId → ℕ} {priority : Nat}
    (same : SameContest s s') : s'.Contenders flows w priority ↔ s.Contenders flows w priority := by
  simp only [System.Contenders, same.queue, same.weight, same.priority]

namespace Lull

theorem competes {flows : Finset FlowId} {w : FlowId → ℕ} {most : ℚ} {priority : Nat} {ts}
    (lull : Lull cfg arith s ts s') (contenders : s.Contenders flows w priority) :
    ∀ tr ∈ ts, Competes flows w most priority tr := by
  intro tr member
  have silent := lull.silent tr member
  refine ⟨(lull.pre tr member).contenders.mpr contenders, ?_, ?_⟩
  · intro i f p emitted
    simp [emitted, Event.isSilent] at silent
  · intro selection emitted
    simp [emitted, Event.isSilent] at silent

theorem backlogged {f : FlowId} {ts} (lull : Lull cfg arith s ts s')
    (waits : s.inner.queue f ≠ []) : Backlogged f ts := by
  intro tr member
  rw [(lull.pre tr member).queue, (lull.post tr member).queue]
  exact ⟨waits, waits⟩

theorem served {ts} (lull : Lull cfg arith s ts s') (f : FlowId) : served f ts = 0 := by
  apply served_eq_zero
  intro tr member e happened
  have silent := lull.silent tr member
  rw [Option.mem_def.mp happened] at silent
  cases e with
  | capRead => rfl
  | enqueued | selected | cancelled => simp [Event.isSilent] at silent

/-! One step between two lulls. -/

variable {flows : Finset FlowId} {w : FlowId → ℕ} {most : ℚ} {priority : Nat} {f : FlowId}
  {early late : List (Transition System Action Event)} (tr : Transition System Action Event)

theorem competes_around (lull : Lull cfg arith s early tr.pre)
    (lull' : Lull cfg arith tr.post late s') (before : s.Contenders flows w priority)
    (here : Competes flows w most priority tr) (after : tr.post.Contenders flows w priority) :
    ∀ t ∈ early ++ tr :: late, Competes flows w most priority t := by
  intro t member
  cases List.mem_append.mp member with
  | inl inEarly => exact lull.competes before t inEarly
  | inr rest =>
      cases List.mem_cons.mp rest with
      | inl same =>
          subst same
          exact here
      | inr inLate => exact lull'.competes after t inLate

theorem backlogged_around (lull : Lull cfg arith s early tr.pre)
    (lull' : Lull cfg arith tr.post late s') (before : s.inner.queue f ≠ [])
    (after : tr.post.inner.queue f ≠ []) : Backlogged f (early ++ tr :: late) := by
  intro t member
  cases List.mem_append.mp member with
  | inl inEarly => exact lull.backlogged before t inEarly
  | inr rest =>
      cases List.mem_cons.mp rest with
      | inl same =>
          subst same
          rw [lull.same.queue]
          exact ⟨before, after⟩
      | inr inLate => exact lull'.backlogged after t inLate

theorem served_around (lull : Lull cfg arith s early tr.pre)
    (lull' : Lull cfg arith tr.post late s') :
    TinyLlb.served f (early ++ tr :: late) = TinyLlb.served f [tr] := by
  rw [served_append, lull.served, zero_add, ← List.singleton_append, served_append, lull'.served,
    add_zero]

end Lull

/-- The defaults with the KV bias off. -/
def Config.unbiased : Config :=
  { Config.default with
    scheduler :=
      { SchedulerConfig.default with
        kvBias := { SchedulerConfig.default.kvBias with enabled := false } } }

/-- The truncated weights. -/
def truncShare (w : FlowId → ℕ) (f : FlowId) : Int := F64.asI64 (.fin (w f))

/-- The loop is about to start a round, all permits are home, no time has passed,
    and each of two flows has more than `n` requests of its own cost waiting. -/
structure Contest (w : FlowId → ℕ) (c : FlowId → ℚ) (need : Int) (d : Duel) (n : Nat)
    (s : System) : Prop where
  facing : Facing need d s.inner
  pc : s.pc = .readCap
  clock : s.now = 0
  home : s.inner.availablePermits = s.inner.maxPermits
  settled : s.Settled
  weights : ∀ f ∈ [d.front, d.back], (s.flow f).weight = .fin (w f) ∧ (s.flow f).priority = 50
  plenty : ∀ f ∈ [d.front, d.back], n < (s.inner.queue f).length
  costs : ∀ f, ∀ p ∈ s.inner.queue f, p.workUnit = .fin (c f)

section

variable {flows : Finset FlowId} {w : FlowId → ℕ} {c : FlowId → ℚ} {most : ℚ} {need : Int}
  {d : Duel} {n : Nat}

theorem Facing.contenders (facing : Facing need d s.inner) (inv : RepInv s.inner)
    (weights : ∀ f ∈ [d.front, d.back],
      (s.flow f).weight = .fin (w f) ∧ (s.flow f).priority = 50)
    (inFlows : ∀ f ∈ [d.front, d.back], f ∈ flows) : s.Contenders flows w 50 := by
  intro f waits
  rw [← inv.mem_cursor_iff, facing.cursor] at waits
  exact ⟨inFlows f waits, weights f waits⟩

theorem firstStarved_of_clock {env : SelectEnv} {registry : FlowRegistry} {t : DrrState}
    (clock : env.now = 0) : TrySelect.firstStarved env registry t = none := by
  unfold TrySelect.firstStarved
  rw [List.findSome?_eq_none_iff]
  intro f _
  cases queuedAt : (registry.getOrCreate f).enqueuedAt <;>
    simp [isStarved, queuedAt, Instant.durationSince, clock]

theorem Contest.level (contest : Contest w c need d (n + 1) s) (arith : I64Arith) :
    Level (s.selectEnv .unbiased arith 4) s.registry (truncShare w) d s.inner where
  under := by
    have home := contest.home
    change s.inner.maxPermits - s.inner.availablePermits < 4
    omega
  calm := firstStarved_of_clock contest.clock
  unbiased := by simp [System.selectEnv, KvBiasHandle.weight, Config.unbiased]
  weights := by
    intro f member
    have weight := (contest.weights f member).1
    change (s.flow f).weight.asI64 = _
    rw [weight]
    rfl
  priorities := by
    have front := (contest.weights d.front (by simp)).2
    have back := (contest.weights d.back (by simp)).2
    exact front.trans back.symm
  plenty := by
    intro f member
    have plenty := contest.plenty f member
    omega

theorem RoundSpec.length_queue {env : SelectEnv} {registry : FlowRegistry} {t : DrrState}
    {r : Round} (spec : RoundSpec env registry t r) (f : FlowId) :
    (t.queue f).length ≤ (r.state.queue f).length + 1 := by
  cases selected : r.selection with
  | none =>
      rw [DrrState.queue, DrrState.queue, (spec.waiting_eq selected).1]
      omega
  | some selection =>
      obtain ⟨-, rest, served⟩ := spec.served selected
      rw [served.queue]
      split
      · subst f
        simp [served.head]
      · omega

theorem served_round {t : System} {cap : Nat} {r : Round} {action : Action} {s' : System}
    (spec : RoundSpec (t.selectEnv cfg arith cap) t.registry t.inner r)
    (costs : ∀ f, ∀ p ∈ t.inner.queue f, p.workUnit = .fin (c f)) (f : FlowId) :
    served f [⟨t, action,
        r.selection.map fun selection => .selected selection r.forceAdmit.isSome, s'⟩] =
      c f * ((r.selection.map Selection.flowId).toList.count f : ℕ) := by
  cases selected : r.selection with
  | none => simp [served]
  | some sel =>
      obtain ⟨-, rest, head⟩ := spec.served selected
      have cost := costs sel.flowId sel.pending (by simp [head.head])
      rw [← spec.workUnit_eq selected] at cost
      by_cases same : sel.flowId = f
      · subst f
        simp [served, Event.workFor, cost, F64.toRat]
      · simp [served, Event.workFor, same]

theorem Contest.reaches_select (reach : (scheduler .unbiased arith).Reachable s)
    (contest : Contest w c need d (n + 1) s) :
    ∃ early, Lull .unbiased arith s early { s with pc := .select 4 } := by
  have home := contest.home
  let s₁ : System := { s with pc := .readState 4 }
  have step₁ : nextSystem .unbiased arith s .readCap =
      some (s₁, some (.capRead s.pressure (s.effectiveCap .unbiased))) := by
    simp only [nextSystem, contest.pc, if_true]
    rfl
  have reach₁ : (scheduler .unbiased arith).Reachable s₁ := reach.step (a := .readCap) step₁
  have inv₁ := SystemInv.reachable reach₁
  have step₂ : nextSystem .unbiased arith s₁ .readState =
      some ({ s with pc := .select 4 }, none) := by
    refine nextSystem_readState inv₁ 4 rfl ?_ ?_
    · change s.inner.maxPermits - s.inner.availablePermits < 4
      omega
    · change s.inner.rrCursor ≠ []
      simp [contest.facing.cursor]
  have last := Lull.cons inv₁ (.nil _) step₂ rfl rfl (by simp) (by simp)
  exact ⟨_, .cons (SystemInv.reachable reach) last step₁ rfl rfl (by simp) (by simp)⟩

/-- One round of the loop is one round of the duel. -/
theorem Contest.round (reach : (scheduler .unbiased arith).Reachable s)
    (contest : Contest w c need d (n + 1) s) (most : ℚ) (shares : d.Shares (truncShare w))
    (inFlows : ∀ f ∈ [d.front, d.back], f ∈ flows) :
    ∃ ts s', (scheduler .unbiased arith).Exec s ts s' ∧
      Contest w c need (d.round arith (truncShare w) need).2 n s' ∧
      (∀ tr ∈ ts, Competes flows w most 50 tr) ∧
      (∀ f ∈ [d.front, d.back], Backlogged f ts) ∧
      ∀ f, served f ts = c f * ((d.round arith (truncShare w) need).1.toList.count f : ℕ) := by
  have inv := SystemInv.reachable reach
  obtain ⟨early, lull⟩ := contest.reaches_select reach
  have reach₂ := reach.exec lull.exec
  have inv₂ := SystemInv.reachable reach₂
  have selecting : ({ s with pc := .select 4 } : System).pc = .select 4 := rfl
  obtain ⟨r, returned, spec⟩ := inv₂.trySelect_ok arith selecting
  have step := nextSystem_trySelect selecting returned
  have taken := inv₂.step_of_next step
  have reach₃ := reach₂.exec (.single (a := Action.trySelect) step)
  obtain ⟨facing, winner, calm, credited⟩ :=
    contest.facing.round inv.repInv (contest.level arith) shares spec
  obtain ⟨late, s', lull', pc, clock, settled, inner⟩ :=
    settle_round reach₃ spec rfl contest.home contest.settled credited
  let s₃ := System.afterRound { s with pc := .select 4 } r
  let tr : Transition System Action Event :=
    ⟨{ s with pc := .select 4 }, .trySelect,
      r.selection.map fun selection => .selected selection r.forceAdmit.isSome, s₃⟩
  have kept := d.mem_round_flows arith (truncShare w) need
  have weights : ∀ f ∈ [d.front, d.back],
      (s₃.flow f).weight = .fin (w f) ∧ (s₃.flow f).priority = 50 := by
    intro f member
    obtain ⟨weight, priority⟩ := taken.rank_eq (by simp) (by simp) f
    rw [weight, priority]
    exact contest.weights f member
  have long : ∀ f ∈ [d.front, d.back], n < (s₃.inner.queue f).length := by
    intro f member
    have plenty := contest.plenty f member
    have shrunk : (s.inner.queue f).length ≤ (s₃.inner.queue f).length + 1 := spec.length_queue f
    omega
  have costs : ∀ f, ∀ p ∈ s₃.inner.queue f, p.workUnit = .fin (c f) := by
    intro f p member
    cases taken.mem_queue member with
    | inl old => exact contest.costs f p old
    | inr pushed =>
        obtain ⟨i, emitted⟩ := pushed
        cases selected : r.selection <;> simp [selected] at emitted
  have before : s.Contenders flows w 50 :=
    contest.facing.contenders inv.repInv contest.weights inFlows
  have between : s₃.Contenders flows w 50 :=
    facing.contenders (SystemInv.reachable reach₃).repInv
      (fun f member => weights f ((kept f).mp member)) fun f member => inFlows f ((kept f).mp member)
  refine ⟨early ++ tr :: late, s', lull.exec.trans (.cons step lull'.exec),
    ⟨?_, pc, clock.trans contest.clock, ?_, settled, ?_, ?_, ?_⟩, ?_, ?_, ?_⟩
  · rw [inner]
    exact ⟨facing.cursor, facing.ahead, facing.behind, facing.costs⟩
  · rw [inner]
  · intro f member
    rw [lull'.same.weight, lull'.same.priority]
    exact weights f ((kept f).mp member)
  · intro f member
    rw [lull'.same.queue]
    exact long f ((kept f).mp member)
  · intro f p member
    rw [lull'.same.queue] at member
    exact costs f p member
  · refine lull.competes_around tr lull' before ⟨before, ?_, ?_⟩ between
    · intro i f p emitted
      cases selected : r.selection <;> simp [tr, selected] at emitted
    · intro selection emitted
      cases selected : r.selection <;> simp [tr, selected, calm] at emitted
  · intro f member
    apply lull.backlogged_around tr lull'
    · exact List.ne_nil_of_length_pos (Nat.zero_lt_of_lt (contest.plenty f member))
    · exact List.ne_nil_of_length_pos (Nat.zero_lt_of_lt (long f member))
  · intro f
    rw [lull.served_around tr lull', served_round spec contest.costs, winner]
    rfl

theorem Contest.rounds (reach : (scheduler .unbiased arith).Reachable s)
    (contest : Contest w c need d n s) (most : ℚ) (shares : d.Shares (truncShare w))
    (inFlows : ∀ f ∈ [d.front, d.back], f ∈ flows) :
    ∃ ts s', (scheduler .unbiased arith).Exec s ts s' ∧
      (∀ tr ∈ ts, Competes flows w most 50 tr) ∧
      (∀ f ∈ [d.front, d.back], Backlogged f ts) ∧
      ∀ f, served f ts = c f * ((d.winners arith (truncShare w) need n).count f : ℕ) := by
  induction n generalizing d s with
  | zero =>
      refine ⟨[], s, .nil, by simp, fun f _ tr member => by simp at member, fun f => ?_⟩
      simp [served, Duel.winners]
  | succ n ih =>
      obtain ⟨now, t, first, contest', competes, backlogged, work⟩ :=
        contest.round reach most shares inFlows
      have kept := d.mem_round_flows arith (truncShare w) need
      obtain ⟨later, s', second, competes', backlogged', work'⟩ :=
        ih (reach.exec first) contest' shares.round fun f member => inFlows f ((kept f).mp member)
      refine ⟨now ++ later, s', first.trans second, ?_, ?_, ?_⟩
      · intro tr member
        cases List.mem_append.mp member with
        | inl inNow => exact competes tr inNow
        | inr inLater => exact competes' tr inLater
      · intro f member tr inRun
        cases List.mem_append.mp inRun with
        | inl inNow => exact backlogged f member tr inNow
        | inr inLater => exact backlogged' f ((kept f).mpr member) tr inLater
      · intro f
        rw [served_append, work, work', Duel.winners, List.count_append]
        push_cast
        ring

/-- Requests of two flows are being queued while the loop sleeps. -/
structure Loading (w : FlowId → ℕ) (c : FlowId → ℚ) (x y : FlowId) (s : System) : Prop where
  pc : s.pc = .parked
  clock : s.now = 0
  home : s.inner.availablePermits = s.inner.maxPermits
  settled : s.Settled
  credit : ∀ f, s.inner.credit f = 0
  weights : ∀ f ∈ [x, y], (s.flow f).weight = .fin (w f) ∧ (s.flow f).priority = 50
  cursor : ∀ f ∈ s.inner.rrCursor, f ∈ [x, y]
  costs : ∀ f, ∀ p ∈ s.inner.queue f, p.workUnit = .fin (c f)

variable {x y f : FlowId}

theorem Loading.contenders (loading : Loading w c x y s) (inv : RepInv s.inner)
    (inFlows : ∀ f ∈ [x, y], f ∈ flows) : s.Contenders flows w 50 := by
  intro f waits
  have member := loading.cursor f (inv.mem_cursor_iff.mpr waits)
  exact ⟨inFlows f member, loading.weights f member⟩

theorem Loading.push (loading : Loading w c x y s) (member : f ∈ [x, y]) {i : Nat}
    (inner : s'.inner = s.inner.enqueue f i s.now (.fin (c f))) (pc : s'.pc = s.pc)
    (clock : s'.now = s.now) (settled : s'.Settled)
    (rank : ∀ g, (s'.flow g).weight = (s.flow g).weight ∧
      (s'.flow g).priority = (s.flow g).priority) : Loading w c x y s' where
  pc := pc.trans loading.pc
  clock := clock.trans loading.clock
  home := by
    rw [inner]
    exact loading.home
  settled := settled
  credit := by
    rw [inner]
    exact loading.credit
  weights := by
    intro g listed
    rw [(rank g).1, (rank g).2]
    exact loading.weights g listed
  cursor := by
    intro g listed
    rw [inner] at listed
    cases Cursor.mem_join.mp listed with
    | inl old => exact loading.cursor g old
    | inr new =>
        subst g
        exact member
  costs := by
    intro g p queued
    rw [inner, DrrState.queue_enqueue] at queued
    split at queued
    · subst g
      cases List.mem_append.mp queued with
      | inl old => exact loading.costs f p old
      | inr new =>
          obtain rfl := List.mem_singleton.mp new
          rfl
    · exact loading.costs g p queued

theorem Loading.admit (reach : (scheduler .unbiased arith).Reachable s)
    (loading : Loading w c x y s) (inFlows : ∀ f ∈ [x, y], f ∈ flows)
    (bounds : ∀ f ∈ [x, y], 0 ≤ c f ∧ c f ≤ most) (member : f ∈ [x, y]) :
    ∃ ts s', (scheduler .unbiased arith).Exec s ts s' ∧ Loading w c x y s' ∧
      (∀ tr ∈ ts, Competes flows w most 50 tr) ∧ s'.notified = true ∧
      s'.inner.rrCursor = Cursor.join f s.inner.rrCursor ∧
      ∀ g, (s'.inner.queue g).length = (s.inner.queue g).length + if g = f then 1 else 0 := by
  obtain ⟨early, i, t₂, t₃, late, s', lull, step, lull', pushed, inner, pc, clock, notified,
    settled⟩ := queue_request reach rfl loading.settled f (.fin (c f))
  have reach₂ := reach.exec lull.exec
  have reach₃ := reach₂.exec (.single (a := Action.enqueue i) step)
  let tr : Transition System Action Event :=
    ⟨t₂, .enqueue i, some (.enqueued i f ⟨s.inner.nextPendingId, i, s.now, .fin (c f)⟩), t₃⟩
  rw [pushed] at inner
  have rank : ∀ g, (s'.flow g).weight = (s.flow g).weight ∧
      (s'.flow g).priority = (s.flow g).priority := by
    intro g
    have taken := (SystemInv.reachable reach₂).step_of_next step
    obtain ⟨weight, priority⟩ := taken.rank_eq (by simp) (by simp) g
    rw [lull'.same.weight, lull'.same.priority, weight, priority]
    exact ⟨lull.same.weight g, lull.same.priority g⟩
  have loading' := loading.push member inner pc clock settled rank
  have before := loading.contenders (SystemInv.reachable reach).repInv inFlows
  have after := loading'.contenders (SystemInv.reachable (reach₃.exec lull'.exec)).repInv inFlows
  refine ⟨early ++ tr :: late, s', lull.exec.trans (.cons step lull'.exec), loading', ?_, notified,
    ?_, ?_⟩
  · refine lull.competes_around tr lull' before ⟨?_, ?_, by simp [tr]⟩
      (lull'.same.contenders.mp after)
    · exact lull.same.contenders.mpr before
    · intro j g p emitted
      simp only [tr, Option.some.injEq, Event.enqueued.injEq] at emitted
      obtain ⟨-, -, rfl⟩ := emitted
      exact ⟨c f, rfl, bounds f member⟩
  · rw [inner]
    rfl
  · intro g
    rw [inner, DrrState.queue_enqueue]
    split
    · subst g
      simp
    · rfl

theorem Loading.load (reach : (scheduler .unbiased arith).Reachable s)
    (loading : Loading w c x y s) (inFlows : ∀ f ∈ [x, y], f ∈ flows)
    (bounds : ∀ f ∈ [x, y], 0 ≤ c f ∧ c f ≤ most) (member : f ∈ [x, y]) (k : Nat) :
    ∃ ts s', (scheduler .unbiased arith).Exec s ts s' ∧ Loading w c x y s' ∧
      (∀ tr ∈ ts, Competes flows w most 50 tr) ∧ s'.notified = true ∧
      s'.inner.rrCursor = Cursor.join f s.inner.rrCursor ∧
      ∀ g, (s'.inner.queue g).length = (s.inner.queue g).length + if g = f then k + 1 else 0 := by
  induction k with
  | zero => exact loading.admit reach inFlows bounds member
  | succ k ih =>
      obtain ⟨first, t, run, loading', competes, -, cursor, lengths⟩ := ih
      obtain ⟨last, s', run', loading'', competes', notified, cursor', lengths'⟩ :=
        loading'.admit (reach.exec run) inFlows bounds member
      refine ⟨first ++ last, s', run.trans run', loading'', ?_, notified, ?_, ?_⟩
      · intro tr inRun
        cases List.mem_append.mp inRun with
        | inl inFirst => exact competes tr inFirst
        | inr inLast => exact competes' tr inLast
      · rw [cursor', cursor, Cursor.join_join]
      · intro g
        rw [lengths', lengths]
        split <;> omega

theorem exists_loading (arith : I64Arith) (flows : Finset FlowId) (c : FlowId → ℚ) (most : ℚ)
    (apart : x ≠ y) (weights : ∀ f ∈ [x, y], 1 ≤ w f) :
    ∃ before s, (scheduler .unbiased arith).Exec (System.start .unbiased) before s ∧
      (∀ tr ∈ before, Competes flows w most 50 tr) ∧ Loading w c x y s ∧
      s.inner = DrrState.new 4 := by
  let reg (f : FlowId) : FlowRegistration := ⟨f, .fin (w f), 50⟩
  let t₁ : System :=
    { System.start .unbiased with registry := (System.start .unbiased).registry.register (reg x) }
  let t₂ : System := { t₁ with registry := t₁.registry.register (reg y) }
  have accepts : ∀ (t : System), ∀ f ∈ [x, y], nextSystem .unbiased arith t (.register (reg f)) =
      some ({ t with registry := t.registry.register (reg f) }, none) := by
    intro t f member
    have positive : ¬ ((w f : ℚ) ≤ 0) := by
      have weight := weights f member
      simp
      omega
    simp [nextSystem, reg, F64.isLe, positive]
  have step₁ := accepts (System.start .unbiased) x (by simp)
  have step₂ := accepts t₁ y (by simp)
  have covered : ∀ (t : System) (a : Action) (u : System), t.inner = DrrState.new 4 →
      Competes flows w most 50 ⟨t, a, none, u⟩ := by
    intro t a u empty
    refine ⟨?_, by simp, by simp⟩
    intro f waits
    simp only [empty] at waits
    exact absurd rfl waits
  refine ⟨_, t₂, .cons (a := Action.register (reg x)) step₁
    (.single (a := Action.register (reg y)) step₂), ?_, ?_, rfl⟩
  · intro tr member
    simp only [List.mem_cons, List.not_mem_nil, or_false] at member
    obtain rfl | rfl := member
    · exact covered _ _ _ rfl
    · exact covered _ _ _ rfl
  · refine ⟨rfl, rfl, rfl, ?_, fun _ => rfl, ?_, ?_, ?_⟩
    · intro a member
      simp [t₂, t₁, System.start] at member
    · intro f member
      simp only [List.mem_cons, List.not_mem_nil, or_false] at member
      obtain rfl | rfl := member
      · simp [t₂, t₁, reg, System.flow, apart]
      · simp [t₂, t₁, reg, System.flow]
    · intro f member
      simp [t₂, t₁, System.start, DrrState.new] at member
    · intro f p member
      simp [t₂, t₁, System.start, DrrState.new, DrrState.queue] at member

/-- The loop wakes up with more than `n` requests of each flow in the queues. -/
theorem exists_contest (arith : I64Arith) (apart : x ≠ y) (inFlows : ∀ f ∈ [x, y], f ∈ flows)
    (weights : ∀ f ∈ [x, y], 1 ≤ w f) (bounds : ∀ f ∈ [x, y], 0 ≤ c f ∧ c f ≤ most)
    (needs : ∀ f ∈ [x, y], F64.asI64 (.fin (c f)) = need) (n : Nat) :
    ∃ before s, (scheduler .unbiased arith).Exec (System.start .unbiased) before s ∧
      (∀ tr ∈ before, Competes flows w most 50 tr) ∧ Contest w c need ⟨x, y, 0, 0⟩ n s := by
  obtain ⟨ts₁, s₁, run₁, competes₁, loading₁, fresh⟩ :=
    exists_loading arith flows c most apart weights
  have reach₁ : (scheduler .unbiased arith).Reachable s₁ := ⟨ts₁, run₁⟩
  obtain ⟨ts₂, s₂, run₂, loading₂, competes₂, -, cursor₂, lengths₂⟩ :=
    loading₁.load reach₁ inFlows bounds (f := x) (by simp) n
  have reach₂ := reach₁.exec run₂
  obtain ⟨ts₃, s₃, run₃, loading₃, competes₃, notified, cursor₃, lengths₃⟩ :=
    loading₂.load reach₂ inFlows bounds (f := y) (by simp) n
  have reach₃ := reach₂.exec run₃
  have inv₃ := SystemInv.reachable reach₃
  have cursor : s₃.inner.rrCursor = [x, y] := by
    rw [cursor₃, cursor₂, fresh]
    simp [DrrState.new, Cursor.join, apart.symm]
  let s₄ : System := { s₃ with notified := false, pc := .readCap }
  have step : nextSystem .unbiased arith s₃ .wakeNotified = some (s₄, none) := by
    simp [nextSystem, loading₃.pc, notified, s₄]
  refine ⟨_, s₄, ((run₁.trans run₂).trans run₃).snoc (a := Action.wakeNotified) step, ?_, ?_⟩
  · intro tr member
    simp only [List.mem_append, List.mem_singleton] at member
    obtain ((first | second) | third) | rfl := member
    · exact competes₁ tr first
    · exact competes₂ tr second
    · exact competes₃ tr third
    · exact ⟨loading₃.contenders inv₃.repInv inFlows, by simp, by simp⟩
  · refine ⟨⟨cursor, loading₃.credit x, loading₃.credit y, ?_⟩, rfl, loading₃.clock, loading₃.home,
      loading₃.settled, loading₃.weights, ?_, loading₃.costs⟩
    · intro f p queued
      have waits : s₃.inner.queue f ≠ [] := List.ne_nil_of_mem queued
      have member := loading₃.cursor f (inv₃.repInv.mem_cursor_iff.mpr waits)
      rw [Pending.cost, loading₃.costs f p queued]
      exact needs f member
    · intro f member
      change n < (s₃.inner.queue f).length
      rw [lengths₃, lengths₂]
      simp only [List.mem_cons, List.not_mem_nil, or_false] at member
      obtain rfl | rfl := member
      · rw [if_pos rfl]
        omega
      · rw [if_pos rfl]
        omega

end

end TinyLlb
