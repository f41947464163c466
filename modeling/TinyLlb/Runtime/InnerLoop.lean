import Mathlib.Algebra.Order.Field.Rat
import Mathlib.Data.Rat.Floor
import TinyLlb.Runtime.Links

/-! # The inner loop of the admission task

Once woken, the admission task selects until the cap is reached, nobody waits or
a round credits nobody. The loop has no bound of its own. A selection takes a
request out of the queues whatever becomes of its ticket, and a round without
one brings every credited flow closer to its head's cost, so requests first and
distances second decrease. Here the loop is one function of the locked state:
nothing else changes the queues, the weights, the clock or the pressure while it
runs, but receivers may be gone and tickets may be dropped.
-/

namespace TinyLlb

open TrySelect

/-- What the loop reads, all of it fixed while it runs. -/
structure LoopEnv where
  cfg : Config
  now : Instant
  pressure : ℚ
  delivered : FlowId → Int
  arith : I64Arith

namespace LoopEnv

/-- `kv_pressure.effective(max_active_flows)`. -/
def cap (env : LoopEnv) : Nat :=
  env.cfg.scheduler.kvPressure.effectiveMax env.cfg.scheduler.maxActiveFlows.toNat env.pressure

def selectEnv (env : LoopEnv) : SelectEnv :=
  { now := env.now
    starvationTimeout := env.cfg.scheduler.starvationTimeout
    kvBias := ⟨env.cfg.scheduler.kvBias, env.pressure, env.delivered⟩
    cap := env.cap
    arith := env.arith }

end LoopEnv

/-- What other tasks decide: whether the receiver of the n-th send is still
    there, and how many permits come back before the n-th round. -/
structure Outside where
  delivers : Nat → Bool
  released : Nat → Nat

structure LoopState where
  inner : DrrState
  registry : FlowRegistry
  sends : Nat
  rounds : Nat

/-- Permits that tickets give back when they are dropped elsewhere. -/
def DrrState.regain (s : DrrState) (n : Nat) : DrrState :=
  { s with availablePermits := min s.maxPermits (s.availablePermits + n) }

inductive Iteration where
  /-- At the cap, or nobody waits. -/
  | idle (s : LoopState)
  /-- No selection, and nobody was credited. -/
  | stuck (s : LoopState)
  | went (selection : Option Selection) (s : LoopState)

/-- One pass through the body of the inner loop. -/
def loopBody (env : LoopEnv) (outside : Outside) (s : LoopState) : Except Panic Iteration :=
  let inner := s.inner.regain (outside.released s.rounds)
  match checkedSub inner.maxPermits inner.availablePermits with
  | .error panic => .error panic
  | .ok active =>
      if active ≥ env.cap ∨ inner.rrCursor.isEmpty then .ok (.idle { s with inner })
      else
        match trySelect env.selectEnv s.registry inner with
        | .error panic => .error panic
        | .ok r =>
            match r.selection with
            | none =>
                let t : LoopState := ⟨r.state, r.registry, s.sends, s.rounds + 1⟩
                if r.creditAccumulated then .ok (.went none t) else .ok (.stuck t)
            | some selection =>
                let state := if outside.delivers s.sends then r.state else r.state.release
                .ok (.went (some selection) ⟨state, r.registry, s.sends + 1, s.rounds + 1⟩)

/-- The loop, run for at most `fuel` passes: what each call of `try_select`
    selected, and the state in which the loop was left, if it was. -/
def innerLoop (env : LoopEnv) (outside : Outside) :
    Nat → LoopState → Except Panic (List (Option Selection) × Option LoopState)
  | 0, _ => .ok ([], none)
  | fuel + 1, s =>
      match loopBody env outside s with
      | .error panic => .error panic
      | .ok (.idle t) => .ok ([], some t)
      | .ok (.stuck t) => .ok ([none], some t)
      | .ok (.went selection t) =>
          (innerLoop env outside fuel t).map fun r => (selection :: r.1, r.2)

/-- The representation invariant with the permit counters. -/
structure LoopInv (env : LoopEnv) (s : DrrState) : Prop where
  repInv : RepInv s
  permits : s.availablePermits ≤ s.maxPermits
  budget : s.maxPermits = env.cfg.scheduler.maxActiveFlows.toNat

/-- Requests in the queues. -/
def DrrState.pendingCount (s : DrrState) : Int :=
  Slots.total (fun f => ((s.queue f).length : Int)) s.rrCursor

section

variable {env : LoopEnv} {outside : Outside} {s : LoopState} {inner : DrrState}

theorem LoopInv.regain (inv : LoopInv env inner) (n : Nat) : LoopInv env (inner.regain n) where
  repInv := ⟨inv.repInv.nodup, inv.repInv.keys, inv.repInv.nonempty, inv.repInv.below,
    inv.repInv.sorted, inv.repInv.apart⟩
  permits := min_le_left _ _
  budget := inv.budget

theorem LoopInv.cap_le (inv : LoopInv env inner) : env.cap ≤ inner.maxPermits := by
  rw [inv.budget]
  exact KvPressure.effectiveMax_le _ _ _

theorem LoopInv.round (inv : LoopInv env inner) {registry : FlowRegistry} {r : Round}
    (spec : RoundSpec env.selectEnv registry inner r) : LoopInv env r.state where
  repInv := spec.repInv inv.repInv
  permits := by
    have taken := spec.permits
    have held := inv.permits
    rw [spec.budget]
    omega
  budget := spec.budget.trans inv.budget

theorem LoopInv.release (inv : LoopInv env inner) {registry : FlowRegistry} {r : Round}
    (spec : RoundSpec env.selectEnv registry inner r) {selection : Selection}
    (selected : r.selection = some selection) : LoopInv env r.state.release where
  repInv := (spec.repInv inv.repInv).release
  permits := by
    have taken := spec.permits
    have held := inv.permits
    change r.state.availablePermits + 1 ≤ r.state.maxPermits
    rw [spec.budget]
    simp only [selected, Option.isSome_some, if_true] at taken
    omega
  budget := spec.budget.trans inv.budget

/-- What one pass can do under the invariant. It never panics. -/
inductive PassSpec (env : LoopEnv) (outside : Outside) (s : LoopState) : Iteration → Prop where
  | idle (done : env.cap ≤ (s.inner.regain (outside.released s.rounds)).outstanding ∨
        s.inner.rrCursor = []) :
      PassSpec env outside s
        (.idle { s with inner := s.inner.regain (outside.released s.rounds) })
  | round {r iteration} (under : (s.inner.regain (outside.released s.rounds)).outstanding < env.cap)
      (some_ : s.inner.rrCursor ≠ [])
      (spec : RoundSpec env.selectEnv s.registry (s.inner.regain (outside.released s.rounds)) r)
      (result : iteration = match r.selection with
        | none =>
            if r.creditAccumulated then .went none ⟨r.state, r.registry, s.sends, s.rounds + 1⟩
            else .stuck ⟨r.state, r.registry, s.sends, s.rounds + 1⟩
        | some selection => .went (some selection)
            ⟨if outside.delivers s.sends then r.state else r.state.release, r.registry,
              s.sends + 1, s.rounds + 1⟩) :
      PassSpec env outside s iteration

theorem loopBody_spec (outside : Outside) (inv : LoopInv env s.inner) :
    ∃ iteration, loopBody env outside s = .ok iteration ∧ PassSpec env outside s iteration := by
  have again := inv.regain (outside.released s.rounds)
  unfold loopBody
  simp only [checkedSub, again.permits, if_true]
  by_cases busy : (s.inner.regain (outside.released s.rounds)).maxPermits -
      (s.inner.regain (outside.released s.rounds)).availablePermits ≥ env.cap ∨
      (s.inner.regain (outside.released s.rounds)).rrCursor.isEmpty = true
  · simp only [busy, if_true, Except.ok.injEq, exists_eq_left']
    exact .idle (busy.imp id List.isEmpty_iff.mp)
  · obtain ⟨r, returned, spec⟩ :=
      trySelect_spec env.selectEnv s.registry again.repInv again.cap_le again.permits
    simp only [busy, if_false, returned]
    obtain ⟨under, some_⟩ := not_or.mp busy
    refine ⟨_, ?_, .round (not_le.mp under) (by simpa [DrrState.regain] using some_) spec rfl⟩
    cases selected : r.selection with
    | some selection => rfl
    | none => cases credited : r.creditAccumulated <;> rfl

theorem pendingCount_nonneg (inner : DrrState) : 0 ≤ inner.pendingCount :=
  Slots.total_nonneg fun _ _ => Int.natCast_nonneg _

theorem total_retire {c : List FlowId} (nodup : c.Nodup) {f : FlowId} (member : f ∈ c)
    (g : FlowId → Int) : Slots.total g c = g f + Slots.total g (Cursor.retire f c) := by
  induction c with
  | nil => simp at member
  | cons h rest ih =>
      obtain ⟨fresh, nodup⟩ := List.nodup_cons.mp nodup
      by_cases same : h = f
      · subst h
        have apart : Cursor.retire f rest = rest := by
          apply List.filter_eq_self.mpr
          intro k inRest
          simp only [decide_eq_true_eq]
          rintro rfl
          exact fresh inRest
        have whole : Cursor.retire f (f :: rest) = Cursor.retire f rest := by
          simp [Cursor.retire]
        rw [whole, apart, Slots.total_cons]
      · have later : f ∈ rest := by
          rcases List.mem_cons.mp member with rfl | later
          · exact absurd rfl same
          · exact later
        have whole : Cursor.retire f (h :: rest) = h :: Cursor.retire f rest := by
          simp [Cursor.retire, same]
        rw [whole, Slots.total_cons, Slots.total_cons, ih nodup later]
        omega

theorem pendingCount_served (inv : RepInv inner) {t : DrrState} {f : FlowId} {p : Pending}
    {rest : List Pending} (served : Served inner t f p rest) :
    t.pendingCount + 1 = inner.pendingCount := by
  have member : f ∈ inner.rrCursor := by
    rw [inv.mem_cursor_iff, served.head]
    exact List.cons_ne_nil _ _
  have others : Slots.total (fun g => ((t.queue g).length : Int)) (Cursor.retire f inner.rrCursor) =
      Slots.total (fun g => ((inner.queue g).length : Int)) (Cursor.retire f inner.rrCursor) := by
    apply Slots.total_congr
    intro g inOthers
    rw [served.queue, if_neg (Cursor.mem_retire.mp inOthers).2]
  have own : t.queue f = rest := by rw [served.queue, if_pos rfl]
  unfold DrrState.pendingCount
  rw [total_retire inv.nodup member, served.head, served.cursor]
  split
  · rename_i last
    simp only [last, List.length_singleton, Nat.cast_one]
    omega
  · rw [Slots.total_append, others]
    simp only [Slots.total_cons, own, Slots.total_nil, List.length_cons, Nat.cast_add, Nat.cast_one]
    omega

theorem pendingCount_rotate (inner : DrrState) (deficit : Assoc FlowId Int) :
    DrrState.pendingCount { inner with deficit, rrCursor := Cursor.rotate inner.rrCursor } =
      inner.pendingCount := by
  change Slots.total (fun f => ((inner.queue f).length : Int)) (Cursor.rotate inner.rrCursor) =
    Slots.total (fun f => ((inner.queue f).length : Int)) inner.rrCursor
  cases inner.rrCursor with
  | nil => rfl
  | cons f rest =>
      rw [Cursor.rotate, Slots.total_append, Slots.total_cons, Slots.total_cons, Slots.total_nil]
      omega

/-- `work_unit as i64` of the oldest request of a flow. -/
def DrrState.headCost (s : DrrState) (f : FlowId) : Int :=
  ((s.queue f).head?.map Pending.cost).getD 0

/-- A flow gains deficit in every round. -/
def Gains (registry : FlowRegistry) (s : DrrState) (f : FlowId) : Prop :=
  f ∈ s.rrCursor ∧ 0 < (registry.getOrCreate f).truncWeight

theorem eligible_iff {select : SelectEnv} {registry : FlowRegistry} (exact : select.arith = .exact)
    (inv : RepInv inner) {f : FlowId} :
    Eligible select registry inner f ↔ Gains registry inner f ∧
      inner.headCost f ≤ inner.credit f + (registry.getOrCreate f).truncWeight := by
  unfold Eligible Gains
  rw [affordable_iff]
  constructor
  · rintro ⟨member, head, rest, found, positive, enough⟩
    refine ⟨⟨member, positive⟩, ?_⟩
    simpa [DrrState.headCost, DrrState.queue_of_lookup found, DrrState.credit, raise, exact,
      I64Arith.store] using enough
  · rintro ⟨⟨member, positive⟩, enough⟩
    obtain ⟨head, rest, found, queue⟩ := inv.head_of_mem member
    refine ⟨member, head, rest, found, positive, ?_⟩
    simpa [DrrState.headCost, queue, DrrState.credit, raise, exact, I64Arith.store] using enough

/-- A round without a selection, as it is seen by a flow that gains. -/
structure Barren (registry : FlowRegistry) (s t : DrrState) : Prop where
  waiting : t.waiting = s.waiting
  cursor : t.rrCursor = Cursor.rotate s.rrCursor
  outstanding : t.outstanding = s.outstanding
  credit : ∀ f, Gains registry s f →
    t.credit f = s.credit f + (registry.getOrCreate f).truncWeight
  short : ∀ f, Gains registry s f →
    s.credit f + (registry.getOrCreate f).truncWeight < s.headCost f

theorem Barren.gains {registry : FlowRegistry} {t : DrrState} (barren : Barren registry inner t)
    {f : FlowId} : Gains registry t f ↔ Gains registry inner f := by
  simp only [Gains, barren.cursor, Cursor.mem_rotate]

theorem Barren.headCost {registry : FlowRegistry} {t : DrrState} (barren : Barren registry inner t)
    (f : FlowId) : t.headCost f = inner.headCost f := by
  simp only [DrrState.headCost, DrrState.queue, barren.waiting]

theorem barren_of_spec {select : SelectEnv} {registry : FlowRegistry} {r : Round}
    (exact : select.arith = .exact) (inv : RepInv inner) (under : inner.outstanding < select.cap)
    (some_ : inner.rrCursor ≠ []) (spec : RoundSpec select registry inner r)
    (none_ : r.selection = none) :
    Barren registry inner r.state ∧ r.registry = registry ∧
      r.state.pendingCount = inner.pendingCount ∧
      (r.creditAccumulated = true ↔ ∃ f, Gains registry inner f) := by
  cases spec with
  | atCap full => exact absurd under (not_lt.mpr full)
  | nobody _ empty => exact absurd empty some_
  | forced | regular => simp at none_
  | @barren credited deficit' _ _ calm ineligible flag deficit =>
      refine ⟨⟨rfl, rfl, rfl, ?_, ?_⟩, rfl, pendingCount_rotate inner deficit', flag⟩
      · intro f gains
        have found : deficit'.lookup f = some (raise select registry inner.deficit f) := by
          rw [deficit, raised]
          exact if_pos gains
        simp only [DrrState.credit, found, raise, exact, I64Arith.store, Option.getD_some]
      · intro f gains
        have missed := ineligible f
        rw [eligible_iff exact inv] at missed
        exact not_le.mp fun enough => missed ⟨gains, enough⟩

/-- The loop runs from `s` to its end and selects `os` on the way. -/
def Ends (env : LoopEnv) (outside : Outside) (s : LoopState) (os : List (Option Selection)) : Prop :=
  ∃ fuel last, innerLoop env outside fuel s = .ok (os, some last)

theorem Ends.idle {t : LoopState} (body : loopBody env outside s = .ok (.idle t)) :
    Ends env outside s [] := ⟨1, t, by simp only [innerLoop, body]⟩

theorem Ends.stuck {t : LoopState} (body : loopBody env outside s = .ok (.stuck t)) :
    Ends env outside s [none] := ⟨1, t, by simp only [innerLoop, body]⟩

theorem Ends.went {t : LoopState} {selection : Option Selection} {os : List (Option Selection)}
    (body : loopBody env outside s = .ok (.went selection t)) (rest : Ends env outside t os) :
    Ends env outside s (selection :: os) := by
  obtain ⟨fuel, last, ran⟩ := rest
  exact ⟨fuel + 1, last, by simp only [innerLoop, body, ran, Except.map]⟩

/-- One pass either ends the loop, or takes a request out of the queues, or is a
    round without a selection. -/
theorem pass_cases (outside : Outside) (exact : env.arith = .exact) (inv : LoopInv env s.inner) :
    (∃ os, os.all Option.isNone = true ∧ Ends env outside s os) ∨
    (∃ selection t, loopBody env outside s = .ok (.went (some selection) t) ∧
      LoopInv env t.inner ∧ t.inner.pendingCount + 1 = s.inner.pendingCount) ∨
    (∃ t, loopBody env outside s = .ok (.went none t) ∧ LoopInv env t.inner ∧
      t.registry = s.registry ∧ t.inner.pendingCount = s.inner.pendingCount ∧
      Barren s.registry (s.inner.regain (outside.released s.rounds)) t.inner ∧
      ∃ f, Gains s.registry s.inner f) := by
  obtain ⟨iteration, body, pass⟩ := loopBody_spec outside inv
  have again := inv.regain (outside.released s.rounds)
  cases pass with
  | idle => exact .inl ⟨[], rfl, .idle body⟩
  | @round r iteration under some_ spec result =>
      cases selected : r.selection with
      | some selection =>
          simp only [selected] at result
          obtain ⟨-, rest, served⟩ := spec.served selected
          have fewer := pendingCount_served again.repInv served
          refine .inr (.inl ⟨selection, _, body.trans (by rw [result]), ?_, ?_⟩)
          · dsimp only
            split
            · exact again.round spec
            · exact again.release spec selected
          · dsimp only
            split <;> exact fewer
      | none =>
          obtain ⟨barren, registry, count, flag⟩ :=
            barren_of_spec exact again.repInv under some_ spec selected
          simp only [selected] at result
          cases credited : r.creditAccumulated with
          | false =>
              simp only [credited, Bool.false_eq_true, if_false] at result
              exact .inl ⟨[none], rfl, .stuck (body.trans (by rw [result]))⟩
          | true =>
              simp only [credited, if_true] at result
              exact .inr (.inr ⟨_, body.trans (by rw [result]), again.round spec, registry, count,
                barren, flag.mp credited⟩)

/-- From any state the loop comes to an end. -/
theorem exists_ends (outside : Outside) (exact : env.arith = .exact) (s : LoopState)
    (inv : LoopInv env s.inner) : ∃ os, Ends env outside s os := by
  -- Outer induction on the requests, inner one on the distance of a flow that gains.
  induction requests : s.inner.pendingCount.toNat using Nat.strongRecOn generalizing s with
  | _ n fewer =>
      have selects : ∀ (s : LoopState), LoopInv env s.inner → s.inner.pendingCount.toNat = n →
          ∀ selection t, loopBody env outside s = .ok (.went (some selection) t) →
          LoopInv env t.inner → t.inner.pendingCount + 1 = s.inner.pendingCount →
          ∃ os, Ends env outside s os := by
        intro s inv requests selection t body held count
        have nonneg := pendingCount_nonneg t.inner
        obtain ⟨os, ends⟩ := fewer t.inner.pendingCount.toNat (by omega) t held rfl
        exact ⟨_, ends.went body⟩
      rcases pass_cases outside exact inv with ⟨os, -, ends⟩ | ⟨selection, t, body, held, count⟩ |
        ⟨t, body, held, registry, count, barren, f, gains⟩
      · exact ⟨os, ends⟩
      · exact selects s inv requests selection t body held count
      · clear body held registry count barren t
        induction distance : (s.inner.headCost f - s.inner.credit f).toNat using Nat.strongRecOn
          generalizing s with
        | _ d closer =>
            rcases pass_cases outside exact inv with ⟨os, -, ends⟩ |
              ⟨selection, t, body, held, count⟩ | ⟨t, body, held, registry, count, barren, -⟩
            · exact ⟨os, ends⟩
            · exact selects s inv requests selection t body held count
            · have gains' : Gains s.registry (s.inner.regain (outside.released s.rounds)) f := gains
              have credit := barren.credit f gains'
              have short := barren.short f gains'
              have cost := barren.headCost f
              have positive := gains.2
              change t.inner.credit f = s.inner.credit f + _ at credit
              change s.inner.credit f + _ < s.inner.headCost f at short
              change t.inner.headCost f = s.inner.headCost f at cost
              have still : Gains t.registry t.inner f := by
                rw [registry]
                exact barren.gains.mpr gains'
              obtain ⟨os, ends⟩ := closer (t.inner.headCost f - t.inner.credit f).toNat (by omega) t
                held (by omega) still rfl
              exact ⟨_, ends.went body⟩

/-- Rounds until the deficit of a flow covers its head, counting from 1. -/
def roundsNeeded (registry : FlowRegistry) (s : DrrState) (f : FlowId) : Int :=
  max 1 ⌈((s.headCost f - s.credit f : Int) : ℚ) / ((registry.getOrCreate f).truncWeight : ℚ)⌉

theorem ceil_div_le_one {x w : Int} (positive : 0 < w) :
    ⌈(x : ℚ) / (w : ℚ)⌉ ≤ 1 ↔ x ≤ w := by
  have pos : (0 : ℚ) < w := by exact_mod_cast positive
  rw [Int.ceil_le, Int.cast_one, div_le_one pos]
  exact Int.cast_le

theorem ceil_div_sub {x w : Int} (positive : 0 < w) :
    ⌈((x - w : Int) : ℚ) / (w : ℚ)⌉ = ⌈(x : ℚ) / (w : ℚ)⌉ - 1 := by
  have nonzero : (w : ℚ) ≠ 0 := by exact_mod_cast positive.ne'
  rw [Int.cast_sub, sub_div, div_self nonzero, Int.ceil_sub_one]

theorem roundsNeeded_eq_one_iff {registry : FlowRegistry} {f : FlowId}
    (gains : Gains registry inner f) :
    roundsNeeded registry inner f = 1 ↔
      inner.headCost f ≤ inner.credit f + (registry.getOrCreate f).truncWeight := by
  unfold roundsNeeded
  rw [max_eq_left_iff, ceil_div_le_one gains.2]
  omega

theorem Barren.roundsNeeded {registry : FlowRegistry} {t : DrrState}
    (barren : Barren registry inner t) {f : FlowId} (gains : Gains registry inner f) :
    TinyLlb.roundsNeeded registry t f = TinyLlb.roundsNeeded registry inner f - 1 := by
  have short := barren.short f gains
  have late : ¬ ⌈((inner.headCost f - inner.credit f : Int) : ℚ) /
      ((registry.getOrCreate f).truncWeight : ℚ)⌉ ≤ 1 := by
    rw [ceil_div_le_one gains.2]
    omega
  have moved : inner.headCost f - (inner.credit f + (registry.getOrCreate f).truncWeight) =
      inner.headCost f - inner.credit f - (registry.getOrCreate f).truncWeight := by omega
  unfold TinyLlb.roundsNeeded
  rw [barren.headCost, barren.credit f gains, moved, ceil_div_sub gains.2]
  omega

/-- No flow that waits is starved. -/
def Calm (env : LoopEnv) (registry : FlowRegistry) (s : DrrState) : Prop :=
  ∀ f, s.queue f ≠ [] →
    isStarved (registry.getOrCreate f) env.now env.cfg.scheduler.starvationTimeout = none

theorem Calm.firstStarved {registry : FlowRegistry} (calm : Calm env registry inner)
    (inv : RepInv inner) : firstStarved env.selectEnv registry inner = none := by
  cases found : TrySelect.firstStarved env.selectEnv registry inner with
  | none => rfl
  | some starved =>
      obtain ⟨f, wait⟩ := starved
      obtain ⟨member, waited⟩ := mem_of_firstStarved found
      have none_ := calm f (inv.mem_cursor_iff.mp member)
      have same : isStarved (registry.getOrCreate f) env.now
        env.cfg.scheduler.starvationTimeout = some wait := waited
      rw [none_] at same
      cases same

/-- The loop selects for the first time in round `n`. -/
def FirstSelection (n : Nat) (os : List (Option Selection)) : Prop :=
  ∃ selection rest, os = List.replicate (n - 1) none ++ some selection :: rest

/-- `n` is the least number of rounds that a gaining flow needs. -/
def FewestRounds (registry : FlowRegistry) (s : DrrState) (n : Nat) : Prop :=
  IsLeast { k | ∃ f, Gains registry s f ∧ k = roundsNeeded registry s f } (n : Int)

theorem exists_one_round {select : SelectEnv} {registry : FlowRegistry} {r : Round}
    (exact : select.arith = .exact) (inv : RepInv inner)
    (quiet : TrySelect.firstStarved select registry inner = none)
    (spec : RoundSpec select registry inner r) {selection : Selection}
    (selected : r.selection = some selection) :
    ∃ f, Gains registry inner f ∧ roundsNeeded registry inner f = 1 := by
  cases spec with
  | atCap | nobody | barren => simp at selected
  | forced _ starved =>
      rw [quiet] at starved
      cases starved
  | @regular f p rest s' _ _ eligible =>
      obtain ⟨gains, enough⟩ := (eligible_iff exact inv).mp eligible
      exact ⟨f, gains, (roundsNeeded_eq_one_iff gains).mpr enough⟩

namespace Barren

variable {registry : FlowRegistry} {t : DrrState}

theorem calm (barren : Barren registry inner t) (calm : Calm env registry inner) :
    Calm env registry t := by
  intro f waits
  have same : t.queue f = inner.queue f := by simp only [DrrState.queue, barren.waiting]
  rw [same] at waits
  exact calm f waits

theorem one_lt_roundsNeeded (barren : Barren registry inner t) {f : FlowId}
    (gains : Gains registry inner f) : 1 < TinyLlb.roundsNeeded registry inner f := by
  have short := barren.short f gains
  have more : TinyLlb.roundsNeeded registry inner f ≠ 1 := by
    rw [ne_eq, roundsNeeded_eq_one_iff gains]
    exact not_le.mpr short
  have least : 1 ≤ TinyLlb.roundsNeeded registry inner f := le_max_left _ _
  omega

theorem fewestRounds (barren : Barren registry inner t) {n : Nat}
    (fewest : FewestRounds registry inner (n + 1)) : 0 < n ∧ FewestRounds registry t n := by
  obtain ⟨⟨f, gains, needed⟩, lower⟩ := fewest
  have more := barren.one_lt_roundsNeeded gains
  refine ⟨by omega, ⟨f, barren.gains.mpr gains, ?_⟩, ?_⟩
  · rw [barren.roundsNeeded gains]
    omega
  · rintro k ⟨g, gainsG, rfl⟩
    have gainsG := barren.gains.mp gainsG
    have bound := lower ⟨g, gainsG, rfl⟩
    rw [barren.roundsNeeded gainsG]
    omega

end Barren

/-- One pass under the cap with nobody starved and a flow that gains: it selects
    a flow that needs one round, or every gaining flow comes a round nearer. -/
theorem pass_calm (outside : Outside) (exact : env.arith = .exact) (inv : LoopInv env s.inner)
    (calm : Calm env s.registry s.inner) (under : s.inner.outstanding < env.cap)
    (gaining : ∃ f, Gains s.registry s.inner f) :
    (∃ selection t, loopBody env outside s = .ok (.went (some selection) t) ∧
      LoopInv env t.inner ∧
      ∃ f, Gains s.registry s.inner f ∧ roundsNeeded s.registry s.inner f = 1) ∨
    (∃ t, loopBody env outside s = .ok (.went none t) ∧ LoopInv env t.inner ∧
      t.registry = s.registry ∧ t.inner.outstanding < env.cap ∧
      Barren s.registry (s.inner.regain (outside.released s.rounds)) t.inner) := by
  have again := inv.regain (outside.released s.rounds)
  have busy : (s.inner.regain (outside.released s.rounds)).outstanding < env.cap := by
    have permits := inv.permits
    unfold DrrState.outstanding at under ⊢
    simp only [DrrState.regain]
    omega
  have quiet : TrySelect.firstStarved env.selectEnv s.registry
      (s.inner.regain (outside.released s.rounds)) = none :=
    Calm.firstStarved calm again.repInv
  obtain ⟨iteration, body, pass⟩ := loopBody_spec outside inv
  cases pass with
  | idle done =>
      obtain ⟨f, member, -⟩ := gaining
      cases done with
      | inl full => exact absurd busy (not_lt.mpr full)
      | inr empty => exact absurd member (by simp [empty])
  | @round r _ _ some_ spec result =>
      cases selected : r.selection with
      | some selection =>
          simp only [selected] at result
          have one := exists_one_round exact again.repInv quiet spec selected
          refine .inl ⟨selection, _, body.trans (by rw [result]), ?_, one⟩
          dsimp only
          split
          · exact again.round spec
          · exact again.release spec selected
      | none =>
          obtain ⟨barren, registry, -, flag⟩ :=
            barren_of_spec exact again.repInv busy some_ spec selected
          have credited : r.creditAccumulated = true := flag.mpr gaining
          simp only [selected, credited, if_true] at result
          refine .inr ⟨_, body.trans (by rw [result]), again.round spec, registry, ?_, barren⟩
          change r.state.outstanding < env.cap
          rw [barren.outstanding]
          exact busy

theorem first_selection (outside : Outside) (exact : env.arith = .exact) (n : Nat) (s : LoopState)
    (inv : LoopInv env s.inner) (calm : Calm env s.registry s.inner)
    (under : s.inner.outstanding < env.cap) (positive : 0 < n)
    (fewest : FewestRounds s.registry s.inner n) :
    ∃ os, Ends env outside s os ∧ FirstSelection n os := by
  induction n generalizing s with
  | zero => exact absurd positive (lt_irrefl 0)
  | succ m ih =>
      obtain ⟨f, gains, -⟩ := fewest.1
      rcases pass_calm outside exact inv calm under ⟨f, gains⟩ with
        ⟨selection, t, body, held, g, gainsG, one⟩ | ⟨t, body, held, registry, room, barren⟩
      · -- Whoever is selected needed one round only, so no other number is least.
        have bound := fewest.2 ⟨g, gainsG, one.symm⟩
        obtain rfl : m = 0 := by omega
        obtain ⟨os, ends⟩ := exists_ends outside exact t held
        exact ⟨_, ends.went body, selection, os, rfl⟩
      · obtain ⟨later, fewest'⟩ := barren.fewestRounds fewest
        have calm' : Calm env t.registry t.inner := by
          rw [registry]
          exact barren.calm calm
        obtain ⟨os, ends, selection, rest, first⟩ :=
          ih t held calm' room later (by rw [registry]; exact fewest')
        refine ⟨_, ends.went body, selection, rest, ?_⟩
        rw [first, ← List.cons_append, ← List.replicate_succ]
        congr 2
        omega

end

/-- The inner loop stops, whichever sends fail. If nobody is starved, the cap
    leaves room and a waiting flow has a truncated weight of at least 1, the
    first selection comes in the round in which the first such flow can pay. -/
theorem inner_loop_terminates (env : LoopEnv) (outside : Outside) (s : LoopState)
    (inv : LoopInv env s.inner) (exact : env.arith = .exact) :
    ∃ fuel os last, innerLoop env outside fuel s = .ok (os, some last) ∧
      (Calm env s.registry s.inner → s.inner.outstanding < env.cap →
        (∃ f, s.inner.queue f ≠ [] ∧ 1 ≤ (s.registry.getOrCreate f).truncWeight) →
        ∃ n : Nat, IsLeast { k | ∃ f, s.inner.queue f ≠ [] ∧
            1 ≤ (s.registry.getOrCreate f).truncWeight ∧
            k = roundsNeeded s.registry s.inner f } (n : Int) ∧
          FirstSelection n os) := by
  by_cases ready : Calm env s.registry s.inner ∧ s.inner.outstanding < env.cap ∧
      ∃ f, s.inner.queue f ≠ [] ∧ 1 ≤ (s.registry.getOrCreate f).truncWeight
  · obtain ⟨calm, under, f, waits, heavy⟩ := ready
    let needs : Int → Prop := fun k => ∃ f, s.inner.queue f ≠ [] ∧
      1 ≤ (s.registry.getOrCreate f).truncWeight ∧ k = roundsNeeded s.registry s.inner f
    have atLeastOne : ∀ k, needs k → 1 ≤ k := by
      rintro k ⟨g, -, -, rfl⟩
      exact le_max_left _ _
    obtain ⟨k, attained, lower⟩ := Int.exists_least_of_bdd ⟨1, atLeastOne⟩
      ⟨_, f, waits, heavy, rfl⟩
    have positive := atLeastOne k attained
    have natural : ((k.toNat : Nat) : Int) = k := Int.toNat_of_nonneg (by omega)
    have least : IsLeast { k | needs k } (k.toNat : Int) := by
      rw [natural]
      exact ⟨attained, lower⟩
    have same : { k | ∃ f, Gains s.registry s.inner f ∧ k = roundsNeeded s.registry s.inner f } =
        { k | needs k } := by
      ext j
      simp only [Set.mem_ofPred_eq, Gains, inv.repInv.mem_cursor_iff, needs, and_assoc]
      rfl
    obtain ⟨os, ⟨fuel, last, ran⟩, first⟩ := first_selection outside exact k.toNat s inv calm under
      (by omega) (by rw [FewestRounds, same]; exact least)
    exact ⟨fuel, os, last, ran, fun _ _ _ => ⟨k.toNat, least, first⟩⟩
  · obtain ⟨os, fuel, last, ran⟩ := exists_ends outside exact s inv
    refine ⟨fuel, os, last, ran, ?_⟩
    intro calm under some_
    exact absurd ⟨calm, under, some_⟩ ready

/-- Two flows wait, one of them with a weight that truncates to 0, and every
    receiver is gone. -/
theorem inner_loop_terminates_lost_sends :
    let env : LoopEnv := ⟨.default, 0, 0, fun _ => 0, .exact⟩
    let registry := ((FlowRegistry.new (.fin 1) 50).register ⟨⟨"a"⟩, .fin 2, 50⟩).register
      ⟨⟨"b"⟩, .fin (1 / 2), 50⟩
    let inner := ((DrrState.new 4).enqueue ⟨"a"⟩ 0 0 (.fin 5)).enqueue ⟨"b"⟩ 1 0 (.fin 1)
    ∃ fuel os last, innerLoop env ⟨fun _ => false, fun _ => 0⟩ fuel ⟨inner, registry, 0, 0⟩ =
        .ok (os, some last) ∧
      ∃ n : Nat, IsLeast { k | ∃ f, inner.queue f ≠ [] ∧
          1 ≤ (registry.getOrCreate f).truncWeight ∧ k = roundsNeeded registry inner f } (n : Int) ∧
        FirstSelection n os := by
  intro env registry inner
  have inv : LoopInv env inner :=
    ⟨((RepInv.new 4).enqueue _ _ _ _).enqueue _ _ _ _, by decide, by decide⟩
  obtain ⟨fuel, os, last, ran, first⟩ := inner_loop_terminates env ⟨fun _ => false, fun _ => 0⟩
    ⟨inner, registry, 0, 0⟩ inv rfl
  refine ⟨fuel, os, last, ran, first ?_ (by decide) ⟨⟨"a"⟩, by decide, by decide +kernel⟩⟩
  intro f _
  have unset : (registry.getOrCreate f).enqueuedAt = none := by
    simp only [registry, FlowRegistry.getOrCreate_register]
    split
    · rfl
    · split <;> rfl
  simp only [isStarved, unset]

/-- What the loop reads in this state. -/
def System.loopEnv (cfg : Config) (arith : I64Arith) (s : System) : LoopEnv :=
  ⟨cfg, s.now, s.pressure, s.delivered, arith⟩

def Action.ofLoop : Action → Bool
  | .readCap | .readState | .trySelect | .send => true
  | _ => false

/-- A pass of the function above is what the actions of the loop do when no other
    action comes between them. -/
theorem loopBody_simulated {cfg : Config} {arith : I64Arith} {s : System}
    (reach : (scheduler cfg arith).Reachable s) (pc : s.pc = .readCap) :
    ∃ ts t outside iteration, (scheduler cfg arith).Exec s ts t ∧
      (∀ tr ∈ ts, tr.action.ofLoop = true) ∧
      loopBody (s.loopEnv cfg arith) outside ⟨s.inner, s.registry, 0, 0⟩ = .ok iteration ∧
      match iteration with
      | .idle u | .stuck u => t.pc = .parked ∧ t.inner = u.inner ∧ t.registry = u.registry
      | .went _ u => t.pc = .readCap ∧ t.inner = u.inner ∧ t.registry = u.registry := by
  have inv := SystemInv.reachable reach
  have links := Links.reachable reach
  let cap := s.effectiveCap cfg
  let s1 : System := { s with pc := .readState cap }
  have read : nextSystem cfg arith s .readCap = some (s1, some (.capRead s.pressure cap)) := by
    simp only [nextSystem, pc, if_true]
    rfl
  have inv1 : SystemInv cfg s1 := inv.next (inv.step_of_next read)
  have whole : s.inner.regain 0 = s.inner := by
    simp only [DrrState.regain, Nat.add_zero, min_eq_right inv.permits]
  have active := inv.checkedSub_permits
  by_cases idle : cap ≤ s.inner.outstanding ∨ s.inner.rrCursor = []
  · have park : nextSystem cfg arith s1 .readState = some ({ s with pc := .parked }, none) := by
      have done : s.inner.outstanding ≥ cap ∨ s.inner.rrCursor.isEmpty = true :=
        idle.imp id List.isEmpty_iff.mpr
      simp only [nextSystem, s1, active, done, if_true]
    have exec := exec_cons read (exec_cons park .nil)
    refine ⟨_, _, ⟨fun _ => true, fun _ => 0⟩, .idle ⟨s.inner, s.registry, 0, 0⟩, exec,
      by simp [Action.ofLoop], ?_, rfl, rfl, rfl⟩
    have done : s.inner.outstanding ≥ (s.loopEnv cfg arith).cap ∨
        s.inner.rrCursor.isEmpty = true := idle.imp id List.isEmpty_iff.mpr
    simp only [loopBody, whole, active, done, if_true]
  · obtain ⟨under, some_⟩ := not_or.mp idle
    have busy : ¬ (s.inner.outstanding ≥ (s.loopEnv cfg arith).cap ∨
        s.inner.rrCursor.isEmpty = true) := by
      rintro (full | empty)
      · exact under full
      · exact some_ (List.isEmpty_iff.mp empty)
    let s2 : System := { s with pc := .select cap }
    have proceed : nextSystem cfg arith s1 .readState = some (s2, none) :=
      nextSystem_readState inv1 cap rfl (not_le.mp under) some_
    have inv2 : SystemInv cfg s2 := inv1.next (inv1.step_of_next proceed)
    obtain ⟨r, returned, spec⟩ := inv2.trySelect_ok arith rfl
    have select : nextSystem cfg arith s2 .trySelect = some (s2.afterRound r,
        r.selection.map fun selection => .selected selection r.forceAdmit.isSome) :=
      nextSystem_trySelect rfl returned
    have selects : trySelect (s.loopEnv cfg arith).selectEnv s.registry s.inner = .ok r := returned
    cases selected : r.selection with
    | none =>
        rw [selected] at select
        have exec := exec_cons read (exec_cons proceed (exec_cons select .nil))
        refine ⟨_, s2.afterRound r, ⟨fun _ => true, fun _ => 0⟩,
          if r.creditAccumulated then .went none ⟨r.state, r.registry, 0, 1⟩
          else .stuck ⟨r.state, r.registry, 0, 1⟩, exec, by simp [Action.ofLoop], ?_, ?_⟩
        · cases credited : r.creditAccumulated <;>
            simp only [loopBody, whole, active, busy, if_false, selects, selected, credited,
              Bool.false_eq_true, if_true]
        · cases credited : r.creditAccumulated <;>
            simp [System.afterRound, selected, credited]
    | some selection =>
        rw [selected] at select
        have inv3 : SystemInv cfg (s2.afterRound r) := inv2.next (inv2.step_of_next select)
        have links3 : Links (s2.afterRound r) :=
          (((links.next inv (inv.step_of_next read)).next inv1 (inv1.step_of_next proceed)).next inv2
            (inv2.step_of_next select))
        have holds : (s2.afterRound r).pc = .send selection := by
          simp [System.afterRound, selected]
        obtain ⟨t, send⟩ : ∃ t, nextSystem cfg arith (s2.afterRound r) .send = some (t, none) :=
          links3.send_enabled holds
        have exec :=
          exec_cons read (exec_cons proceed (exec_cons select (exec_cons send .nil)))
        cases inv3.step_of_next send with
        | closeReceiver which => simp at which
        | @sent other a pendingId stage pc' found phase =>
            refine ⟨_, _, ⟨fun _ => true, fun _ => 0⟩, .went (some selection) ⟨r.state, r.registry, 1, 1⟩,
              exec, by simp [Action.ofLoop], ?_, rfl, rfl, rfl⟩
            simp only [loopBody, whole, active, busy, if_false, selects, selected, if_true]
        | sendFailed =>
            refine ⟨_, _, ⟨fun _ => false, fun _ => 0⟩,
              .went (some selection) ⟨r.state.release, r.registry, 1, 1⟩,
              exec, by simp [Action.ofLoop], ?_, rfl, rfl, rfl⟩
            simp only [loopBody, whole, active, busy, if_false, selects, selected,
              Bool.false_eq_true]

end TinyLlb
