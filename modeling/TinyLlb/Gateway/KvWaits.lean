import TinyLlb.Gateway.KvGate
import TinyLlb.Library.Slots

/-! # Callers of the KV gate

Any number of callers run `check` against one snapshot channel. A caller that is to be
delayed counts itself, looks at the channel whenever it is run, and uncounts itself when
it leaves; it can be dropped at any time in between. Time passes, snapshots are published
and the channel closes at any time. The timer of a caller is found expired at the earliest
when the maximal wait is over, and each time the channel is looked at first.
-/

namespace TinyLlb

/-- `x > bound`, false for a NaN. -/
def F64.isAbove (bound : ℚ) : F64 → Bool
  | nan => false
  | negInf => false
  | posInf => true
  | fin q => decide (bound < q)

/-- `KvPolicy::decide` on the usage of a snapshot, with the rejection that blocking mode
    turns into a delay. -/
def KvPolicyConfig.decision (policy : KvPolicyConfig) (mode : BackpressureMode) (usage : F64) :
    KvmDecision :=
  if usage.isAbove policy.rejectThreshold then
    match mode with
    | .blocking => .delay
    | _ => .reject
  else if usage.isAbove policy.delayThreshold then .delay
  else .accept

theorem KvPolicyConfig.decision_fin (policy : KvPolicyConfig) (mode : BackpressureMode) (q : ℚ) :
    policy.decision mode (.fin q) = policy.decideFor mode q := by
  unfold decision decideFor decide
  simp only [F64.isAbove, decide_eq_true_eq, gt_iff_lt]
  split_ifs <;> cases mode <;> rfl

namespace KvWaits

inductive CheckResult where
  | ok
  | err (retryAfter : ℚ)
  deriving DecidableEq

/-- What a caller found when it looked at the channel. -/
structure Observation where
  now : Instant
  usage : F64
  closed : Bool
  deriving DecidableEq

inductive Phase where
  /-- To be delayed, and not yet counted. -/
  | delaying
  /-- To be rejected, once the count is read. -/
  | rejecting
  | waiting (since : Instant)
  /-- The result is there, the guard not yet dropped. -/
  | leaving (result : CheckResult)
  | returned (result : CheckResult)
  | cancelled
  deriving DecidableEq

structure Caller where
  isInteractive : Bool
  /-- The usage that the decision was made on. -/
  entry : F64
  /-- When the wait began, if there was one. -/
  waited : Option Instant
  /-- What was found during the wait, in order. -/
  observed : List Observation
  phase : Phase
  deriving DecidableEq

structure State where
  now : Instant
  usage : F64
  closed : Bool
  delayedCount : UInt32
  callers : List Caller

inductive Action where
  | tick (elapsed : Duration)
  | publish (usage : F64)
  | close
  | enter (isInteractive : Bool)
  | guard (i : Nat)
  /-- Run caller `i`; its timer is found expired or not. -/
  | poll (i : Nat) (expired : Bool)
  | leave (i : Nat)
  | reject (i : Nat)
  | cancel (i : Nat)
  deriving DecidableEq

/-- The predicate of `wait_for`, or the end of the channel. -/
def Observation.releases (policy : KvPolicyConfig) (seen : Observation) : Bool :=
  seen.usage.isLe policy.delayThreshold || seen.closed

/-- The caller holds a `DelayGuard`. -/
def Caller.isDelayed (c : Caller) : Bool :=
  match c.phase with
  | .waiting _ | .leaving _ => true
  | _ => false

namespace State

def set (s : State) (i : Nat) (c : Caller) : State := { s with callers := s.callers.set i c }

/-- What a caller finds that looks at the channel now. -/
def look (s : State) : Observation := ⟨s.now, s.usage, s.closed⟩

end State

variable (cfg : GatewayConfig)

/-- `check` up to its decision. -/
def entryPhase (isInteractive : Bool) (usage : F64) : Phase :=
  let policy := cfg.backpressure.kvPolicy
  if !policy.enabled then .returned .ok
  else if policy.bypassInteractive && isInteractive then .returned .ok
  else
    match policy.decision cfg.backpressure.mode usage with
    | .accept => .returned .ok
    | .delay => .delaying
    | .reject => .rejecting

/-- One run of the wait: the channel first, then the timer, which blocking mode lacks. -/
def pollPhase (s : State) (since : Instant) (expired : Bool) : Phase :=
  if s.look.releases cfg.backpressure.kvPolicy then .leaving .ok
  else if cfg.backpressure.mode ≠ .blocking ∧ expired = true then
    .leaving (.err (cfg.delayRetryAfter s.delayedCount))
  else .waiting since

/-- The timer is not found expired before the maximal wait is over. -/
def timerAllows (s : State) (since : Instant) (expired : Bool) : Bool :=
  !expired || decide (since + cfg.backpressure.maxWait ≤ s.now)

def next (s : State) : Action → Option (State × Option Empty)
  | .tick elapsed => some ({ s with now := s.now + elapsed }, none)
  | .publish usage => if s.closed then none else some ({ s with usage }, none)
  | .close => some ({ s with closed := true }, none)
  | .enter isInteractive =>
      let caller := ⟨isInteractive, s.usage, none, [], entryPhase cfg isInteractive s.usage⟩
      some ({ s with callers := s.callers ++ [caller] }, none)
  | .guard i => do
      let c ← s.callers[i]?
      match c.phase with
      | .delaying =>
          let s' := s.set i { c with waited := some s.now, phase := .waiting s.now }
          some ({ s' with delayedCount := s.delayedCount + 1 }, none)
      | _ => none
  | .poll i expired => do
      let c ← s.callers[i]?
      match c.phase with
      | .waiting since =>
          if timerAllows cfg s since expired then
            some (s.set i { c with
              observed := c.observed ++ [s.look], phase := pollPhase cfg s since expired }, none)
          else none
      | _ => none
  | .leave i => do
      let c ← s.callers[i]?
      match c.phase with
      | .leaving result =>
          let s' := s.set i { c with phase := .returned result }
          some ({ s' with delayedCount := s.delayedCount - 1 }, none)
      | _ => none
  | .reject i => do
      let c ← s.callers[i]?
      match c.phase with
      | .rejecting =>
          some (s.set i
            { c with phase := .returned (.err (cfg.delayRetryAfter s.delayedCount)) }, none)
      | _ => none
  | .cancel i => do
      let c ← s.callers[i]?
      match c.phase with
      | .waiting _ =>
          let s' := s.set i { c with phase := .cancelled }
          some ({ s' with delayedCount := s.delayedCount - 1 }, none)
      | _ => none

/-- Nobody has called yet; the channel holds the default snapshot. -/
def machine : Machine State Action Empty := ⟨⟨0, .fin 0, false, 0, []⟩, next cfg⟩

/-- The policy is off, or the caller bypasses it. -/
def Exempt (c : Caller) : Prop :=
  cfg.backpressure.kvPolicy.enabled = false ∨
    cfg.backpressure.kvPolicy.bypassInteractive = true ∧ c.isInteractive = true

/-- The decision for the usage at entry. -/
def decided (c : Caller) : KvmDecision :=
  cfg.backpressure.kvPolicy.decision cfg.backpressure.mode c.entry

/-- The caller has to wait. -/
def Delays (c : Caller) : Prop := ¬ Exempt cfg c ∧ decided cfg c = .delay

/-- It found neither a low usage nor the end of the channel. -/
def Unreleased (c : Caller) : Prop :=
  ∀ seen ∈ c.observed, seen.releases cfg.backpressure.kvPolicy = false

def Released (c : Caller) : Prop :=
  ∃ seen ∈ c.observed, seen.releases cfg.backpressure.kvPolicy = true

/-- It was last run after the maximal wait. -/
def Late (c : Caller) : Prop :=
  ∃ since seen, c.waited = some since ∧ c.observed.getLast? = some seen ∧
    since + cfg.backpressure.maxWait ≤ seen.now

/-- The wait timed out. -/
def TimedOut (c : Caller) : Prop :=
  Delays cfg c ∧ cfg.backpressure.mode ≠ .blocking ∧ Unreleased cfg c ∧ Late cfg c

/-- What the phase of a caller tells about it. -/
def Lawful (c : Caller) : Prop :=
  match c.phase with
  | .delaying => Delays cfg c ∧ c.observed = []
  | .rejecting => ¬ Exempt cfg c ∧ decided cfg c = .reject ∧ c.waited = none
  | .waiting since => Delays cfg c ∧ c.waited = some since ∧ Unreleased cfg c
  | .leaving .ok => Delays cfg c ∧ Released cfg c
  | .leaving (.err _) => TimedOut cfg c
  | .returned .ok =>
      (Exempt cfg c ∨ decided cfg c = .accept) ∧ c.waited = none ∨ Delays cfg c ∧ Released cfg c
  | .returned (.err _) =>
      ¬ Exempt cfg c ∧ decided cfg c = .reject ∧ c.waited = none ∨ TimedOut cfg c
  | .cancelled => Delays cfg c

variable {cfg} {s t : State} {c : Caller} {i : Nat} {usage : F64} {isInteractive : Bool}

theorem decided_eq_reject_iff : decided cfg c = .reject ↔
    c.entry.isAbove cfg.backpressure.kvPolicy.rejectThreshold = true ∧
      cfg.backpressure.mode ≠ .blocking := by
  unfold decided KvPolicyConfig.decision
  split_ifs with above high
  · cases cfg.backpressure.mode <;> simp [above]
  · simp [above]
  · simp [above]

theorem decided_eq_delay_iff : decided cfg c = .delay ↔
    (c.entry.isAbove cfg.backpressure.kvPolicy.rejectThreshold = true ∧
        cfg.backpressure.mode = .blocking) ∨
      (c.entry.isAbove cfg.backpressure.kvPolicy.rejectThreshold = false ∧
        c.entry.isAbove cfg.backpressure.kvPolicy.delayThreshold = true) := by
  unfold decided KvPolicyConfig.decision
  split_ifs with above high
  · cases cfg.backpressure.mode <;> simp [above]
  · simp [above, high]
  · simp [above, high]

theorem decided_eq_accept_iff : decided cfg c = .accept ↔
    c.entry.isAbove cfg.backpressure.kvPolicy.rejectThreshold = false ∧
      c.entry.isAbove cfg.backpressure.kvPolicy.delayThreshold = false := by
  unfold decided KvPolicyConfig.decision
  split_ifs with above high
  · cases cfg.backpressure.mode <;> simp [above]
  · simp [high]
  · simp [above, high]

theorem lawful_enter :
    Lawful cfg ⟨isInteractive, usage, none, [], entryPhase cfg isInteractive usage⟩ := by
  unfold entryPhase
  simp only
  split_ifs with off bypass
  · exact .inl ⟨.inl (.inl (by simpa using off)), rfl⟩
  · exact .inl ⟨.inl (.inr (by simpa using bypass)), rfl⟩
  · have subject : ¬ Exempt cfg ⟨isInteractive, usage, none, [], .delaying⟩ := by
      rintro (disabled | bypassed)
      · exact off (by simp [disabled])
      · exact bypass (by simpa using bypassed)
    split
    · exact .inl ⟨.inr ‹_›, rfl⟩
    · exact ⟨⟨subject, ‹_›⟩, rfl⟩
    · exact ⟨subject, ‹_›, rfl⟩

theorem isDelayed_enter :
    Caller.isDelayed ⟨isInteractive, usage, none, [], entryPhase cfg isInteractive usage⟩ = false := by
  unfold entryPhase
  simp only
  split_ifs
  · rfl
  · rfl
  · split <;> rfl

theorem lawful_poll {since : Instant} {expired : Bool} (lawful : Lawful cfg c)
    (waiting : c.phase = .waiting since) (allowed : timerAllows cfg s since expired = true) :
    Lawful cfg { c with observed := c.observed ++ [s.look], phase := pollPhase cfg s since expired } := by
  rw [Lawful, waiting] at lawful
  obtain ⟨delays, waited, unreleased⟩ := lawful
  cases low : s.look.releases cfg.backpressure.kvPolicy with
  | true =>
      have phase : pollPhase cfg s since expired = .leaving .ok := if_pos low
      rw [phase]
      exact ⟨delays, s.look, by simp, low⟩
  | false =>
      have held : ∀ seen ∈ c.observed ++ [s.look],
          seen.releases cfg.backpressure.kvPolicy = false := by
        intro seen member
        rcases List.mem_append.mp member with earlier | last
        · exact unreleased seen earlier
        · rw [List.mem_singleton.mp last]
          exact low
      by_cases over_ : cfg.backpressure.mode ≠ .blocking ∧ expired = true
      · have phase : pollPhase cfg s since expired =
            .leaving (.err (cfg.delayRetryAfter s.delayedCount)) := by
          rw [pollPhase, if_neg (by simp [low]), if_pos over_]
        have late : since + cfg.backpressure.maxWait ≤ s.now := by
          simpa [timerAllows, over_.2] using allowed
        rw [phase]
        exact ⟨delays, over_.1, held, since, s.look, waited, by simp, late⟩
      · have phase : pollPhase cfg s since expired = .waiting since := by
          rw [pollPhase, if_neg (by simp [low]), if_neg over_]
        rw [phase]
        exact ⟨delays, waited, held⟩

/-- What holds in every reachable state. -/
structure Sound (cfg : GatewayConfig) (s : State) : Prop where
  lawful : ∀ c ∈ s.callers, Lawful cfg c
  count : s.delayedCount = UInt32.ofNat (s.callers.countP Caller.isDelayed)

theorem lawful_set (sound : Sound cfg s) {c' : Caller} (lawful : Lawful cfg c') :
    ∀ c ∈ s.callers.set i c', Lawful cfg c := by
  intro c member
  rcases List.mem_or_eq_of_mem_set member with old | rfl
  · exact sound.lawful c old
  · exact lawful

theorem sound_set (sound : Sound cfg s) (found : s.callers[i]? = some c) {c' : Caller}
    (lawful : Lawful cfg c') (same : c'.isDelayed = c.isDelayed) : Sound cfg (s.set i c') := by
  refine ⟨lawful_set sound lawful, ?_⟩
  have counted := Slots.countP_set found c' Caller.isDelayed
  rw [same] at counted
  change s.delayedCount = UInt32.ofNat ((s.callers.set i c').countP Caller.isDelayed)
  rw [sound.count, Nat.add_right_cancel counted]

theorem sound_count (sound : Sound cfg s) (found : s.callers[i]? = some c) {c' : Caller}
    (lawful : Lawful cfg c') (before : c.isDelayed = false) (after : c'.isDelayed = true) :
    Sound cfg { s.set i c' with delayedCount := s.delayedCount + 1 } := by
  refine ⟨lawful_set sound lawful, ?_⟩
  have counted := Slots.countP_set found c' Caller.isDelayed
  rw [before, after] at counted
  change s.delayedCount + 1 = UInt32.ofNat ((s.callers.set i c').countP Caller.isDelayed)
  have one : (s.callers.set i c').countP Caller.isDelayed =
      s.callers.countP Caller.isDelayed + 1 := by simpa using counted
  rw [sound.count, one, UInt32.ofNat_add]
  rfl

theorem sound_uncount (sound : Sound cfg s) (found : s.callers[i]? = some c) {c' : Caller}
    (lawful : Lawful cfg c') (before : c.isDelayed = true) (after : c'.isDelayed = false) :
    Sound cfg { s.set i c' with delayedCount := s.delayedCount - 1 } := by
  refine ⟨lawful_set sound lawful, ?_⟩
  have counted := Slots.countP_set found c' Caller.isDelayed
  rw [before, after] at counted
  change s.delayedCount - 1 = UInt32.ofNat ((s.callers.set i c').countP Caller.isDelayed)
  have one : s.callers.countP Caller.isDelayed =
      (s.callers.set i c').countP Caller.isDelayed + 1 := by simpa using counted.symm
  rw [sound.count, one, UInt32.ofNat_add]
  exact UInt32.add_sub_cancel _ _

theorem sound_start : Sound cfg (machine cfg).start := ⟨by simp [machine], rfl⟩

theorem sound_next {a : Action} {e} (sound : Sound cfg s) (step : next cfg s a = some (t, e)) :
    Sound cfg t := by
  cases a with
  | tick elapsed =>
      obtain ⟨rfl, -⟩ := Prod.mk.inj (Option.some.inj step)
      exact ⟨sound.lawful, sound.count⟩
  | publish usage =>
      simp only [next] at step
      split at step
      · cases step
      · obtain ⟨rfl, -⟩ := Prod.mk.inj (Option.some.inj step)
        exact ⟨sound.lawful, sound.count⟩
  | close =>
      obtain ⟨rfl, -⟩ := Prod.mk.inj (Option.some.inj step)
      exact ⟨sound.lawful, sound.count⟩
  | enter isInteractive =>
      obtain ⟨rfl, -⟩ := Prod.mk.inj (Option.some.inj step)
      constructor
      · intro c member
        rcases List.mem_append.mp member with old | new
        · exact sound.lawful c old
        · rw [List.mem_singleton.mp new]
          exact lawful_enter
      · simp [sound.count, isDelayed_enter]
  | guard i =>
      obtain ⟨c, found, rest⟩ := Option.bind_eq_some_iff.mp step
      have lawful := sound.lawful c (List.mem_of_getElem? found)
      cases phase : c.phase <;> simp only [phase, reduceCtorEq] at rest
      obtain ⟨rfl, -⟩ := Prod.mk.inj (Option.some.inj rest)
      rw [Lawful, phase] at lawful
      refine sound_count sound found ?_ (by simp [Caller.isDelayed, phase]) rfl
      exact ⟨lawful.1, rfl, by simp [Unreleased, lawful.2]⟩
  | poll i expired =>
      obtain ⟨c, found, rest⟩ := Option.bind_eq_some_iff.mp step
      have lawful := sound.lawful c (List.mem_of_getElem? found)
      cases phase : c.phase <;> simp only [phase, reduceCtorEq] at rest
      split at rest
      · obtain ⟨rfl, -⟩ := Prod.mk.inj (Option.some.inj rest)
        refine sound_set sound found (lawful_poll lawful phase ‹_›) ?_
        simp only [Caller.isDelayed, phase]
        unfold pollPhase
        split_ifs <;> rfl
      · cases rest
  | leave i =>
      obtain ⟨c, found, rest⟩ := Option.bind_eq_some_iff.mp step
      have lawful := sound.lawful c (List.mem_of_getElem? found)
      cases phase : c.phase <;> simp only [phase, reduceCtorEq] at rest
      rename_i result
      obtain ⟨rfl, -⟩ := Prod.mk.inj (Option.some.inj rest)
      rw [Lawful, phase] at lawful
      refine sound_uncount sound found ?_ (by simp [Caller.isDelayed, phase]) rfl
      cases result with
      | ok => exact .inr lawful
      | err retryAfter => exact .inr lawful
  | reject i =>
      obtain ⟨c, found, rest⟩ := Option.bind_eq_some_iff.mp step
      have lawful := sound.lawful c (List.mem_of_getElem? found)
      cases phase : c.phase <;> simp only [phase, reduceCtorEq] at rest
      obtain ⟨rfl, -⟩ := Prod.mk.inj (Option.some.inj rest)
      rw [Lawful, phase] at lawful
      exact sound_set sound found (.inl lawful) (by simp [Caller.isDelayed, phase])
  | cancel i =>
      obtain ⟨c, found, rest⟩ := Option.bind_eq_some_iff.mp step
      have lawful := sound.lawful c (List.mem_of_getElem? found)
      cases phase : c.phase <;> simp only [phase, reduceCtorEq] at rest
      obtain ⟨rfl, -⟩ := Prod.mk.inj (Option.some.inj rest)
      rw [Lawful, phase] at lawful
      exact sound_uncount sound found lawful.1 (by simp [Caller.isDelayed, phase]) rfl

/-- `delayed_count`, and what the result of a call says. -/
structure CheckLaw (cfg : GatewayConfig) (s : State) : Prop where
  /-- The count is the number of callers in the wait, as a `u32`. -/
  count : s.delayedCount.toNat = s.callers.countP Caller.isDelayed % 4294967296
  exempt : ∀ c ∈ s.callers, Exempt cfg c → c.phase = .returned .ok ∧ c.waited = none
  blocking : cfg.backpressure.mode = .blocking →
    ∀ c ∈ s.callers, ∀ retryAfter, c.phase ≠ .returned (.err retryAfter)
  /-- Otherwise a caller is rejected for the usage at entry, or after a wait in which it
      found no release up to and including the run that found its timer expired. -/
  rejected : cfg.backpressure.mode ≠ .blocking → ∀ c ∈ s.callers, ¬ Exempt cfg c →
    ∀ result, c.phase = .returned result →
      ((∃ retryAfter, result = .err retryAfter) ↔
        c.entry.isAbove cfg.backpressure.kvPolicy.rejectThreshold = true ∨
          c.entry.isAbove cfg.backpressure.kvPolicy.rejectThreshold = false ∧
            c.entry.isAbove cfg.backpressure.kvPolicy.delayThreshold = true ∧ Unreleased cfg c)
  /-- That run is not before the maximal wait is over. -/
  timely : ∀ c ∈ s.callers, ∀ since retryAfter, c.waited = some since →
    c.phase = .returned (.err retryAfter) →
      ∃ seen, c.observed.getLast? = some seen ∧ since + cfg.backpressure.maxWait ≤ seen.now
  released : ∀ c ∈ s.callers, c.waited.isSome = true → c.phase = .returned .ok → Released cfg c

theorem sound_reachable (reach : (machine cfg).Reachable s) : Sound cfg s :=
  reach.invariant sound_start fun _ sound step => sound_next sound step

theorem toNat_delayedCount (sound : Sound cfg s) :
    s.delayedCount.toNat = s.callers.countP Caller.isDelayed % 4294967296 := by
  rw [sound.count, UInt32.toNat_ofNat']

theorem returned_of_exempt (lawful : Lawful cfg c) (exempt : Exempt cfg c) :
    c.phase = .returned .ok ∧ c.waited = none := by
  unfold Lawful at lawful
  split at lawful <;> rename_i phase
  · exact absurd exempt lawful.1.1
  · exact absurd exempt lawful.1
  · exact absurd exempt lawful.1.1
  · exact absurd exempt lawful.1.1
  · exact absurd exempt lawful.1.1
  · rcases lawful with ⟨-, waited⟩ | ⟨delays, -⟩
    · exact ⟨phase, waited⟩
    · exact absurd exempt delays.1
  · rcases lawful with ⟨subject, -⟩ | timedOut
    · exact absurd exempt subject
    · exact absurd exempt timedOut.1.1
  · exact absurd exempt lawful.1

theorem lawful_err {retryAfter : ℚ} (lawful : Lawful cfg c)
    (phase : c.phase = .returned (.err retryAfter)) :
    ¬ Exempt cfg c ∧ decided cfg c = .reject ∧ c.waited = none ∨ TimedOut cfg c := by
  rwa [Lawful, phase] at lawful

theorem lawful_ok (lawful : Lawful cfg c) (phase : c.phase = .returned .ok) :
    (Exempt cfg c ∨ decided cfg c = .accept) ∧ c.waited = none ∨ Delays cfg c ∧ Released cfg c := by
  rwa [Lawful, phase] at lawful

theorem rejected_iff (bounded : cfg.backpressure.mode ≠ .blocking) (lawful : Lawful cfg c)
    (subject : ¬ Exempt cfg c) {result : CheckResult} (phase : c.phase = .returned result) :
    (∃ retryAfter, result = .err retryAfter) ↔
      c.entry.isAbove cfg.backpressure.kvPolicy.rejectThreshold = true ∨
        c.entry.isAbove cfg.backpressure.kvPolicy.rejectThreshold = false ∧
          c.entry.isAbove cfg.backpressure.kvPolicy.delayThreshold = true ∧ Unreleased cfg c := by
  have band : Delays cfg c → c.entry.isAbove cfg.backpressure.kvPolicy.rejectThreshold = false ∧
      c.entry.isAbove cfg.backpressure.kvPolicy.delayThreshold = true := by
    intro delays
    rcases decided_eq_delay_iff.mp delays.2 with ⟨-, blocking⟩ | between
    · exact absurd blocking bounded
    · exact between
  cases result with
  | ok =>
      simp only [reduceCtorEq, exists_false, false_iff, not_or]
      rcases lawful_ok lawful phase with ⟨passed, -⟩ | ⟨delays, seen, member, low⟩
      · have accepted := decided_eq_accept_iff.mp (passed.resolve_left subject)
        simp [accepted.1, accepted.2]
      · refine ⟨by simp [(band delays).1], ?_⟩
        rintro ⟨-, -, unreleased⟩
        rw [unreleased seen member] at low
        cases low
  | err retryAfter =>
      refine ⟨fun _ => ?_, fun _ => ⟨retryAfter, rfl⟩⟩
      rcases lawful_err lawful phase with ⟨-, rejects, -⟩ | timedOut
      · exact .inl (decided_eq_reject_iff.mp rejects).1
      · exact .inr ⟨(band timedOut.1).1, (band timedOut.1).2, timedOut.2.2.1⟩

/-- The defaults in hybrid mode with the KV policy switched on. -/
def hybridConfig : GatewayConfig :=
  { GatewayConfig.withKvPolicy with
    backpressure := { GatewayConfig.withKvPolicy.backpressure with mode := .hybrid } }

theorem validate_hybridConfig : hybridConfig.validate = .ok () := by decide +kernel

/-- A caller that is counted and has not looked at the channel yet. -/
def freshWaiter : Caller := ⟨false, .fin (85 / 100), some 0, [], .waiting 0⟩

/-- Any number of callers can wait at once. -/
theorem exec_freshWaiters (n : Nat) :
    ∃ ts s, (machine hybridConfig).Exec (machine hybridConfig).start ts s ∧ s.now = 0 ∧
      s.usage = .fin (85 / 100) ∧ s.callers = List.replicate n freshWaiter := by
  induction n with
  | zero =>
      exact ⟨_, _, .snoc .nil (show (machine hybridConfig).next _ (.publish (.fin (85 / 100))) =
        some (_, none) from rfl), rfl, rfl, rfl⟩
  | succ n ih =>
      obtain ⟨ts, s, run, clock, high, callers⟩ := ih
      let c : Caller := ⟨false, s.usage, none, [], entryPhase hybridConfig false s.usage⟩
      let s' : State := { s with callers := s.callers ++ [c] }
      have enters : (machine hybridConfig).next s (.enter false) = some (s', none) := rfl
      have delaying : c.phase = .delaying := by
        change entryPhase hybridConfig false s.usage = _
        rw [high]
        decide +kernel
      have found : s'.callers[n]? = some c := by
        change (s.callers ++ [c])[n]? = _
        rw [callers, List.getElem?_append_right (by simp)]
        simp
      have counts : (machine hybridConfig).next s' (.guard n) =
          some ({ s'.set n { c with waited := some s.now, phase := .waiting s.now } with
            delayedCount := s.delayedCount + 1 }, none) := by
        simp only [machine, next, found, Option.bind_eq_bind, Option.bind_some, delaying]
        rfl
      refine ⟨_, _, (run.snoc enters).snoc counts, clock, high, ?_⟩
      change (s.callers ++ [c]).set n _ = _
      rw [callers, List.set_append_right _ _ (by simp), List.replicate_succ', clock]
      simp [c, freshWaiter, high]

end KvWaits

end TinyLlb
