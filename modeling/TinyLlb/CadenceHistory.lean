import TinyLlb.Cadence
import TinyLlb.Library.Streak

/-! # Cadence from the history

What the state machine of a flow has come to is a function of the arrivals since its
entry was made. Only the arrivals after the last pause count, and of these the longest
streak within a turn: the machine resets its counter at every turn boundary, but gives
a state up only at a pause.
-/

namespace TinyLlb

structure Arrival where
  now : Instant
  unix : Nat
  isTurnBoundary : Bool

inductive ArrivalKind where
  /-- A turn boundary after a pause. -/
  | idleChunk
  | fastBoundary
  /-- Within a turn. -/
  | continuous
  deriving DecidableEq

namespace ArrivalKind

def isContinuous (kind : ArrivalKind) : Bool := decide (kind = continuous)

/-- The arrivals after the last pause. -/
def sinceIdle (kinds : List ArrivalKind) : List ArrivalKind :=
  kinds.rtakeWhile fun kind => decide (kind ≠ idleChunk)

end ArrivalKind

/-- The kind of an arrival, from the one before it. -/
def Arrival.kind (policy : PriorityPolicy) (previous : Option Arrival) (a : Arrival) : ArrivalKind :=
  if a.isTurnBoundary = false then .continuous
  else
    match previous with
    | some b => if policy.idleGapThreshold ≤ a.now.durationSince b.now then .idleChunk else .fastBoundary
    | none => .fastBoundary

/-- The kinds of the arrivals of a history, the first of which comes after this one. -/
def kindsAfter (policy : PriorityPolicy) (previous : Option Arrival) : List Arrival → List ArrivalKind
  | [] => []
  | a :: rest => a.kind policy previous :: kindsAfter policy (some a) rest

def kindsOf (policy : PriorityPolicy) (history : List Arrival) : List ArrivalKind :=
  kindsAfter policy none history

/-- The state for a longest streak since the last pause, and whether there was one. -/
def CadenceState.ofStreak (policy : PriorityPolicy) (longest : Nat) (paused : Bool) : CadenceState :=
  if policy.agenticConfirmedThreshold.toNat ≤ longest then .agenticConfirmed
  else if policy.agenticSuspectedThreshold.toNat ≤ longest then .agenticSuspected
  else if paused then .interactive
  else .cold

/-- State and counter, which wraps, are those of the history. -/
structure Cadence.Reflects (policy : PriorityPolicy) (history : List Arrival) (cadence : Cadence) :
    Prop where
  last : cadence.lastArrival = history.getLast?.map Arrival.now
  count : cadence.continuousArrivalCount =
    UInt32.ofNat (Streak.trailing ArrivalKind.isContinuous (kindsOf policy history))
  state : ∃ longest, Streak.IsLongest ArrivalKind.isContinuous
      (ArrivalKind.sinceIdle (kindsOf policy history)) longest ∧
    cadence.state = .ofStreak policy longest (decide (.idleChunk ∈ kindsOf policy history))

section

variable {policy : PriorityPolicy} {history : List Arrival}

theorem length_kindsAfter (previous : Option Arrival) :
    (kindsAfter policy previous history).length = history.length := by
  induction history generalizing previous with
  | nil => rfl
  | cons a rest ih => simp [kindsAfter, ih]

theorem kindsAfter_snoc (previous : Option Arrival) (a : Arrival) :
    kindsAfter policy previous (history ++ [a]) =
      kindsAfter policy previous history ++ [a.kind policy (history.getLast?.or previous)] := by
  induction history generalizing previous with
  | nil => rfl
  | cons b rest ih =>
      simp only [List.cons_append, kindsAfter, ih, List.getLast?_cons]
      cases rest.getLast? <;> rfl

theorem kindsOf_snoc (a : Arrival) :
    kindsOf policy (history ++ [a]) = kindsOf policy history ++ [a.kind policy history.getLast?] := by
  simp [kindsOf, kindsAfter_snoc]

theorem trailing_sinceIdle (kinds : List ArrivalKind) :
    Streak.trailing ArrivalKind.isContinuous (ArrivalKind.sinceIdle kinds) =
      Streak.trailing ArrivalKind.isContinuous kinds := by
  apply Streak.trailing_rtakeWhile
  intro kind continuous
  simp only [ArrivalKind.isContinuous, decide_eq_true_eq] at continuous
  simp [continuous]

theorem sinceIdle_snoc {kind : ArrivalKind} (busy : kind ≠ .idleChunk) (kinds : List ArrivalKind) :
    ArrivalKind.sinceIdle (kinds ++ [kind]) = ArrivalKind.sinceIdle kinds ++ [kind] :=
  List.rtakeWhile_concat_pos _ _ _ (decide_eq_true busy)

/-- A streak that has become one longer moves the state by one level at most. When
    the counter wraps, the state has long been the last one. -/
theorem demote_ofStreak
    (ordered : policy.agenticSuspectedThreshold.toNat < policy.agenticConfirmedThreshold.toNat)
    {streak longest : Nat} (bound : streak ≤ longest) (paused : Bool) :
    Cadence.demote policy (UInt32.ofNat (streak + 1)) (.ofStreak policy longest paused) =
      .ofStreak policy (max longest (streak + 1)) paused := by
  unfold CadenceState.ofStreak
  by_cases confirmed : policy.agenticConfirmedThreshold.toNat ≤ longest
  · have still : policy.agenticConfirmedThreshold.toNat ≤ max longest (streak + 1) := by omega
    rw [if_pos confirmed, if_pos still]
    rfl
  · have count : (UInt32.ofNat (streak + 1)).toNat = streak + 1 := by
      have width := policy.agenticConfirmedThreshold.toNat_lt
      rw [UInt32.toNat_ofNat']
      exact Nat.mod_eq_of_lt (by omega)
    by_cases suspected : policy.agenticSuspectedThreshold.toNat ≤ longest
    · have still : policy.agenticSuspectedThreshold.toNat ≤ max longest (streak + 1) := by omega
      have reaches : policy.agenticConfirmedThreshold.toNat ≤ max longest (streak + 1) ↔
          UInt32.ofNat (streak + 1) ≥ policy.agenticConfirmedThreshold := by
        rw [ge_iff_le, UInt32.le_iff_toNat_le, count]
        omega
      simp only [if_neg confirmed, if_pos suspected, if_pos still, reaches]
      rfl
    · have below : ¬ policy.agenticConfirmedThreshold.toNat ≤ max longest (streak + 1) := by omega
      have reaches : policy.agenticSuspectedThreshold.toNat ≤ max longest (streak + 1) ↔
          UInt32.ofNat (streak + 1) ≥ policy.agenticSuspectedThreshold := by
        rw [ge_iff_le, UInt32.le_iff_toNat_le, count]
        omega
      simp only [if_neg confirmed, if_neg suspected, if_neg below, reaches]
      cases paused <;> rfl

end

theorem Cadence.Reflects.new {policy : PriorityPolicy}
    (positive : 0 < policy.agenticSuspectedThreshold.toNat)
    (ordered : policy.agenticSuspectedThreshold.toNat < policy.agenticConfirmedThreshold.toNat)
    (unix : Nat) :
    (Cadence.new unix).Reflects policy [] where
  last := rfl
  count := rfl
  state := by
    refine ⟨0, .nil, ?_⟩
    have confirmed : ¬ policy.agenticConfirmedThreshold.toNat ≤ 0 := by omega
    have suspected : ¬ policy.agenticSuspectedThreshold.toNat ≤ 0 := by omega
    simp [Cadence.new, CadenceState.ofStreak, kindsOf, kindsAfter, confirmed, suspected]

/-- What an arrival of each kind does to counter and state. -/
def Cadence.moved (policy : PriorityPolicy) (cadence : Cadence) : ArrivalKind → UInt32 × CadenceState
  | .idleChunk => (0, .interactive)
  | .fastBoundary => (0, cadence.state)
  | .continuous =>
      (cadence.continuousArrivalCount + 1,
        demote policy (cadence.continuousArrivalCount + 1) cadence.state)

theorem Cadence.arrive_eq {policy : PriorityPolicy} {cadence : Cadence} {previous : Option Arrival}
    (last : cadence.lastArrival = previous.map Arrival.now) (a : Arrival) :
    (cadence.arrive policy a.now a.unix a.isTurnBoundary).1 =
      { lastArrival := some a.now, lastSeen := a.unix
        continuousArrivalCount := (cadence.moved policy (a.kind policy previous)).1
        state := (cadence.moved policy (a.kind policy previous)).2 } := by
  unfold arrive Arrival.kind
  rw [last]
  cases a.isTurnBoundary with
  | false => rfl
  | true =>
      cases previous with
      | none => rfl
      | some b =>
          by_cases pause : policy.idleGapThreshold ≤ a.now.durationSince b.now
          · simp [pause, moved]
          · simp [pause, moved]

theorem Cadence.Reflects.arrive {policy : PriorityPolicy} {history : List Arrival} {cadence : Cadence}
    (positive : 0 < policy.agenticSuspectedThreshold.toNat)
    (ordered : policy.agenticSuspectedThreshold.toNat < policy.agenticConfirmedThreshold.toNat)
    (held : cadence.Reflects policy history) (a : Arrival) :
    (cadence.arrive policy a.now a.unix a.isTurnBoundary).1.Reflects policy (history ++ [a]) := by
  obtain ⟨longest, streak, state⟩ := held.state
  rw [arrive_eq held.last]
  have notEmpty : ¬ policy.agenticSuspectedThreshold.toNat ≤ 0 ∧
      ¬ policy.agenticConfirmedThreshold.toNat ≤ 0 := by
    omega
  have snoc : kindsOf policy (history ++ [a]) = _ := kindsOf_snoc a
  cases kind : a.kind policy history.getLast? with
  | idleChunk =>
      rw [kind] at snoc
      refine ⟨by simp, ?_, 0, ?_, ?_⟩
      · rw [snoc, Streak.trailing_break rfl]
        rfl
      · rw [snoc, ArrivalKind.sinceIdle, List.rtakeWhile_concat_neg _ _ _ (by simp)]
        exact .nil
      · simp [snoc, moved, CadenceState.ofStreak, notEmpty]
  | fastBoundary =>
      rw [kind] at snoc
      refine ⟨by simp, ?_, longest, ?_, ?_⟩
      · rw [snoc, Streak.trailing_break rfl]
        rfl
      · rw [snoc, sinceIdle_snoc (by decide)]
        exact streak.break_ rfl
      · simp [snoc, moved, state]
  | continuous =>
      rw [kind] at snoc
      have counted : cadence.continuousArrivalCount + 1 =
          UInt32.ofNat (Streak.trailing ArrivalKind.isContinuous (kindsOf policy history) + 1) := by
        rw [held.count, UInt32.ofNat_add]
        rfl
      have reached := streak.trailing_le
      have longer := streak.extend (x := .continuous) rfl
      rw [trailing_sinceIdle] at reached longer
      refine ⟨by simp, ?_, max longest
        (Streak.trailing ArrivalKind.isContinuous (kindsOf policy history) + 1), ?_, ?_⟩
      · rw [snoc, Streak.trailing_extend rfl]
        exact counted
      · rw [snoc, sinceIdle_snoc (by decide)]
        exact longer
      · have paused : (ArrivalKind.idleChunk ∈ kindsOf policy history ++ [.continuous]) ↔
            .idleChunk ∈ kindsOf policy history := by simp
        simp only [snoc, moved, state, counted, paused]
        exact demote_ofStreak ordered reached _

/-- The operations of the registry on the entries of any flows; reading a state makes an
    entry like the others. -/
inductive CadenceAction where
  | recordArrival (f : FlowId) (a : Arrival)
  | classifyAndApply (flow : Flow) (f : FlowId) (unix : Nat)

/-- The arrivals of one flow among them. -/
def arrivalsOf (f : FlowId) (actions : List CadenceAction) : List Arrival :=
  actions.filterMap fun
    | .recordArrival g a => if g = f then some a else none
    | .classifyAndApply .. => none

namespace CadenceRegistry

def step (r : CadenceRegistry) : CadenceAction → CadenceRegistry
  | .recordArrival f a => (r.recordArrival f a.now a.unix a.isTurnBoundary).1
  | .classifyAndApply flow f unix => (r.classifyAndApply flow f unix).1

def run (r : CadenceRegistry) (actions : List CadenceAction) : CadenceRegistry := actions.foldl step r

variable {r : CadenceRegistry} {f : FlowId}

theorem run_snoc (actions : List CadenceAction) (action : CadenceAction) :
    r.run (actions ++ [action]) = (r.run actions).step action := by
  simp [run]

theorem policy_run (actions : List CadenceAction) : (r.run actions).policy = r.policy := by
  induction actions using List.reverseRecOn with
  | nil => rfl
  | append_singleton actions action ih =>
      rw [run_snoc, ← ih]
      cases action with
      | recordArrival g a => rfl
      | classifyAndApply flow g unix => exact (policy_classifyAndApply _ flow g unix).1

theorem stateOf_eq (unix : Nat) : r.stateOf f = (r.entry f unix).state := by
  unfold stateOf entry
  cases r.inner.lookup f <;> rfl

theorem entry_classifyAndApply (flow : Flow) (g : FlowId) (unix : Nat) (later : Nat) :
    ((r.classifyAndApply flow g unix).1.entry f later) = r.entry f later ∨
      r.inner.lookup f = none ∧ ((r.classifyAndApply flow g unix).1.entry f later) = .new unix := by
  unfold classifyAndApply
  split
  · exact .inl rfl
  · split
    · exact .inl rfl
    · unfold entry
      rw [Assoc.lookup_insert]
      split
      · subst g
        cases found : r.inner.lookup f with
        | none => exact .inr ⟨rfl, rfl⟩
        | some cadence => exact .inl rfl
      · exact .inl rfl

theorem entry_recordArrival (g : FlowId) (a : Arrival) (later : Nat) :
    (r.step (.recordArrival g a)).entry f later =
      if f = g then ((r.entry g a.unix).arrive r.policy a.now a.unix a.isTurnBoundary).1
      else r.entry f later := by
  unfold step recordArrival
  simp only
  rw [entry, Assoc.lookup_insert]
  split
  · rfl
  · rfl

end CadenceRegistry

/-- Whatever the other flows do, state and counter of a flow are those of its arrivals. -/
theorem reflects_run {policy : PriorityPolicy} {r : CadenceRegistry} {f : FlowId}
    (positive : 0 < policy.agenticSuspectedThreshold.toNat)
    (ordered : policy.agenticSuspectedThreshold.toNat < policy.agenticConfirmedThreshold.toNat)
    (same : r.policy = policy) (fresh : r.inner.lookup f = none) (actions : List CadenceAction)
    (unix : Nat) :
    ((r.run actions).entry f unix).Reflects policy (arrivalsOf f actions) := by
  induction actions using List.reverseRecOn generalizing unix with
  | nil =>
      have new : (r.run []).entry f unix = .new unix := by
        simp [CadenceRegistry.run, CadenceRegistry.entry, fresh]
      rw [new]
      exact .new positive ordered unix
  | append_singleton actions action ih =>
      rw [CadenceRegistry.run_snoc]
      cases action with
      | recordArrival g a =>
          rw [CadenceRegistry.entry_recordArrival, CadenceRegistry.policy_run, same]
          by_cases here : f = g
          · subst g
            have history : arrivalsOf f (actions ++ [.recordArrival f a]) =
                arrivalsOf f actions ++ [a] := by
              simp [arrivalsOf]
            rw [if_pos rfl, history]
            exact (ih a.unix).arrive positive ordered a
          · have history : arrivalsOf f (actions ++ [.recordArrival g a]) = arrivalsOf f actions := by
              simp [arrivalsOf, Ne.symm here]
            rw [if_neg here, history]
            exact ih unix
      | classifyAndApply flow g seen =>
          have history : arrivalsOf f (actions ++ [.classifyAndApply flow g seen]) =
              arrivalsOf f actions := by
            simp [arrivalsOf]
          rw [history, CadenceRegistry.step]
          rcases CadenceRegistry.entry_classifyAndApply flow g seen unix with kept | ⟨none_, made⟩
          · rw [kept]
            exact ih unix
          · -- The entry that classifying makes is the one an arrival would have made.
            have new : (r.run actions).entry f seen = .new seen := by simp [CadenceRegistry.entry, none_]
            rw [made, ← new]
            exact ih seen

/-- For every accepted policy and every history of fewer than 2^32 arrivals. -/
theorem cadence_closed_form {cfg : Config} (accepted : cfg.validate = .ok ()) {r : CadenceRegistry}
    (policy : r.policy = cfg.priorityPolicy) {f : FlowId} (fresh : r.inner.lookup f = none)
    (actions : List CadenceAction) (few : (arrivalsOf f actions).length < 4294967296) (unix : Nat) :
    let kinds := kindsOf cfg.priorityPolicy (arrivalsOf f actions)
    (∃ longest, Streak.IsLongest ArrivalKind.isContinuous (ArrivalKind.sinceIdle kinds) longest ∧
        (r.run actions).stateOf f =
          .ofStreak cfg.priorityPolicy longest (decide (.idleChunk ∈ kinds))) ∧
      ((r.run actions).entry f unix).continuousArrivalCount.toNat =
        Streak.trailing ArrivalKind.isContinuous kinds := by
  intro kinds
  obtain ⟨positive, ordered⟩ := Config.thresholds_of_validate accepted
  have held := reflects_run positive ordered policy fresh actions unix
  rw [CadenceRegistry.stateOf_eq unix]
  refine ⟨held.state, ?_⟩
  have bound := Streak.trailing_le_length (p := ArrivalKind.isContinuous) (l := kinds)
  rw [held.count, UInt32.toNat_ofNat']
  apply Nat.mod_eq_of_lt
  rw [show kinds.length = _ from length_kindsAfter none] at bound
  exact bound.trans_lt few

/-- A pause, and then twelve arrivals within a turn. -/
def agenticTurn : List CadenceAction :=
  (.recordArrival ⟨"f"⟩ ⟨0, 0, true⟩) :: (.recordArrival ⟨"f"⟩ ⟨45000000000, 45, true⟩) ::
    (List.range 12).map fun i => .recordArrival ⟨"f"⟩ ⟨(46 + i) * 1000000000, 46 + i, false⟩

theorem cadence_closed_form_agentic :
    ∃ longest, Streak.IsLongest ArrivalKind.isContinuous
        (ArrivalKind.sinceIdle (kindsOf Config.default.priorityPolicy (arrivalsOf ⟨"f"⟩ agenticTurn)))
          longest ∧
      ((CadenceRegistry.new Config.default.priorityPolicy .default).run agenticTurn).stateOf ⟨"f"⟩ =
        .ofStreak Config.default.priorityPolicy longest true := by
  obtain ⟨⟨longest, streak, state⟩, -⟩ := cadence_closed_form Config.validate_default
    (rfl : (CadenceRegistry.new Config.default.priorityPolicy .default).policy = _) (f := ⟨"f"⟩) rfl
    agenticTurn (by decide) 0
  refine ⟨longest, streak, ?_⟩
  have paused : .idleChunk ∈ kindsOf Config.default.priorityPolicy (arrivalsOf ⟨"f"⟩ agenticTurn) := by
    decide +kernel
  rw [state, decide_eq_true paused]

end TinyLlb
