import TinyLlb.Gateway.Calls

/-! # The stall gate behind the KV gate

A request that arrives while the backend is stalled is to be rejected at once.
The stall gate does so, but the KV gate comes first and may park the request for
as long as the usage stays high. So the request is rejected at once exactly if
the KV gate does not hold it.
-/

namespace TinyLlb

/-- The call has not been parked: it was rejected or is about to meet the stall
    gate. -/
def CallPhase.unparked : CallPhase → Bool
  | .passed | .rejected _ => true
  | _ => false

/-- Call `c` is rejected without being parked, as long as the stall signal stays
    set: wherever a run brings the gateway, it has its rejection, or the stall gate
    is its next step and gives it one. -/
def RejectedAtOnce (cfg : GatewayConfig) (arith : I64Arith) (g : Gateway) (c : Nat) : Prop :=
  ∀ {ts g'}, (gateway cfg arith).Exec g ts g' →
    (∀ tr ∈ ts, tr.pre.stalled = true) → g'.stalled = true →
    ∃ call, g'.calls[c]? = some call ∧
      ((∃ retryAfter, call.phase = .rejected retryAfter) ∨
        call.phase = .passed ∧ nextGateway cfg arith g' (.stallGate c) =
          some (g'.setCall c call (.rejected 5000000000), none))

section

variable {cfg : GatewayConfig} {arith : I64Arith} {g g' : Gateway} {action : GatewayAction}
  {event : Option Event} {c : Nat} {call : Call}

/-- Under the stall signal no call gets from the gates into the scheduler. -/
theorem CallMove.unparked {p q : CallPhase} (move : CallMove g p q) (set : g.stalled = true)
    (before : p.unparked = true) : q.unparked = true := by
  cases move with
  | resumed | timedOut | stalled | refused => rfl
  | disconnected => cases before
  | cleared unset => simp [set] at unset
  | admitted => cases before

theorem GatewayStep.unparked (step : GatewayStep cfg arith g action event g')
    (set : g.stalled = true) (found : g.calls[c]? = some call)
    (before : call.phase.unparked = true) :
    ∃ call', g'.calls[c]? = some call' ∧ call'.phase.unparked = true := by
  cases step.callsChange with
  | arrived f body unix isTurnBoundary gate which decided calls =>
      rw [calls]
      exact ⟨call, Slots.getElem?_append found _, before⟩
  | moved c' other phase foundOther move calls =>
      rw [calls, Slots.getElem?_set foundOther]
      split
      · subst c'
        rw [found, Option.some.injEq] at foundOther
        subst other
        exact ⟨_, rfl, move.unparked set before⟩
      · exact ⟨call, found, before⟩
  | kept calls =>
      rw [calls]
      exact ⟨call, found, before⟩

theorem exec_unparked {ts} (run : (gateway cfg arith).Exec g ts g')
    (set : ∀ tr ∈ ts, tr.pre.stalled = true) (found : g.calls[c]? = some call)
    (before : call.phase.unparked = true) :
    ∃ call', g'.calls[c]? = some call' ∧ call'.phase.unparked = true := by
  induction run with
  | nil => exact ⟨call, found, before⟩
  | snoc earlier step ih =>
      obtain ⟨call', found', holds⟩ := ih fun tr member => set tr (List.mem_append_left _ member)
      have now := set _ (List.mem_append_right _ (List.mem_singleton_self _))
      exact (GatewayStep.of_next step).unparked now found' holds

theorem rejectedAtOnce_iff (set : g.stalled = true) (found : g.calls[c]? = some call) :
    RejectedAtOnce cfg arith g c ↔ call.phase.unparked = true := by
  constructor
  · intro rejected
    obtain ⟨call', found', outcome⟩ := rejected .nil (by simp) set
    rw [found, Option.some.injEq] at found'
    subst call'
    rcases outcome with ⟨retryAfter, phase⟩ | ⟨phase, -⟩
    · rw [phase]
      rfl
    · rw [phase]
      rfl
  · intro before ts g' run throughout still
    obtain ⟨call', found', holds⟩ := exec_unparked run throughout found before
    refine ⟨call', found', ?_⟩
    cases phase : call'.phase with
    | rejected retryAfter => exact .inl ⟨retryAfter, rfl⟩
    | passed =>
        right
        refine ⟨rfl, ?_⟩
        simp [nextGateway, found', phase, still]
    | delayed | cleared | admitting | dropped => simp [phase, CallPhase.unparked] at holds

end

/-- A request that arrives under the stall signal is rejected at once, while the
    signal stays set, if and only if the KV policy is off, is bypassed, has no open
    channel, or does not hold requests at the current usage. -/
theorem stall_gate_rejects (cfg : GatewayConfig) (arith : I64Arith) {g g' : Gateway} {f : FlowId}
    {body : RequestBody} {unix : Nat} {isTurnBoundary : Bool} {event : Option Event}
    (set : g.stalled = true)
    (step : (gateway cfg arith).next g (.request f body unix isTurnBoundary) = some (g', event)) :
    RejectedAtOnce cfg arith g' g.calls.length ↔
      ¬ (cfg.backpressure.kvPolicy.enabled = true ∧
        ¬ (cfg.backpressure.kvPolicy.bypassInteractive = true ∧
          g.arrivalPriority f unix isTurnBoundary = cfg.priorities.interactive) ∧
        cfg.backpressure.kvPolicy.Holds cfg.backpressure.mode g.system.snapshots.kvUsage ∧
        g.system.snapshots.closed = false) := by
  let gate := g.gateOf cfg f unix isTurnBoundary
  have parks : gate = .park ↔ _ := KvPolicyConfig.check_eq_park_iff
  rw [decide_eq_true_eq] at parks
  rw [← parks]
  cases step
  have found : (g.request cfg f body unix isTurnBoundary).calls[g.calls.length]? =
      some ⟨f, extractMaxTokens body, gate.phase g.system.now⟩ := by
    rw [Gateway.request_calls, List.getElem?_concat_length]
  have still : (g.request cfg f body unix isTurnBoundary).stalled = true := by
    rw [Gateway.request_stalled]
    exact set
  rw [rejectedAtOnce_iff still found]
  cases gate with
  | pass | park | reject => simp [KvGate.phase, CallPhase.unparked]

theorem stall_gate_rejects_by_default :
    let m := gateway .default .wrapping
    RejectedAtOnce .default .wrapping
      (m.after [.setStall true, .request ⟨"a"⟩ (.json none) 0 true]) 0 := by
  intro m
  have step : m.next (m.after [.setStall true]) (.request ⟨"a"⟩ (.json none) 0 true) =
      some (_, _) := rfl
  apply (stall_gate_rejects .default .wrapping rfl step).mpr
  rintro ⟨enabled, -⟩
  exact absurd enabled (by decide)

/-- The usage is at nine tenths when the stalled backend gets its next request, of a
    flow pinned to the agent class: the KV gate parks it, and it is not rejected. -/
theorem stall_gate_parks :
    let m := gateway .withKvPolicy .wrapping
    let actions := [.sched (.setPriority ⟨"a"⟩ 50 1), .sched (.publish (9 / 10)), .setStall true,
      .request ⟨"a"⟩ (.json none) 0 true]
    (m.trace actions).length = 4 ∧ (m.after actions).stalled = true ∧
      (m.after actions).calls.map Call.phase = [.delayed 0] ∧
      ¬ RejectedAtOnce .withKvPolicy .wrapping (m.after actions) 0 := by
  intro m actions
  have parked : (m.after actions).calls.map Call.phase = [.delayed 0] := by decide +kernel
  refine ⟨by decide +kernel, by decide +kernel, parked, ?_⟩
  intro rejected
  obtain ⟨call, found, outcome⟩ := rejected .nil (by simp) (by decide +kernel)
  have phase : ((m.after actions).calls.map Call.phase)[0]? = some call.phase := by
    rw [List.getElem?_map, found]
    rfl
  rw [parked] at phase
  simp only [List.getElem?_cons_zero, Option.some.injEq] at phase
  simp [← phase] at outcome

end TinyLlb
