import TinyLlb.Cadence
import TinyLlb.Gateway.Headers

/-! # Who set a priority

Three writers can set a flow's priority: the admin API, the `X-LLM-Priority` header and
the heuristic. The first two pin it, and a header of `auto` hands it back. Every
operation is one step here, on any flow; `lastControl` reads off the steps alone who is
in control of a flow.
-/

namespace TinyLlb

def toAsciiLowercase (b : UInt8) : UInt8 := if 65 ≤ b.toNat ∧ b.toNat ≤ 90 then b + 32 else b

def resolvePriorityToken (s : Bytes) : Option PriorityClass :=
  let token := (trim s).map toAsciiLowercase
  if token = ascii "interactive" then some .interactive
  else if token = ascii "agent" then some .agent
  else if token = ascii "background" then some .background
  else none

/-- The override that a request asks for, and whether it asks to unset one. -/
def resolvePriority (header : Option Bytes) : Option PriorityClass × Bool :=
  match (header.filter fun value => value.all HeaderMap.isVisibleAscii).map trim with
  | none => (none, false)
  | some value =>
      if value = [] then (none, false)
      else if value.map toAsciiLowercase = ascii "auto" then (none, true)
      -- An unknown value is as good as none.
      else (resolvePriorityToken value, false)

namespace FlowRegistry

def applyPriorityOverride (r : FlowRegistry) (f : FlowId) (overrideClass : Option PriorityClass)
    (unset : Bool) (classes : Priorities) : FlowRegistry :=
  r.modify f fun flow =>
    if unset then flow.setPriority classes.agent 0
    else
      match overrideClass with
      | some c => flow.setPriority (classes.value c) 1
      | none => flow

end FlowRegistry

structure PriorityState where
  registry : FlowRegistry
  cadence : CadenceRegistry

inductive PriorityAction where
  /-- `POST /flows`. -/
  | register (registration : FlowRegistration)
  /-- A request with its `X-LLM-Priority` header. -/
  | header (flowId : FlowId) (value : Option Bytes)
  | admitWithTurnBoundary (flowId : FlowId) (now : Instant) (unix : Nat) (isTurnBoundary : Bool)
  | reapCadence (unix ttl : Nat)
  /-- A flow is dropped from the registry. -/
  | reap (flowId : FlowId)

namespace PriorityState

def new (policy : PriorityPolicy) (classes : Priorities) (defaultWeight : F64) (defaultPriority : Nat) :
    PriorityState :=
  { registry := .new defaultWeight defaultPriority, cadence := .new policy classes }

/-- `admit_with_turn_boundary` up to the gates. -/
def admitWithTurnBoundary (s : PriorityState) (f : FlowId) (now : Instant) (unix : Nat)
    (isTurnBoundary : Bool) : PriorityState :=
  let flow := s.registry.getOrCreate f
  let arrived := (s.cadence.recordArrival f now unix isTurnBoundary).1
  let applied := arrived.classifyAndApply flow f unix
  { registry := s.registry.modify f fun _ => applied.2, cadence := applied.1 }

def step (s : PriorityState) : PriorityAction → PriorityState
  | .register registration => { s with registry := s.registry.register registration }
  | .header f value =>
      let resolved := resolvePriority value
      { s with
        registry := s.registry.applyPriorityOverride f resolved.1 resolved.2 s.cadence.classes }
  | .admitWithTurnBoundary f now unix isTurnBoundary =>
      s.admitWithTurnBoundary f now unix isTurnBoundary
  | .reapCadence unix ttl => { s with cadence := s.cadence.reapIdle unix ttl }
  | .reap f => { s with registry := { s.registry with flows := s.registry.flows.erase f } }

def run (s : PriorityState) (actions : List PriorityAction) : PriorityState := actions.foldl step s

end PriorityState

/-- The last of registration, class header and `auto`, with the priority it set. -/
inductive Control where
  | heuristic
  | header (priority : Nat)
  | admin (priority : Nat)
  deriving DecidableEq

/-- What `priority_source` calls it. -/
def Control.source : Control → Nat
  | heuristic => 0
  | header _ => 1
  | admin _ => 2

namespace PriorityAction

/-- Who is in control of a flow after a step. -/
def control (classes : Priorities) (f : FlowId) (before : Control) : PriorityAction → Control
  | register registration => if registration.id = f then .admin registration.priority else before
  | header g value =>
      if g = f then
        match resolvePriority value with
        | (_, true) => .heuristic
        | (some c, false) => .header (classes.value c)
        | (none, false) => before
      else before
  | admitWithTurnBoundary .. | reapCadence .. | reap .. => before

end PriorityAction

def lastControl (classes : Priorities) (f : FlowId) (actions : List PriorityAction) : Control :=
  actions.foldl (PriorityAction.control classes f) .heuristic

/-- What holds of a flow at any time: the source names whoever is in control, and a
    pinned priority is the one that was set. -/
structure Pinned (flow : Flow) (control : Control) : Prop where
  source : flow.prioritySource = control.source
  header : ∀ p, control = .header p → flow.priority = p
  admin : ∀ p, control = .admin p → flow.priority = p

section

variable {s : PriorityState} {f : FlowId} {control : Control} {classes : Priorities}

theorem Pinned.admitWithTurnBoundary (held : Pinned (s.registry.getOrCreate f) control)
    (now : Instant) (unix : Nat)
    (isTurnBoundary : Bool) :
    Pinned ((s.admitWithTurnBoundary f now unix isTurnBoundary).registry.getOrCreate f) control := by
  simp only [PriorityState.admitWithTurnBoundary, FlowRegistry.getOrCreate_modify, if_true]
  by_cases pinned : (s.registry.getOrCreate f).prioritySource ≠ 0
  · rw [CadenceRegistry.classifyAndApply_pinned pinned]
    exact held
  · have free : control.source = 0 := held.source.symm.trans (not_not.mp pinned)
    constructor
    · rw [CadenceRegistry.prioritySource_classifyAndApply]
      exact held.source
    · rintro p rfl
      cases free
    · rintro p rfl
      cases free

theorem classes_step (s : PriorityState) (action : PriorityAction) :
    (s.step action).cadence.classes = s.cadence.classes ∧
      (s.step action).cadence.policy = s.cadence.policy := by
  cases action with
  | register | header | reapCadence | reap => exact ⟨rfl, rfl⟩
  | admitWithTurnBoundary g now unix isTurnBoundary =>
      have kept := CadenceRegistry.policy_classifyAndApply
        (s.cadence.recordArrival g now unix isTurnBoundary).1 (s.registry.getOrCreate g) g unix
      exact ⟨kept.2, kept.1⟩

theorem getOrCreate_erase {r : FlowRegistry} {g : FlowId} (other : g ≠ f) :
    FlowRegistry.getOrCreate { r with flows := r.flows.erase g } f = r.getOrCreate f := by
  simp [FlowRegistry.getOrCreate, other.symm]

theorem Pinned.step {action : PriorityAction} (held : Pinned (s.registry.getOrCreate f) control)
    (kept : action ≠ .reap f) :
    Pinned ((s.step action).registry.getOrCreate f) (action.control s.cadence.classes f control) := by
  cases action with
  | reapCadence => exact held
  | register registration =>
      simp only [PriorityState.step, FlowRegistry.getOrCreate_register, PriorityAction.control]
      by_cases here : f = registration.id
      · rw [if_pos here, if_pos here.symm]
        refine ⟨rfl, ?_, ?_⟩
        · intro p same
          cases same
        · intro p same
          exact Control.admin.inj same
      · rw [if_neg here, if_neg (Ne.symm here)]
        exact held
  | reap g =>
      have other : g ≠ f := by
        rintro rfl
        exact kept rfl
      simp only [PriorityState.step, PriorityAction.control, getOrCreate_erase other]
      exact held
  | admitWithTurnBoundary g now unix isTurnBoundary =>
      by_cases here : g = f
      · subst here
        exact held.admitWithTurnBoundary now unix isTurnBoundary
      · simp only [PriorityState.step, PriorityState.admitWithTurnBoundary,
          FlowRegistry.getOrCreate_modify,
          if_neg (Ne.symm here)]
        exact held
  | header g value =>
      simp only [PriorityState.step, FlowRegistry.applyPriorityOverride,
        FlowRegistry.getOrCreate_modify, PriorityAction.control]
      by_cases here : g = f
      · subst here
        simp only [if_true]
        match resolvePriority value with
        | (_, true) => exact ⟨rfl, nofun, nofun⟩
        | (some c, false) => exact ⟨rfl, fun p same => Control.header.inj same, nofun⟩
        | (none, false) => exact held
      · simp only [if_neg here, if_neg (Ne.symm here)]
        exact held

end

/-- Every run keeps it, as long as the flow is not removed. -/
theorem pinned_run (policy : PriorityPolicy) (classes : Priorities) (defaultWeight : F64)
    (defaultPriority : Nat) {f : FlowId} {actions : List PriorityAction}
    (kept : .reap f ∉ actions) :
    let s := (PriorityState.new policy classes defaultWeight defaultPriority).run actions
    Pinned (s.registry.getOrCreate f) (lastControl classes f actions) ∧
      s.cadence.classes = classes ∧ s.cadence.policy = policy := by
  induction actions using List.reverseRecOn with
  | nil => exact ⟨⟨rfl, nofun, nofun⟩, rfl, rfl⟩
  | append_singleton actions action ih =>
      obtain ⟨held, sameClasses, samePolicy⟩ := ih fun earlier => kept (by simp [earlier])
      have last : action ≠ .reap f := by
        rintro rfl
        exact kept (by simp)
      simp only [PriorityState.run, lastControl, List.foldl_append, List.foldl_cons, List.foldl_nil]
      have next := held.step last
      have fixed := classes_step ((PriorityState.new policy classes defaultWeight defaultPriority).run
        actions) action
      rw [sameClasses] at next
      exact ⟨next, fixed.1.trans sameClasses, fixed.2.trans samePolicy⟩

theorem heuristic_of_admit {s : PriorityState} {f : FlowId} (enabled : s.cadence.policy.enabled = true)
    (free : (s.registry.getOrCreate f).prioritySource = 0) (now : Instant) (unix : Nat)
    (isTurnBoundary : Bool) :
    let after := s.admitWithTurnBoundary f now unix isTurnBoundary
    (after.registry.getOrCreate f).priority =
      (after.cadence.stateOf f).priority s.cadence.classes := by
  have present := CadenceRegistry.lookup_recordArrival s.cadence f now unix isTurnBoundary
  have on : (s.cadence.recordArrival f now unix isTurnBoundary).1.policy.enabled = true := enabled
  obtain ⟨priority, state⟩ := CadenceRegistry.classifyAndApply_free free on present unix
  simp only [PriorityState.admitWithTurnBoundary, FlowRegistry.getOrCreate_modify, if_true]
  rw [priority, state]
  rfl

/-- For every run in which the flow is not removed, with the heuristic enabled: after an
    admission the priority is the one that was pinned last, under the name of whoever
    pinned it, and that of the flow's cadence otherwise. -/
theorem priority_provenance {policy : PriorityPolicy} (enabled : policy.enabled = true)
    (classes : Priorities) (defaultWeight : F64) (defaultPriority : Nat) {f : FlowId}
    {actions : List PriorityAction} (kept : .reap f ∉ actions) (now : Instant) (unix : Nat)
    (isTurnBoundary : Bool) :
    let s := (PriorityState.new policy classes defaultWeight defaultPriority).run
      (actions ++ [.admitWithTurnBoundary f now unix isTurnBoundary])
    ∃ flow, s.registry.flows.lookup f = some flow ∧
      match lastControl classes f actions with
      | .admin p => flow.priority = p ∧ flow.prioritySource = 2
      | .header p => flow.priority = p ∧ flow.prioritySource = 1
      | .heuristic =>
          flow.prioritySource = 0 ∧ flow.priority = (s.cadence.stateOf f).priority classes := by
  have split : (PriorityState.new policy classes defaultWeight defaultPriority).run
      (actions ++ [.admitWithTurnBoundary f now unix isTurnBoundary]) =
        ((PriorityState.new policy classes defaultWeight defaultPriority).run
          actions).admitWithTurnBoundary f now unix isTurnBoundary := by
    simp only [PriorityState.run, List.foldl_append, List.foldl_cons, List.foldl_nil]
    rfl
  obtain ⟨before, sameClasses, samePolicy⟩ := pinned_run policy classes defaultWeight defaultPriority
    kept
  intro s
  simp only [s, split]
  generalize (PriorityState.new policy classes defaultWeight defaultPriority).run actions = b
    at before sameClasses samePolicy
  have held := before.admitWithTurnBoundary now unix isTurnBoundary
  have present : (b.admitWithTurnBoundary f now unix isTurnBoundary).registry.flows.lookup f =
      some ((b.admitWithTurnBoundary f now unix isTurnBoundary).registry.getOrCreate f) := by
    simp [PriorityState.admitWithTurnBoundary, FlowRegistry.modify, FlowRegistry.getOrCreate]
  refine ⟨_, present, ?_⟩
  generalize lastControl classes f actions = control at before held
  cases control with
  | admin p => exact ⟨held.admin p rfl, held.source⟩
  | header p => exact ⟨held.header p rfl, held.source⟩
  | heuristic =>
      refine ⟨held.source, ?_⟩
      have on : b.cadence.policy.enabled = true := by rw [samePolicy, enabled]
      rw [← sameClasses]
      exact heuristic_of_admit on before.source now unix isTurnBoundary

/-- A registration, and a class header after it. -/
def headerAfterRegistration : List PriorityAction :=
  [.register ⟨⟨"f"⟩, .fin 1, 7⟩, .admitWithTurnBoundary ⟨"f"⟩ 10 0 true,
    .header ⟨"f"⟩ (some (ascii " Agent"))]

theorem priority_provenance_header :
    let s := (PriorityState.new .default .default (.fin 1) 50).run
      (headerAfterRegistration ++ [.admitWithTurnBoundary ⟨"f"⟩ 20 0 false])
    ∃ flow, s.registry.flows.lookup ⟨"f"⟩ = some flow ∧ flow.priority = 50 ∧ flow.prioritySource = 1 := by
  intro s
  have kept : PriorityAction.reap ⟨"f"⟩ ∉ headerAfterRegistration := by simp [headerAfterRegistration]
  obtain ⟨flow, present, provenance⟩ := priority_provenance (rfl : PriorityPolicy.default.enabled = true)
    .default (.fin 1) 50 kept 20 0 false
  have control : lastControl .default ⟨"f"⟩ headerAfterRegistration = .header 50 := by decide +kernel
  rw [control] at provenance
  exact ⟨flow, present, provenance⟩

end TinyLlb
