import TinyLlb.CadenceHistory
import TinyLlb.Provenance

/-! # Weights and priorities from the history

What a flow is scheduled by, over whole runs of the control plane: registrations through
`POST /flows`, headers, admissions, and the two reapers that forget flows and cadences,
each on its own. After an admission, weight and priority are functions of the calls alone.
-/

namespace TinyLlb

structure RegisterFlowRequest where
  id : FlowId
  weight : F64
  priority : Nat

structure RegisterFlowResponse where
  id : FlowId
  weight : F64
  priority : Nat
  status : String
  prioritySource : Nat

/-- `POST /flows`: the status of the answer, with a text or the flow. -/
def registerHandler (s : PriorityState) (req : RegisterFlowRequest) :
    Except (Nat × String) (Nat × RegisterFlowResponse) × PriorityState :=
  if req.weight.isLe 0 then (.error (400, "weight must be greater than 0"), s)
  else if req.priority > 100 then (.error (400, "priority must be between 0 and 100"), s)
  else
    let isNew := (s.registry.flows.lookup req.id).isNone
    (.ok (if isNew then 201 else 200,
        { id := req.id, weight := req.weight, priority := req.priority
          status := if isNew then "created" else "updated", prioritySource := 2 }),
      s.step (.register ⟨req.id, req.weight, req.priority⟩))

/-- A call of the API, a request on its way to the gates, and the passes of the reapers. -/
inductive PriorityCall where
  | post (request : RegisterFlowRequest)
  | header (flowId : FlowId) (value : Option Bytes)
  | admitWithTurnBoundary (flowId : FlowId) (now : Instant) (unix : Nat) (isTurnBoundary : Bool)
  | reapCadence (unix ttl : Nat)
  | reap (flowId : FlowId)

namespace PriorityCall

/-- The step that a call comes to, unless it is refused. -/
def action : PriorityCall → Option PriorityAction
  | post req =>
      if req.weight.isLe 0 || decide (req.priority > 100) then none
      else some (.register ⟨req.id, req.weight, req.priority⟩)
  | header f value => some (.header f value)
  | admitWithTurnBoundary f now unix isTurnBoundary =>
      some (.admitWithTurnBoundary f now unix isTurnBoundary)
  | reapCadence unix ttl => some (.reapCadence unix ttl)
  | reap f => some (.reap f)

end PriorityCall

namespace PriorityState

def serve (s : PriorityState) : PriorityCall → PriorityState
  | .post req => (registerHandler s req).2
  | .header f value => s.step (.header f value)
  | .admitWithTurnBoundary f now unix isTurnBoundary =>
      s.step (.admitWithTurnBoundary f now unix isTurnBoundary)
  | .reapCadence unix ttl => s.step (.reapCadence unix ttl)
  | .reap f => s.step (.reap f)

def serveAll (s : PriorityState) (calls : List PriorityCall) : PriorityState := calls.foldl serve s

theorem serve_eq (s : PriorityState) (call : PriorityCall) :
    s.serve call = call.action.elim s s.step := by
  cases call with
  | header | admitWithTurnBoundary | reapCadence | reap => rfl
  | post req =>
      unfold serve registerHandler PriorityCall.action
      by_cases low : req.weight.isLe 0 = true
      · simp [low]
      · by_cases high : req.priority > 100
        · simp [low, high]
        · simp [low, high]

/-- A refused call leaves everything as it was. -/
theorem serveAll_eq (s : PriorityState) (calls : List PriorityCall) :
    s.serveAll calls = s.run (calls.filterMap PriorityCall.action) := by
  induction calls generalizing s with
  | nil => rfl
  | cons call rest ih =>
      have first : s.serveAll (call :: rest) = (s.serve call).serveAll rest := rfl
      rw [first, ih, serve_eq, List.filterMap_cons]
      cases call.action with
      | none => rfl
      | some action => rfl

end PriorityState

namespace PriorityAction

/-- The flow is dropped from the registry. -/
def reaps (f : FlowId) : PriorityAction → Bool
  | reap g => decide (g = f)
  | register _ | header .. | admitWithTurnBoundary .. | reapCadence .. => false

/-- The flow is in the registry afterwards. -/
def touches (f : FlowId) : PriorityAction → Bool
  | register registration => decide (registration.id = f)
  | header g _ => decide (g = f)
  | admitWithTurnBoundary g .. => decide (g = f)
  | reapCadence .. | reap _ => false

/-- The weight of a flow after a step. -/
def weigh (f : FlowId) (before : F64) : PriorityAction → F64
  | register registration => if registration.id = f then registration.weight else before
  | header .. | admitWithTurnBoundary .. | reapCadence .. | reap _ => before

/-- The arrivals that the cadence of a flow remembers after a step. -/
def remember (f : FlowId) (history : List Arrival) : PriorityAction → List Arrival
  | admitWithTurnBoundary g now unix isTurnBoundary =>
      if g = f then history ++ [⟨now, unix, isTurnBoundary⟩] else history
  | reapCadence unix ttl =>
      if history.getLast?.any fun a => decide (a.unix < unix - ttl) then [] else history
  | register _ | header .. | reap _ => history

end PriorityAction

/-- The steps since the flow was last dropped. -/
def sinceReap (f : FlowId) (actions : List PriorityAction) : List PriorityAction :=
  actions.rtakeWhile fun action => !action.reaps f

/-- The weight that was registered last. -/
def lastWeight (f : FlowId) (defaultWeight : F64) (actions : List PriorityAction) : F64 :=
  actions.foldl (PriorityAction.weigh f) defaultWeight

/-- The arrivals since the cadence of the flow was last forgotten. -/
def remembered (f : FlowId) (actions : List PriorityAction) : List Arrival :=
  actions.foldl (PriorityAction.remember f) []

section

variable {f : FlowId} {actions : List PriorityAction} {action : PriorityAction}

theorem sinceReap_of_reaps (reaps : action.reaps f = true) : sinceReap f (actions ++ [action]) = [] :=
  List.rtakeWhile_concat_neg _ _ _ (by simp [reaps])

theorem sinceReap_of_kept (kept : action.reaps f = false) :
    sinceReap f (actions ++ [action]) = sinceReap f actions ++ [action] :=
  List.rtakeWhile_concat_pos _ _ _ (by simp [kept])

theorem remembered_snoc :
    remembered f (actions ++ [action]) = action.remember f (remembered f actions) := by
  simp [remembered]

end

/-- An entry for the arrivals that are remembered, and none without them. -/
inductive Remembers (policy : PriorityPolicy) : Option Cadence → List Arrival → Prop where
  | nothing : Remembers policy none []
  | entry {cadence : Cadence} {history : List Arrival} {last : Arrival}
      (reflects : cadence.Reflects policy (history ++ [last])) (seen : cadence.lastSeen = last.unix) :
      Remembers policy (some cadence) (history ++ [last])

/-- What the registries hold of a flow after these steps. -/
structure Recalls (policy : PriorityPolicy) (classes : Priorities) (defaultWeight : F64) (f : FlowId)
    (actions : List PriorityAction) (s : PriorityState) : Prop where
  pinned : Pinned (s.registry.getOrCreate f) (lastControl classes f (sinceReap f actions))
  weight : (s.registry.getOrCreate f).weight = lastWeight f defaultWeight (sinceReap f actions)
  known : (s.registry.flows.lookup f).isSome = (sinceReap f actions).any (PriorityAction.touches f)
  cadence : Remembers policy (s.cadence.inner.lookup f) (remembered f actions)
  policy : s.cadence.policy = policy
  classes : s.cadence.classes = classes
  defaults : s.registry.defaultWeight = defaultWeight

section

variable {cfg : Config} {policy : PriorityPolicy} {classes : Priorities} {defaultWeight : F64}
  {f : FlowId} {actions : List PriorityAction} {action : PriorityAction} {s : PriorityState}

theorem Remembers.reflects (positive : 0 < policy.agenticSuspectedThreshold.toNat)
    (ordered : policy.agenticSuspectedThreshold.toNat < policy.agenticConfirmedThreshold.toNat)
    {found : Option Cadence} {history : List Arrival} (remembers : Remembers policy found history)
    (unix : Nat) : (found.getD (.new unix)).Reflects policy history := by
  cases remembers with
  | nothing => exact .new positive ordered unix
  | entry reflects => exact reflects

theorem Remembers.arrive (positive : 0 < policy.agenticSuspectedThreshold.toNat)
    (ordered : policy.agenticSuspectedThreshold.toNat < policy.agenticConfirmedThreshold.toNat)
    {found : Option Cadence} {history : List Arrival} (remembers : Remembers policy found history)
    (a : Arrival) :
    Remembers policy
      (some ((found.getD (.new a.unix)).arrive policy a.now a.unix a.isTurnBoundary).1)
      (history ++ [a]) := by
  have reflects := remembers.reflects positive ordered a.unix
  refine .entry (reflects.arrive positive ordered a) ?_
  rw [Cadence.arrive_eq reflects.last]

theorem CadenceRegistry.lookup_reapIdle (r : CadenceRegistry) (unix ttl : Nat) :
    (r.reapIdle unix ttl).inner.lookup f =
      (r.inner.lookup f).filter fun cadence => !decide (cadence.lastSeen < unix - ttl) := by
  unfold reapIdle
  simp only [Assoc.lookup_eraseAll, Assoc.mem_keysWhere_iff]
  cases found : r.inner.lookup f with
  | none => simp
  | some cadence =>
      by_cases stale : cadence.lastSeen < unix - ttl
      · simp [Option.filter, stale]
      · simp [Option.filter, stale]

theorem CadenceRegistry.weight_classifyAndApply (r : CadenceRegistry) (flow : Flow) (f : FlowId)
    (unix : Nat) : (r.classifyAndApply flow f unix).2.weight = flow.weight := by
  unfold classifyAndApply
  split
  · rfl
  · split <;> rfl

theorem weight_step (kept : action.reaps f = false) :
    ((s.step action).registry.getOrCreate f).weight =
      action.weigh f (s.registry.getOrCreate f).weight := by
  cases action with
  | reapCadence => rfl
  | register registration =>
      simp only [PriorityState.step, FlowRegistry.getOrCreate_register, PriorityAction.weigh]
      by_cases here : f = registration.id
      · simp [here]
      · simp [here, Ne.symm here]
  | header g value =>
      simp only [PriorityState.step, FlowRegistry.applyPriorityOverride,
        FlowRegistry.getOrCreate_modify, PriorityAction.weigh]
      by_cases here : f = g
      · subst here
        rw [if_pos rfl]
        split
        · rfl
        · split <;> rfl
      · rw [if_neg here]
  | admitWithTurnBoundary g now unix isTurnBoundary =>
      simp only [PriorityState.step, PriorityState.admitWithTurnBoundary,
        FlowRegistry.getOrCreate_modify, PriorityAction.weigh]
      by_cases here : f = g
      · subst here
        rw [if_pos rfl, CadenceRegistry.weight_classifyAndApply]
      · rw [if_neg here]
  | reap g =>
      have other : g ≠ f := by simpa [PriorityAction.reaps] using kept
      simp only [PriorityState.step, getOrCreate_erase other, PriorityAction.weigh]

theorem known_step (kept : action.reaps f = false) :
    ((s.step action).registry.flows.lookup f).isSome =
      ((s.registry.flows.lookup f).isSome || action.touches f) := by
  have written : ∀ (g : FlowId) (flow : Flow),
      ((s.registry.flows.insert g flow).lookup f).isSome =
        ((s.registry.flows.lookup f).isSome || decide (g = f)) := by
    intro g flow
    rw [Assoc.lookup_insert]
    by_cases here : f = g
    · simp [here]
    · simp [here, Ne.symm here]
  cases action with
  | reapCadence => simp [PriorityState.step, PriorityAction.touches]
  | register registration => exact written _ _
  | header g value => exact written _ _
  | admitWithTurnBoundary g now unix isTurnBoundary => exact written _ _
  | reap g =>
      have other : g ≠ f := by simpa [PriorityAction.reaps] using kept
      simp [PriorityState.step, PriorityAction.touches, other.symm]

theorem lookup_afterAdmission (g : FlowId) (now : Instant) (unix : Nat) (isTurnBoundary : Bool) :
    (s.step (.admitWithTurnBoundary g now unix isTurnBoundary)).cadence.inner.lookup f =
      if f = g then
        some ((s.cadence.entry f unix).arrive s.cadence.policy now unix isTurnBoundary).1
      else s.cadence.inner.lookup f := by
  simp only [PriorityState.step, PriorityState.admitWithTurnBoundary]
  have arrived := s.cadence.lookup_recordArrival g now unix isTurnBoundary
  have others : (s.cadence.recordArrival g now unix isTurnBoundary).1.inner.lookup f =
      if f = g then some ((s.cadence.entry f unix).arrive s.cadence.policy now unix isTurnBoundary).1
      else s.cadence.inner.lookup f := by
    unfold CadenceRegistry.recordArrival
    rw [Assoc.lookup_insert]
    by_cases here : f = g
    · simp [here]
    · simp [here]
  unfold CadenceRegistry.classifyAndApply
  split
  · exact others
  · split
    · exact others
    · rw [Assoc.lookup_insert, ← others]
      split
      · rename_i here
        subst here
        rw [arrived, CadenceRegistry.entry, arrived]
        rfl
      · rfl

theorem Remembers.step (positive : 0 < policy.agenticSuspectedThreshold.toNat)
    (ordered : policy.agenticSuspectedThreshold.toNat < policy.agenticConfirmedThreshold.toNat)
    (same : s.cadence.policy = policy)
    {history : List Arrival} (held : Remembers policy (s.cadence.inner.lookup f) history) :
    Remembers policy ((s.step action).cadence.inner.lookup f) (action.remember f history) := by
  cases action with
  | register | header | reap => exact held
  | admitWithTurnBoundary g now unix isTurnBoundary =>
      rw [lookup_afterAdmission]
      simp only [PriorityAction.remember]
      by_cases here : g = f
      · subst here
        rw [if_pos rfl, if_pos rfl, same]
        exact held.arrive positive ordered ⟨now, unix, isTurnBoundary⟩
      · rw [if_neg here, if_neg (Ne.symm here)]
        exact held
  | reapCadence unix ttl =>
      change Remembers policy ((s.cadence.reapIdle unix ttl).inner.lookup f) _
      rw [CadenceRegistry.lookup_reapIdle]
      simp only [PriorityAction.remember]
      generalize s.cadence.inner.lookup f = found at held
      cases held with
      | nothing => exact .nothing
      | @entry cadence history last reflects seen =>
          simp only [List.getLast?_concat, Option.any_some, Option.filter_some, seen]
          by_cases stale : last.unix < unix - ttl
          · simp only [stale, decide_true, Bool.not_true, if_true]
            exact .nothing
          · simp only [stale, decide_false, Bool.not_false, if_true]
            exact .entry reflects seen

theorem Pinned.unpinned {flow : Flow} (source : flow.prioritySource = 0) : Pinned flow .heuristic where
  source := source
  header p same := by cases same
  admin p same := by cases same

theorem Recalls.start (policy : PriorityPolicy) (classes : Priorities) (defaultWeight : F64)
    (defaultPriority : Nat) (f : FlowId) :
    Recalls policy classes defaultWeight f []
      (PriorityState.new policy classes defaultWeight defaultPriority) where
  pinned := .unpinned rfl
  weight := rfl
  known := rfl
  cadence := .nothing
  policy := rfl
  classes := rfl
  defaults := rfl

theorem Recalls.step (positive : 0 < policy.agenticSuspectedThreshold.toNat)
    (ordered : policy.agenticSuspectedThreshold.toNat < policy.agenticConfirmedThreshold.toNat)
    (held : Recalls policy classes defaultWeight f actions s) :
    Recalls policy classes defaultWeight f (actions ++ [action]) (s.step action) := by
  have fixed := classes_step s action
  have default_ : (s.step action).registry.defaultWeight = defaultWeight := by
    rw [← held.defaults]
    cases action <;> rfl
  have cadence : Remembers policy ((s.step action).cadence.inner.lookup f)
      (action.remember f (remembered f actions)) := held.cadence.step positive ordered held.policy
  rw [← remembered_snoc] at cadence
  cases reaps : action.reaps f with
  | true =>
      have dropped : s.step action = { s with
          registry := { s.registry with flows := s.registry.flows.erase f } } := by
        cases action with
        | reap g =>
            obtain rfl : g = f := by simpa [PriorityAction.reaps] using reaps
            rfl
        | register | header | admitWithTurnBoundary | reapCadence => cases reaps
      refine ⟨?_, ?_, ?_, cadence, fixed.2.trans held.policy, fixed.1.trans held.classes, default_⟩
      · rw [sinceReap_of_reaps reaps, dropped]
        simp only [FlowRegistry.getOrCreate, Assoc.lookup_erase, if_pos]
        exact .unpinned rfl
      · rw [sinceReap_of_reaps reaps, dropped]
        simp only [FlowRegistry.getOrCreate, Assoc.lookup_erase, if_pos]
        exact held.defaults
      · rw [sinceReap_of_reaps reaps, dropped]
        simp
  | false =>
      have last : action ≠ .reap f := by
        rintro rfl
        simp [PriorityAction.reaps] at reaps
      have since : sinceReap f (actions ++ [action]) = sinceReap f actions ++ [action] :=
        sinceReap_of_kept reaps
      refine ⟨?_, ?_, ?_, cadence, fixed.2.trans held.policy, fixed.1.trans held.classes, default_⟩
      · rw [since, lastControl, List.foldl_append, ← lastControl, ← held.classes]
        have pinned := held.pinned
        rw [← held.classes] at pinned
        exact pinned.step last
      · have weight := held.weight
        unfold lastWeight at weight ⊢
        rw [since, List.foldl_append, ← weight]
        exact weight_step reaps
      · rw [since, List.any_append, ← held.known, known_step reaps]
        simp

end

section

variable {cfg : Config} {policy : PriorityPolicy} {classes : Priorities} {f : FlowId}

/-- The steps that the calls come to. -/
def stepsOf (calls : List PriorityCall) : List PriorityAction := calls.filterMap PriorityCall.action

theorem recalls_run (positive : 0 < policy.agenticSuspectedThreshold.toNat)
    (ordered : policy.agenticSuspectedThreshold.toNat < policy.agenticConfirmedThreshold.toNat)
    (defaultWeight : F64) (defaultPriority : Nat) (calls : List PriorityCall) :
    Recalls policy classes defaultWeight f (stepsOf calls)
      ((PriorityState.new policy classes defaultWeight defaultPriority).serveAll calls) := by
  rw [PriorityState.serveAll_eq, ← stepsOf]
  generalize stepsOf calls = actions
  induction actions using List.reverseRecOn with
  | nil => exact .start policy classes defaultWeight defaultPriority f
  | append_singleton actions action ih =>
      unfold PriorityState.run at ih ⊢
      rw [List.foldl_append, List.foldl_cons, List.foldl_nil]
      exact ih.step positive ordered

theorem register_inRange {calls : List PriorityCall} {registration : FlowRegistration}
    (member : .register registration ∈ stepsOf calls) :
    registration.weight.isLe 0 = false ∧ registration.priority ≤ 100 := by
  obtain ⟨call, -, action⟩ := List.mem_filterMap.mp member
  cases call with
  | header | admitWithTurnBoundary | reapCadence | reap =>
      simp [PriorityCall.action] at action
  | post req =>
      simp only [PriorityCall.action] at action
      split at action
      · cases action
      · rename_i fine
        obtain rfl := PriorityAction.register.inj (Option.some.inj action)
        simpa using fine

theorem lastWeight_positive {defaultWeight : F64} (positive : defaultWeight.isLe 0 = false)
    (actions : List PriorityAction)
    (inRange : ∀ registration, .register registration ∈ actions → registration.weight.isLe 0 = false) :
    (lastWeight f defaultWeight actions).isLe 0 = false := by
  induction actions generalizing defaultWeight with
  | nil => exact positive
  | cons action rest ih =>
      unfold lastWeight
      rw [List.foldl_cons]
      refine ih ?_ fun registration member => inRange registration (List.mem_cons_of_mem _ member)
      cases action with
      | header | admitWithTurnBoundary | reapCadence | reap => exact positive
      | register registration =>
          simp only [PriorityAction.weigh]
          split
          · exact inRange registration List.mem_cons_self
          · exact positive

theorem lastControl_inRange {p : Nat} (actions : List PriorityAction)
    (inRange : ∀ registration, .register registration ∈ actions → registration.priority ≤ 100)
    (admin : lastControl classes f actions = .admin p) : p ≤ 100 := by
  induction actions using List.reverseRecOn with
  | nil => cases admin
  | append_singleton actions action ih =>
      have before := ih fun registration member => inRange registration (by simp [member])
      unfold lastControl at admin before
      rw [List.foldl_append, List.foldl_cons, List.foldl_nil] at admin
      generalize List.foldl (PriorityAction.control classes f) .heuristic actions = control
        at admin before
      cases action with
      | admitWithTurnBoundary | reapCadence | reap => exact before admin
      | register registration =>
          simp only [PriorityAction.control] at admin
          split at admin
          · obtain rfl := Control.admin.inj admin
            exact inRange registration (by simp)
          · exact before admin
      | header g value =>
          simp only [PriorityAction.control] at admin
          split at admin
          · split at admin
            · cases admin
            · cases admin
            · exact before admin
          · exact before admin

/-- What a flow is scheduled by after these steps. -/
structure Governed (cfg : Config) (classes : Priorities) (f : FlowId) (actions : List PriorityAction)
    (flow : Flow) : Prop where
  weight : flow.weight = lastWeight f cfg.flows.defaultWeight (sinceReap f actions)
  positive : flow.weight.isLe 0 = false
  /-- The priority is the one that was pinned last, and otherwise the class of the
      arrivals that are remembered. -/
  priority : match lastControl classes f (sinceReap f actions) with
    | .admin p => flow.priority = p ∧ p ≤ 100 ∧ flow.prioritySource = 2
    | .header p => flow.priority = p ∧ flow.prioritySource = 1
    | .heuristic =>
        let kinds := kindsOf cfg.priorityPolicy (remembered f actions)
        flow.prioritySource = 0 ∧ ∃ longest,
          Streak.IsLongest ArrivalKind.isContinuous (ArrivalKind.sinceIdle kinds) longest ∧
            flow.priority = (CadenceState.ofStreak cfg.priorityPolicy longest
              (decide (.idleChunk ∈ kinds))).priority classes

theorem Config.defaultWeight_of_validate (accepted : cfg.validate = .ok ()) :
    cfg.flows.defaultWeight.isLe 0 = false := by
  have basics := (sections_of_validate accepted).1
  simp only [validateBasics, andThen_eq_ok, bail_eq_ok] at basics
  exact basics.2.2.2.1

/-- Where the heuristic has set the priority of a flow that it controls, the calls say all. -/
theorem Recalls.governed {actions : List PriorityAction} {s : PriorityState} {flow : Flow}
    (held : Recalls cfg.priorityPolicy classes cfg.flows.defaultWeight f actions s)
    (accepted : cfg.validate = .ok ())
    (inRange : ∀ registration, .register registration ∈ actions →
      registration.weight.isLe 0 = false ∧ registration.priority ≤ 100)
    (present : s.registry.flows.lookup f = some flow)
    (heuristic : flow.prioritySource = 0 →
      flow.priority = (s.cadence.stateOf f).priority classes) : Governed cfg classes f actions flow := by
  have row : s.registry.getOrCreate f = flow := by simp [FlowRegistry.getOrCreate, present]
  have since : ∀ registration, .register registration ∈ sinceReap f actions →
      registration.weight.isLe 0 = false ∧ registration.priority ≤ 100 :=
    fun registration member => inRange registration ((List.rtakeWhile_suffix _ _).mem member)
  have weight := held.weight
  have pinned := held.pinned
  rw [row] at weight pinned
  refine ⟨weight, ?_, ?_⟩
  · rw [weight]
    exact lastWeight_positive (Config.defaultWeight_of_validate accepted) _
      fun registration member => (since registration member).1
  · cases control : lastControl classes f (sinceReap f actions) with
    | admin p =>
        rw [control] at pinned
        exact ⟨pinned.admin p rfl, lastControl_inRange _ (fun registration member =>
          (since registration member).2) control, pinned.source⟩
    | header p =>
        rw [control] at pinned
        exact ⟨pinned.header p rfl, pinned.source⟩
    | heuristic =>
        rw [control] at pinned
        obtain ⟨positive, ordered⟩ := Config.thresholds_of_validate accepted
        obtain ⟨longest, streak, state⟩ := (held.cadence.reflects positive ordered 0).state
        refine ⟨pinned.source, longest, streak, ?_⟩
        rw [heuristic pinned.source, CadenceRegistry.stateOf_eq 0, ← state]
        rfl

/-- For every accepted configuration with the heuristic on and every run of registrations,
    headers, admissions and reapings: the admitted flow is governed by the calls. A
    registration creates exactly the flows that no call has touched since they were
    dropped, one that is refused leaves everything as it was and could be left out of
    the run, and there is a cadence exactly for the flows with arrivals that are
    remembered. -/
theorem priorities_follow_history (accepted : cfg.validate = .ok ())
    (enabled : cfg.priorityPolicy.enabled = true) (classes : Priorities) (f : FlowId)
    (calls : List PriorityCall) (now : Instant) (unix : Nat) (isTurnBoundary : Bool) :
    let start := PriorityState.new cfg.priorityPolicy classes cfg.flows.defaultWeight
      cfg.flows.defaultPriority
    let admitted := calls ++ [.admitWithTurnBoundary f now unix isTurnBoundary]
    (∃ flow, (start.serveAll admitted).registry.flows.lookup f = some flow ∧
        Governed cfg classes f (stepsOf admitted) flow) ∧
      (∀ req status response, (registerHandler (start.serveAll calls) req).1 = .ok (status, response) →
        req.id = f →
          status = if (sinceReap f (stepsOf calls)).any (PriorityAction.touches f) then 200 else 201) ∧
      (∀ req error, (registerHandler (start.serveAll calls) req).1 = .error error →
        (registerHandler (start.serveAll calls) req).2 = start.serveAll calls) ∧
      start.serveAll calls = start.run (stepsOf calls) ∧
      ((start.serveAll calls).cadence.inner.lookup f = none ↔ remembered f (stepsOf calls) = []) := by
  obtain ⟨positive, ordered⟩ := Config.thresholds_of_validate accepted
  intro start admitted
  have before : Recalls cfg.priorityPolicy classes cfg.flows.defaultWeight f (stepsOf calls)
      (start.serveAll calls) := recalls_run positive ordered _ _ calls
  have after : Recalls cfg.priorityPolicy classes cfg.flows.defaultWeight f (stepsOf admitted)
      (start.serveAll admitted) := recalls_run positive ordered _ _ admitted
  refine ⟨?_, ?_, ?_, start.serveAll_eq calls, ?_⟩
  · have last : start.serveAll admitted =
        (start.serveAll calls).admitWithTurnBoundary f now unix isTurnBoundary := by
      simp only [admitted, PriorityState.serveAll, List.foldl_append, List.foldl_cons, List.foldl_nil]
      rfl
    obtain ⟨flow, present⟩ : ∃ flow, (start.serveAll admitted).registry.flows.lookup f = some flow := by
      rw [last]
      simp [PriorityState.admitWithTurnBoundary, FlowRegistry.modify]
    have row : (start.serveAll admitted).registry.getOrCreate f = flow := by
      simp [FlowRegistry.getOrCreate, present]
    refine ⟨flow, present, after.governed accepted (fun _ => register_inRange) present ?_⟩
    intro free
    have source : ((start.serveAll calls).registry.getOrCreate f).prioritySource = 0 := by
      rw [← free, ← row, last]
      simp only [PriorityState.admitWithTurnBoundary, FlowRegistry.getOrCreate_modify, if_true,
        CadenceRegistry.prioritySource_classifyAndApply]
    have on : (start.serveAll calls).cadence.policy.enabled = true := by rw [before.policy, enabled]
    have written := heuristic_of_admit on source now unix isTurnBoundary
    simp only [← last, row, before.classes] at written
    exact written
  · intro req status response answered here
    subst here
    rw [← before.known]
    unfold registerHandler at answered
    split at answered
    · cases answered
    · split at answered
      · cases answered
      · obtain ⟨same, -⟩ := Prod.mk.inj (Except.ok.inj answered)
        rw [← same]
        cases (start.serveAll calls).registry.flows.lookup req.id <;> rfl
  · intro req error refused
    unfold registerHandler at refused ⊢
    split
    · rfl
    · rename_i fine
      rw [if_neg fine] at refused
      split
      · rfl
      · rename_i inRange
        rw [if_neg inRange] at refused
        cases refused
  · have remembers := before.cadence
    generalize (start.serveAll calls).cadence.inner.lookup f = found at remembers ⊢
    generalize remembered f (stepsOf calls) = history at remembers ⊢
    cases remembers with
    | nothing => simp
    | entry => simp

end

/-- A registration that is reaped with the flow's cadence, and a request after a refused
    registration. -/
def registeredAndReaped : List PriorityCall :=
  [.post ⟨⟨"f"⟩, .fin 3, 7⟩, .admitWithTurnBoundary ⟨"f"⟩ 0 100 true, .reap ⟨"f"⟩,
    .reapCadence 800 600, .post ⟨⟨"f"⟩, .fin 0, 7⟩]

theorem priorities_follow_history_reaped :
    let start := PriorityState.new Config.default.priorityPolicy .default (.fin 1) 50
    let admitted := registeredAndReaped ++ [.admitWithTurnBoundary ⟨"f"⟩ 900000000000 900 false]
    ∃ flow, (start.serveAll admitted).registry.flows.lookup ⟨"f"⟩ = some flow ∧ flow.weight = .fin 1 ∧
      flow.prioritySource = 0 ∧ remembered ⟨"f"⟩ (stepsOf admitted) = [⟨900000000000, 900, false⟩] := by
  intro start admitted
  obtain ⟨⟨flow, present, governed⟩, -⟩ := priorities_follow_history Config.validate_default rfl
    .default ⟨"f"⟩ registeredAndReaped 900000000000 900 false
  have weight : lastWeight ⟨"f"⟩ (.fin 1) (sinceReap ⟨"f"⟩ (stepsOf admitted)) = .fin 1 := by
    decide +kernel
  have control : lastControl .default ⟨"f"⟩ (sinceReap ⟨"f"⟩ (stepsOf admitted)) = .heuristic := by
    decide +kernel
  have priority := governed.priority
  rw [control] at priority
  exact ⟨flow, present, governed.weight.trans weight, priority.1, rfl⟩

end TinyLlb
