import TinyLlb.Scheduler.Representation

/-! # What one selection round does

`trySelect` is described by five outcomes. Later proofs about runs use these and
never unfold the selection itself.
-/

namespace TinyLlb

open TrySelect

/-- The head of `f` left its queue with a permit; `f` goes to the back of the
    cursor if requests remain and leaves it otherwise. -/
structure Served (s s' : DrrState) (f : FlowId) (p : Pending) (rest : List Pending) : Prop where
  head : s.queue f = p :: rest
  lookup : ∀ g, s'.waiting.lookup g =
    if g = f then (if rest = [] then none else some rest) else s.waiting.lookup g
  cursor : s'.rrCursor =
    if rest = [] then Cursor.retire f s.rrCursor else Cursor.retire f s.rrCursor ++ [f]
  permits : s'.availablePermits + 1 = s.availablePermits
  budget : s'.maxPermits = s.maxPermits
  nextId : s'.nextPendingId = s.nextPendingId

namespace Served

variable {s s' : DrrState} {f : FlowId} {p : Pending} {rest : List Pending}

theorem queue (served : Served s s' f p rest) (g : FlowId) :
    s'.queue g = if g = f then rest else s.queue g := by
  simp only [DrrState.queue, served.lookup]
  by_cases same : g = f
  · by_cases last : rest = [] <;> simp [same, last]
  · simp [same]

theorem mem_cursor (served : Served s s' f p rest) (g : FlowId) :
    g ∈ s'.rrCursor ↔ if g = f then rest ≠ [] else g ∈ s.rrCursor := by
  rw [served.cursor]
  by_cases same : g = f
  · by_cases last : rest = [] <;> simp [same, last]
  · by_cases last : rest = [] <;> simp [same, last]

theorem repInv (served : Served s s' f p rest) (inv : RepInv s) : RepInv s' := by
  have sub : ∀ g, (s'.queue g).Sublist (s.queue g) := by
    intro g
    rw [served.queue]
    split
    · subst g
      rw [served.head]
      exact List.sublist_cons_self _ _
    · exact List.Sublist.refl _
  refine ⟨?_, ?_, ?_, ?_, ?_, ?_⟩
  · rw [served.cursor]
    split
    · exact Cursor.nodup_retire inv.nodup
    · exact Cursor.nodup_append_self (Cursor.nodup_retire inv.nodup) Cursor.notMem_retire
  · intro g
    rw [served.mem_cursor, Assoc.mem_iff_lookup, served.lookup]
    split
    · by_cases last : rest = [] <;> simp [last]
    · rw [inv.keys, Assoc.mem_iff_lookup]
  · intro g member
    rw [Assoc.mem_iff_lookup, served.lookup] at member
    rw [served.queue]
    split at member
    · rename_i same
      by_cases last : rest = []
      · simp [last] at member
      · simpa [same] using last
    · rename_i other
      simpa [other] using inv.nonempty g (Assoc.mem_iff_lookup.mpr member)
  · intro g q member
    rw [served.nextId]
    exact inv.below g q ((sub g).subset member)
  · intro g
    exact (inv.sorted g).sublist ((sub g).map _)
  · intro g h different q hq r hr
    exact inv.apart g h different q ((sub g).subset hq) r ((sub h).subset hr)

end Served

variable {env : SelectEnv} {registry : FlowRegistry}

/-- `f` passes phase 2: it stands in the cursor with a weight of at least 1 and
    its raised deficit covers its head. -/
def Eligible (env : SelectEnv) (registry : FlowRegistry) (s : DrrState) (f : FlowId) : Prop :=
  f ∈ s.rrCursor ∧ affordable env registry s.waiting s.deficit f = true

/-- Deficits after phase 2. -/
def raised (env : SelectEnv) (registry : FlowRegistry) (s : DrrState) (f : FlowId) : Option Int :=
  if f ∈ s.rrCursor ∧ 0 < (registry.getOrCreate f).truncWeight then
    some (raise env registry s.deficit f)
  else s.deficit.lookup f

/-- `f` wins phase 3 over `g`: higher priority, or the same and no later in the
    cursor. -/
def Precedes (registry : FlowRegistry) (s : DrrState) (f g : FlowId) : Prop :=
  (registry.getOrCreate g).priority < (registry.getOrCreate f).priority ∨
    (registry.getOrCreate g).priority = (registry.getOrCreate f).priority ∧
      ∀ i j : Nat, s.rrCursor[i]? = some f → s.rrCursor[j]? = some g → i ≤ j

inductive RoundSpec (env : SelectEnv) (registry : FlowRegistry) (s : DrrState) : Round → Prop where
  | atCap (full : env.cap ≤ s.outstanding) :
      RoundSpec env registry s ⟨none, false, none, s, registry⟩
  | nobody (under : s.outstanding < env.cap) (empty : s.rrCursor = []) :
      RoundSpec env registry s ⟨none, false, none, s, registry⟩
  | forced {f wait p rest s'} (under : s.outstanding < env.cap)
      (starved : firstStarved env registry s = some (f, wait))
      (served : Served s s' f p rest) (deficit : s'.deficit = s.deficit) :
      RoundSpec env registry s
        ⟨some ⟨f, p, p.workUnit⟩, true, some (f, wait), s', debit env registry f p⟩
  | regular {f p rest s'} (under : s.outstanding < env.cap)
      (calm : firstStarved env registry s = none)
      (eligible : Eligible env registry s f)
      (best : env.kvBias.weight env.kvBias.pressure ≤ 0 →
        ∀ g, Eligible env registry s g → Precedes registry s f g)
      (served : Served s s' f p rest)
      (deficit : ∀ g, s'.deficit.lookup g = if g = f then none else raised env registry s g) :
      RoundSpec env registry s
        ⟨some ⟨f, p, p.workUnit⟩, true, none, s', debit env registry f p⟩
  | barren {credited deficit'} (under : s.outstanding < env.cap) (some_ : s.rrCursor ≠ [])
      (calm : firstStarved env registry s = none)
      (ineligible : ∀ f, ¬ Eligible env registry s f)
      (flag : credited = true ↔ ∃ f ∈ s.rrCursor, 0 < (registry.getOrCreate f).truncWeight)
      (deficit : ∀ g, deficit'.lookup g = raised env registry s g) :
      RoundSpec env registry s
        ⟨none, credited, none,
          { s with deficit := deficit', rrCursor := Cursor.rotate s.rrCursor }, registry⟩

theorem popFront_of_queue {s : DrrState} {f : FlowId} {p rest} (h : s.queue f = p :: rest) :
    popFront s.waiting f = some (p, s.waiting.insert f rest) := by
  simp only [popFront, DrrState.lookup_of_queue_cons h]

theorem grant_spec (env : SelectEnv) (registry : FlowRegistry) {s : DrrState} {f : FlowId} {p rest}
    (head : s.queue f = p :: rest) (permit : 1 ≤ s.availablePermits) (deficit : Assoc FlowId Int) :
    ∃ s', grant env registry { s with waiting := s.waiting.insert f rest, deficit } f p =
        .ok (s', debit env registry f p) ∧
      Served s s' f p rest ∧ s'.deficit = deficit := by
  have popped : (s.waiting.insert f rest).lookup f = some rest := AList.lookup_insert _
  unfold grant
  simp only [popped, Option.all_some, checkedSub, permit, if_true]
  refine ⟨_, rfl, ⟨head, ?_, ?_, ?_, rfl, rfl⟩, rfl⟩
  · intro g
    by_cases last : rest = []
    · simp only [last, List.isEmpty_nil, if_true, Assoc.lookup_erase, Assoc.lookup_insert]
      split <;> rfl
    · simp [last, Assoc.lookup_insert]
  · by_cases last : rest = []
    · simp [last, hasWaiting]
    · simp [last, hasWaiting, popped]
  · simp only
    omega

theorem mem_of_firstStarved {s : DrrState} {f : FlowId} {wait}
    (h : firstStarved env registry s = some (f, wait)) :
    f ∈ s.rrCursor ∧
      isStarved (registry.getOrCreate f) env.now env.starvationTimeout = some wait := by
  obtain ⟨g, member, found⟩ := List.exists_of_findSome?_eq_some h
  obtain ⟨w, starved, same⟩ := Option.map_eq_some_iff.mp found
  simp only [Prod.mk.injEq] at same
  obtain ⟨rfl, rfl⟩ := same
  exact ⟨(List.mem_filter.mp member).1, starved⟩

theorem forceSelect_spec (env : SelectEnv) (registry : FlowRegistry) {s : DrrState} {f : FlowId}
    {p rest} (wait : Duration)
    (head : s.queue f = p :: rest) (permit : 1 ≤ s.availablePermits) :
    ∃ s', forceSelect env registry s f wait =
        .ok ⟨some ⟨f, p, p.workUnit⟩, true, some (f, wait), s', debit env registry f p⟩ ∧
      Served s s' f p rest ∧ s'.deficit = s.deficit := by
  obtain ⟨s', granted, served, deficit⟩ :=
    grant_spec env registry head permit s.deficit
  refine ⟨s', ?_, served, deficit⟩
  simp only [forceSelect, popFront_of_queue head, granted]

/-- One candidate for each entry, scored by its cursor index. -/
structure Built (registry : FlowRegistry) (entries : List (FlowId × Nat))
    (cands : List FlowCandidate) : Prop where
  fromEntry : ∀ c ∈ cands, ∃ e ∈ entries, c.flowId = e.1 ∧
    c.priority = (registry.getOrCreate e.1).priority ∧ c.baseScore = (e.2 : ℚ)
  toCandidate : ∀ e ∈ entries, ∃ c ∈ cands, c.flowId = e.1 ∧
    c.priority = (registry.getOrCreate e.1).priority ∧ c.baseScore = (e.2 : ℚ)

theorem candidates_spec (env : SelectEnv) (registry : FlowRegistry) {waiting : Waiting}
    (entries : List (FlowId × Nat))
    (heads : ∀ e ∈ entries, ∃ p rest, waiting.lookup e.1 = some (p :: rest)) :
    ∃ cands, candidates env registry waiting entries = .ok cands ∧
      Built registry entries cands := by
  induction entries with
  | nil => exact ⟨[], rfl, by simp, by simp⟩
  | cons e rest ih =>
      obtain ⟨p, tail, found⟩ := heads e (by simp)
      obtain ⟨others, built, shape⟩ := ih fun e' member => heads e' (List.mem_cons_of_mem _ member)
      let first : FlowCandidate :=
        { flowId := e.1
          priority := (registry.getOrCreate e.1).priority
          enqueuedAt := p.enqueuedAt
          baseScore := e.2
          kvFootprint := env.kvBias.footprint e.1 }
      have made : candidate env registry waiting e = .ok first := by
        simp only [candidate, found, Option.getD_some, List.head?_cons, first]
      refine ⟨first :: others, by simp only [candidates, made, built], ?_, ?_⟩
      · intro c member
        rcases List.mem_cons.mp member with rfl | later
        · exact ⟨e, by simp, rfl, rfl, rfl⟩
        · obtain ⟨e', inRest, same⟩ := shape.fromEntry c later
          exact ⟨e', List.mem_cons_of_mem _ inRest, same⟩
      · intro e' member
        rcases List.mem_cons.mp member with rfl | later
        · exact ⟨_, List.mem_cons_self, rfl, rfl, rfl⟩
        · obtain ⟨c, inOthers, same⟩ := shape.toCandidate e' later
          exact ⟨c, List.mem_cons_of_mem _ inOthers, same⟩

theorem Built.indexScored {entries cands} (built : Built registry entries cands) :
    IndexScored cands := by
  intro c member
  obtain ⟨e, -, -, -, score⟩ := built.fromEntry c member
  exact ⟨e.2, score⟩

theorem Built.nonempty {entries cands} (built : Built registry entries cands)
    (some_ : entries ≠ []) : cands ≠ [] := by
  rintro rfl
  cases entries with
  | nil => exact some_ rfl
  | cons e rest =>
      obtain ⟨c, member, -⟩ := built.toCandidate e (by simp)
      simp at member

theorem position_unique {cursor : List FlowId} (nodup : cursor.Nodup) {x : FlowId} {i j : Nat}
    (hi : cursor[i]? = some x) (hj : cursor[j]? = some x) : i = j := by
  obtain ⟨bound, -⟩ := List.getElem?_eq_some_iff.mp hi
  exact (List.getElem?_inj bound nodup).mp (hi.trans hj.symm)

theorem raised_eq {s : DrrState} (inv : RepInv s) (f : FlowId) :
    (accumulate env registry s).deficit.lookup f = raised env registry s f := by
  simp only [accumulate_deficit inv.nodup, raised, credits_iff, inv.hasWaiting_iff]
  by_cases member : f ∈ s.rrCursor <;> simp [member]

theorem mem_eligible_iff {s : DrrState} (inv : RepInv s) {e : FlowId × Nat} :
    e ∈ (accumulate env registry s).eligible ↔
      s.rrCursor[e.2]? = some e.1 ∧ Eligible env registry s e.1 := by
  rw [accumulate_eligible inv.nodup, List.mem_filter, List.mem_zipIdx_iff_getElem?]
  constructor
  · rintro ⟨position, enough⟩
    exact ⟨position, List.mem_of_getElem? position, enough⟩
  · rintro ⟨position, -, enough⟩
    exact ⟨position, enough⟩

theorem exists_entry {s : DrrState} (inv : RepInv s) {f : FlowId}
    (eligible : Eligible env registry s f) :
    ∃ i : Nat, s.rrCursor[i]? = some f ∧ (f, i) ∈ (accumulate env registry s).eligible := by
  obtain ⟨i, bound, rfl⟩ := List.getElem_of_mem eligible.1
  have position := List.getElem?_eq_getElem bound
  exact ⟨i, position, (mem_eligible_iff inv).mpr ⟨position, eligible⟩⟩

/-- Phase 3's choice: an eligible flow, and the first one in order of priority
    and cursor while the bias has no weight. -/
theorem select_spec {s : DrrState} (inv : RepInv s) {cands}
    (built : Built registry (accumulate env registry s).eligible cands)
    (some_ : (accumulate env registry s).eligible ≠ []) :
    ∃ f, env.kvBias.select cands env.kvBias.pressure = some f ∧ Eligible env registry s f ∧
      (env.kvBias.weight env.kvBias.pressure ≤ 0 →
        ∀ g, Eligible env registry s g → Precedes registry s f g) := by
  obtain ⟨winner, inCands, selected⟩ := KvBiasHandle.select_member env.kvBias
    env.kvBias.pressure (built.nonempty some_) built.indexScored
  obtain ⟨e, inEligible, flow, -⟩ := built.fromEntry winner inCands
  refine ⟨winner.flowId, selected, flow ▸ ((mem_eligible_iff inv).mp inEligible).2, ?_⟩
  intro zero g eligible
  -- Without weight the winner is the one `select_best` finds.
  obtain ⟨best, inBest, bestSelected, ranks⟩ :=
    selectBest_spec (built.nonempty some_) built.indexScored
  rw [KvBiasHandle.select_of_weight_zero zero, bestSelected, Option.some.injEq] at selected
  obtain ⟨e', inEligible', flow', priority', score'⟩ := built.fromEntry best inBest
  obtain ⟨j, positionG, listedG⟩ := exists_entry inv eligible
  obtain ⟨c, inC, -, priorityC, scoreC⟩ := built.toCandidate _ listedG
  have same : e'.1 = winner.flowId := flow'.symm.trans selected
  rcases ranks c inC with higher | ⟨equal, earlier⟩
  · rw [priorityC, priority', same] at higher
    exact .inl higher
  · rw [priorityC, priority', same] at equal
    rw [score', scoreC] at earlier
    have le : e'.2 ≤ j := by exact_mod_cast earlier
    refine .inr ⟨equal, ?_⟩
    intro a b hf hg
    have positionF := ((mem_eligible_iff inv).mp inEligible').1
    rw [same] at positionF
    rw [position_unique inv.nodup hf positionF, position_unique inv.nodup hg positionG]
    exact le

theorem dropEmpty_eq_self {s : DrrState} (full : ∀ f ∈ s.waiting, s.queue f ≠ []) :
    dropEmpty s = s := by
  have noKeys : s.waiting.keysWhere List.isEmpty = [] := by
    apply Assoc.keysWhere_eq_nil
    intro entry member
    have found := Assoc.lookup_of_mem_entries member
    have filled := full entry.1 (Assoc.mem_iff_lookup.mpr ⟨_, found⟩)
    rw [DrrState.queue_of_lookup found] at filled
    simpa using filled
  simp only [dropEmpty, noKeys, List.foldl_nil]

/-- Phases 2 and 3 never panic under the invariant while a permit is left. -/
theorem regularRound_spec {s : DrrState} (inv : RepInv s) (under : s.outstanding < env.cap)
    (permit : 1 ≤ s.availablePermits) (some_ : s.rrCursor ≠ [])
    (calm : firstStarved env registry s = none) :
    ∃ r, regularRound env registry s = .ok r ∧ RoundSpec env registry s r := by
  unfold regularRound
  simp only
  by_cases nobody : (accumulate env registry s).eligible = []
  · have clean := dropEmpty_eq_self (s := { s with
      deficit := (accumulate env registry s).deficit
      rrCursor := Cursor.rotate s.rrCursor }) inv.nonempty
    simp only [nobody, List.isEmpty_nil, if_true, clean, Except.ok.injEq, exists_eq_left']
    refine .barren under some_ calm ?_ ?_ (raised_eq inv)
    · intro f eligible
      obtain ⟨i, -, member⟩ := exists_entry inv eligible
      simp [nobody] at member
    · rw [accumulate_credited inv.nodup]
      constructor
      · rintro ⟨f, member, credited⟩
        exact ⟨f, member, (credits_iff.mp credited).2⟩
      · rintro ⟨f, member, positive⟩
        exact ⟨f, member, credits_iff.mpr ⟨inv.hasWaiting_iff.mpr member, positive⟩⟩
  · have heads : ∀ e ∈ (accumulate env registry s).eligible,
        ∃ p rest, s.waiting.lookup e.1 = some (p :: rest) := by
      intro e member
      obtain ⟨p, rest, found, -⟩ := affordable_iff.mp ((mem_eligible_iff inv).mp member).2.2
      exact ⟨p, rest, found⟩
    obtain ⟨cands, made, built⟩ := candidates_spec env registry _ heads
    obtain ⟨f, selected, eligible, best⟩ := select_spec inv built nobody
    obtain ⟨p, rest, -, head⟩ := inv.head_of_mem eligible.1
    obtain ⟨s', granted, served, deficit⟩ := grant_spec env registry head permit
      ((accumulate env registry s).deficit.erase f)
    have notEmpty : (accumulate env registry s).eligible.isEmpty = false := by simpa using nobody
    have listed : (accumulate env registry s).eligible.any (fun entry => entry.1 = f) = true := by
      obtain ⟨i, -, member⟩ := exists_entry inv eligible
      simp only [List.any_eq_true, decide_eq_true_eq]
      exact ⟨_, member, rfl⟩
    refine ⟨⟨some ⟨f, p, p.workUnit⟩, true, none, s', debit env registry f p⟩, ?_, ?_⟩
    · simp only [notEmpty, Bool.false_eq_true, if_false, made, selected, serveEligible,
        listed, if_true, popFront_of_queue head, granted]
    · apply RoundSpec.regular under calm eligible best served
      intro g
      rw [deficit, Assoc.lookup_erase, raised_eq inv]

theorem trySelect_ready (env : SelectEnv) (registry : FlowRegistry) {s : DrrState} (inv : RepInv s)
    (permits : s.availablePermits ≤ s.maxPermits) (permit : 1 ≤ s.availablePermits)
    (under : s.outstanding < env.cap) (some_ : s.rrCursor ≠ []) :
    ∃ r, trySelect env registry s = .ok r ∧ RoundSpec env registry s r := by
  have notFull : ¬ s.maxPermits - s.availablePermits ≥ env.cap := not_le.mpr under
  have notEmpty : s.rrCursor.isEmpty = false := by simpa using some_
  unfold trySelect
  simp only [checkedSub, permits, if_true, notFull, if_false, notEmpty, Bool.false_eq_true]
  cases starved : firstStarved env registry s with
  | none => exact regularRound_spec inv under permit some_ starved
  | some found =>
      obtain ⟨f, wait⟩ := found
      obtain ⟨p, rest, -, head⟩ := inv.head_of_mem (mem_of_firstStarved starved).1
      obtain ⟨s', forced, served, deficit⟩ :=
        forceSelect_spec env registry wait head permit
      exact ⟨_, forced, .forced under starved served deficit⟩

/-- Under the invariant, with a cap within the budget, `try_select` returns. -/
theorem trySelect_spec (env : SelectEnv) (registry : FlowRegistry) {s : DrrState} (inv : RepInv s)
    (cap : env.cap ≤ s.maxPermits) (permits : s.availablePermits ≤ s.maxPermits) :
    ∃ r, trySelect env registry s = .ok r ∧ RoundSpec env registry s r := by
  by_cases full : env.cap ≤ s.outstanding
  · have full' : s.maxPermits - s.availablePermits ≥ env.cap := full
    unfold trySelect
    simp only [checkedSub, permits, if_true, full', Except.ok.injEq, exists_eq_left']
    exact .atCap full
  · have under : s.outstanding < env.cap := not_le.mp full
    by_cases empty : s.rrCursor = []
    · have notFull : ¬ s.maxPermits - s.availablePermits ≥ env.cap := full
      unfold trySelect
      simp only [checkedSub, permits, if_true, notFull, if_false, empty, List.isEmpty_nil,
        Except.ok.injEq, exists_eq_left']
      exact .nobody under empty
    · have permit : 1 ≤ s.availablePermits := by
        simp only [DrrState.outstanding] at under
        omega
      exact trySelect_ready env registry inv permits permit under empty

namespace RoundSpec

variable {s : DrrState} {r : Round}

theorem repInv (spec : RoundSpec env registry s r) (inv : RepInv s) : RepInv r.state := by
  cases spec with
  | atCap | nobody => exact inv
  | forced _ _ served | regular _ _ _ _ served => exact served.repInv inv
  | barren =>
      refine ⟨Cursor.nodup_rotate inv.nodup, ?_, inv.nonempty, inv.below, inv.sorted, inv.apart⟩
      intro f
      rw [Cursor.mem_rotate]
      exact inv.keys f

theorem permits (spec : RoundSpec env registry s r) :
    r.state.availablePermits + (if r.selection.isSome then 1 else 0) = s.availablePermits := by
  cases spec with
  | atCap | nobody | barren => rfl
  | forced _ _ served | regular _ _ _ _ served => exact served.permits

theorem budget (spec : RoundSpec env registry s r) : r.state.maxPermits = s.maxPermits := by
  cases spec with
  | atCap | nobody | barren => rfl
  | forced _ _ served | regular _ _ _ _ served => exact served.budget

theorem served (spec : RoundSpec env registry s r) {selection : Selection}
    (selected : r.selection = some selection) :
    s.outstanding < env.cap ∧
      ∃ rest, Served s r.state selection.flowId selection.pending rest := by
  cases spec with
  | atCap | nobody | barren => simp at selected
  | forced under _ served | regular under _ _ _ served =>
      obtain rfl := Option.some.inj selected
      exact ⟨under, _, served⟩

theorem workUnit_eq (spec : RoundSpec env registry s r) {selection : Selection}
    (selected : r.selection = some selection) : selection.workUnit = selection.pending.workUnit := by
  cases spec with
  | atCap | nobody | barren => simp at selected
  | forced | regular =>
      obtain rfl := Option.some.inj selected
      rfl

theorem waiting_eq (spec : RoundSpec env registry s r) (none_ : r.selection = none) :
    r.state.waiting = s.waiting ∧ r.state.nextPendingId = s.nextPendingId := by
  cases spec with
  | atCap | nobody | barren => exact ⟨rfl, rfl⟩
  | forced | regular => simp at none_

end RoundSpec

end TinyLlb
