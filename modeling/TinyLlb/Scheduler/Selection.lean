import TinyLlb.Scheduler.Rounds

/-! # The selection with its frame

`SelectionLaw` says what a call of `try_select` has to return and what it must
not touch, over the mathematical sum of deficit and weight. The code adds on
`i64` cells, so the law holds as long as these sums are stored as they are.
-/

namespace TinyLlb

open TrySelect

/-- `f` waits and has waited for longer than the timeout. -/
def Starved (env : SelectEnv) (registry : FlowRegistry) (s : DrrState) (f : FlowId) : Prop :=
  s.queue f ≠ [] ∧ (isStarved (registry.getOrCreate f) env.now env.starvationTimeout).isSome

/-- `f` waits with a truncated weight of at least 1. -/
def Accrues (registry : FlowRegistry) (s : DrrState) (f : FlowId) : Prop :=
  s.queue f ≠ [] ∧ 1 ≤ (registry.getOrCreate f).truncWeight

/-- Deficit plus truncated weight, as an integer. -/
def DrrState.quota (s : DrrState) (registry : FlowRegistry) (f : FlowId) : Int :=
  s.credit f + (registry.getOrCreate f).truncWeight

/-- A flow with a truncated weight of at least 1 whose deficit plus weight is at
    least the cost of its head. -/
def Covered (registry : FlowRegistry) (s : DrrState) (f : FlowId) : Prop :=
  ∃ p rest, s.queue f = p :: rest ∧ 1 ≤ (registry.getOrCreate f).truncWeight ∧
    p.cost ≤ s.quota registry f

/-- The flow that a round selected. -/
def Round.chosen (r : Round) : Option FlowId := r.selection.map Selection.flowId

/-- A state in which `try_select` has a permit under the cap and somebody waits.
    Deficits are `i64` cells. -/
structure Selectable (env : SelectEnv) (s : DrrState) : Prop where
  repInv : RepInv s
  cells : ∀ f, InI64 (s.credit f)
  budget : s.availablePermits ≤ s.maxPermits
  permit : 1 ≤ s.availablePermits
  under : s.outstanding < env.cap
  waiting : ∃ f, s.queue f ≠ []

/-- What a selection has to do, and what it leaves alone. -/
structure SelectionLaw (env : SelectEnv) (registry : FlowRegistry) (s : DrrState) (r : Round) :
    Prop where
  /-- The first starved flow in cursor order goes first. -/
  forced : ∀ front f back, s.rrCursor = front ++ f :: back → Starved env registry s f →
    (∀ g ∈ front, ¬ Starved env registry s g) → r.chosen = some f
  /-- Otherwise the covered flow of highest priority, and of these the earliest. -/
  best : (∀ f, ¬ Starved env registry s f) → env.kvBias.weight env.kvBias.pressure ≤ 0 →
    ∀ f, r.chosen = some f →
      Covered registry s f ∧ ∀ g, Covered registry s g → Precedes registry s f g
  nobody : (∀ f, ¬ Starved env registry s f) → env.kvBias.weight env.kvBias.pressure ≤ 0 →
    (r.chosen = none ↔ ∀ f, ¬ Covered registry s f)
  /-- The head of the selected queue leaves, and the flow goes to the back of the
      cursor iff it still has requests. -/
  served : ∀ selection, r.selection = some selection →
    s.queue selection.flowId = selection.pending :: r.state.queue selection.flowId ∧
    r.state.rrCursor = Cursor.retire selection.flowId s.rrCursor ++
      (if r.state.queue selection.flowId = [] then [] else [selection.flowId])
  others : ∀ g, r.chosen ≠ some g → r.state.waiting.lookup g = s.waiting.lookup g
  /-- A round that forces nobody raises the deficits of those it passes over. -/
  raised : (∀ f, ¬ Starved env registry s f) → ∀ g, r.chosen ≠ some g → Accrues registry s g →
    r.state.deficit.lookup g = some (s.quota registry g)
  weightless : (∀ f, ¬ Starved env registry s f) → ∀ g, r.chosen ≠ some g →
    ¬ Accrues registry s g → r.state.deficit.lookup g = s.deficit.lookup g
  rotated : r.chosen = none → r.state.rrCursor = Cursor.rotate s.rrCursor

/-- The entries of the cursor that phase 2 lets pass. -/
def contenders (env : SelectEnv) (registry : FlowRegistry) (s : DrrState) : List (FlowId × Nat) :=
  s.rrCursor.zipIdx.filter fun entry => affordable env registry s.waiting s.deficit entry.1

/-- `KvBiasHandle::select` prefers `f` among the contenders. -/
def Preferred (env : SelectEnv) (registry : FlowRegistry) (s : DrrState) (f : FlowId) : Prop :=
  ∃ cands, candidates env registry s.waiting (contenders env registry s) = .ok cands ∧
    env.kvBias.select cands env.kvBias.pressure = some f

/-- The sum of deficit and weight is stored as it is, wherever it matters: a flow
    that is served all the same loses its entry. -/
def SumsStored (env : SelectEnv) (registry : FlowRegistry) (s : DrrState) : Prop :=
  ∀ f, Accrues registry s f →
    env.arith.store (s.quota registry f) = s.quota registry f ∨ Preferred env registry s f

variable {env : SelectEnv} {registry : FlowRegistry} {s : DrrState}

theorem isStarved_first {front back : List FlowId} {f : FlowId} (inv : RepInv s)
    (cursor : s.rrCursor = front ++ f :: back) (starved : Starved env registry s f)
    (calm : ∀ g ∈ front, ¬ Starved env registry s g) :
    ∃ wait, firstStarved env registry s = some (f, wait) := by
  obtain ⟨wait, waited⟩ := Option.isSome_iff_exists.mp starved.2
  refine ⟨wait, ?_⟩
  have all : s.rrCursor.filter (hasWaiting s.waiting) = s.rrCursor :=
    List.filter_eq_self.mpr fun g member => inv.hasWaiting_iff.mpr member
  unfold firstStarved
  rw [all, List.findSome?_eq_some_iff]
  refine ⟨front, f, back, cursor, by simp [waited], ?_⟩
  intro g member
  have waits : s.queue g ≠ [] := by
    apply inv.mem_cursor_iff.mp
    rw [cursor]
    exact List.mem_append_left _ member
  have not_ : ¬ (isStarved (registry.getOrCreate g) env.now env.starvationTimeout).isSome :=
    fun some_ => calm g member ⟨waits, some_⟩
  simpa using not_

theorem firstStarved_eq_none_iff (inv : RepInv s) :
    firstStarved env registry s = none ↔ ∀ f, ¬ Starved env registry s f := by
  constructor
  · intro none_ f starved
    have listed := inv.hasWaiting_iff.mpr (inv.mem_cursor_iff.mpr starved.1)
    have calm := List.findSome?_eq_none_iff.mp none_ f
      (List.mem_filter.mpr ⟨inv.mem_cursor_iff.mpr starved.1, listed⟩)
    have waited := starved.2
    rw [Option.map_eq_none_iff.mp calm] at waited
    simp at waited
  · intro calm
    cases found : firstStarved env registry s with
    | none => rfl
    | some starved =>
        obtain ⟨f, wait⟩ := starved
        obtain ⟨member, waited⟩ := mem_of_firstStarved found
        exact absurd ⟨inv.mem_cursor_iff.mp member, by rw [waited]; rfl⟩ (calm f)

theorem raise_eq (f : FlowId) :
    raise env registry s.deficit f = env.arith.store (s.quota registry f) := rfl

theorem accrues_iff (inv : RepInv s) (f : FlowId) :
    Accrues registry s f ↔ f ∈ s.rrCursor ∧ 0 < (registry.getOrCreate f).truncWeight := by
  rw [inv.mem_cursor_iff]
  exact Iff.rfl

theorem eligible_iff_stored (inv : RepInv s) (f : FlowId) :
    Eligible env registry s f ↔ ∃ p rest, s.queue f = p :: rest ∧
      1 ≤ (registry.getOrCreate f).truncWeight ∧
      p.cost ≤ env.arith.store (s.quota registry f) := by
  unfold Eligible
  rw [affordable_iff]
  constructor
  · rintro ⟨-, p, rest, found, positive, enough⟩
    exact ⟨p, rest, DrrState.queue_of_lookup found, positive, enough⟩
  · rintro ⟨p, rest, head, positive, enough⟩
    refine ⟨inv.mem_cursor_iff.mpr (by simp [head]), p, rest, ?_, positive, enough⟩
    exact DrrState.lookup_of_queue_cons head

theorem Covered.accrues {f : FlowId} (covered : Covered registry s f) : Accrues registry s f := by
  obtain ⟨p, rest, head, positive, -⟩ := covered
  exact ⟨by simp [head], positive⟩

theorem covered_iff_eligible (inv : RepInv s) {f : FlowId}
    (stored : env.arith.store (s.quota registry f) = s.quota registry f) :
    Covered registry s f ↔ Eligible env registry s f := by
  rw [eligible_iff_stored inv, stored]
  exact Iff.rfl

theorem I64Arith.store_le (arith : I64Arith) {n : Int} (low : i64Min ≤ n) : arith.store n ≤ n := by
  by_cases high : n ≤ i64Max
  · exact (arith.store_of_inI64 ⟨low, high⟩).le
  · cases arith with
    | exact => exact le_rfl
    | wrapping =>
        have bound := Int.bmod_lt (x := n) (m := 18446744073709551616) (by decide)
        simp only [I64Arith.store, i64Max] at *
        omega

theorem Eligible.covered (ready : Selectable env s) {f : FlowId}
    (eligible : Eligible env registry s f) : Covered registry s f := by
  obtain ⟨p, rest, head, positive, enough⟩ := (eligible_iff_stored ready.repInv f).mp eligible
  refine ⟨p, rest, head, positive, enough.trans (env.arith.store_le ?_)⟩
  have cell := (ready.cells f).1
  unfold DrrState.quota
  omega

theorem Precedes.refl (nodup : s.rrCursor.Nodup) (f : FlowId) : Precedes registry s f f :=
  .inr ⟨rfl, fun _ _ first second => (position_unique nodup first second).le⟩

theorem raised_of_accrues (inv : RepInv s) {f : FlowId} (accrues : Accrues registry s f)
    (stored : env.arith.store (s.quota registry f) = s.quota registry f) :
    raised env registry s f = some (s.quota registry f) := by
  unfold raised
  rw [if_pos ((accrues_iff inv f).mp accrues), raise_eq, stored]

theorem raised_of_not_accrues (inv : RepInv s) {f : FlowId} (not_ : ¬ Accrues registry s f) :
    raised env registry s f = s.deficit.lookup f := by
  unfold raised
  rw [if_neg (mt (accrues_iff inv f).mpr not_)]

theorem Preferred.unique {f g : FlowId} (first : Preferred env registry s f)
    (second : Preferred env registry s g) : f = g := by
  obtain ⟨cands, made, selected⟩ := first
  obtain ⟨cands', made', selected'⟩ := second
  obtain rfl := Except.ok.inj (made.symm.trans made')
  exact Option.some.inj (selected.symm.trans selected')

theorem not_preferred (ineligible : ∀ f, ¬ Eligible env registry s f)
    (f : FlowId) : ¬ Preferred env registry s f := by
  rintro ⟨cands, made, selected⟩
  have none_ : contenders env registry s = [] := by
    apply List.filter_eq_nil_iff.mpr
    intro entry member enough
    have position := List.mem_zipIdx_iff_getElem?.mp member
    exact ineligible entry.1 ⟨List.mem_of_getElem? position, enough⟩
  rw [none_] at made
  obtain rfl := Except.ok.inj made
  simp [KvBiasHandle.select, selectBest, bestCandidate] at selected

theorem serveEligible_chosen {t : DrrState} {eligible : List (FlowId × Nat)} {f : FlowId} {r : Round}
    (ran : serveEligible env registry t eligible f = .ok r) : r.chosen = some f := by
  unfold serveEligible at ran
  split at ran
  · split at ran
    · cases ran
    · simp only at ran
      split at ran
      · cases ran
      · obtain rfl := Except.ok.inj ran
        rfl
  · cases ran

theorem regularRound_preferred (inv : RepInv s) {r : Round}
    (ran : regularRound env registry s = .ok r) {f : FlowId} (chosen : r.chosen = some f) :
    Preferred env registry s f := by
  unfold regularRound at ran
  simp only [accumulate_eligible inv.nodup] at ran
  split at ran
  · obtain rfl := Except.ok.inj ran
    cases chosen
  · split at ran
    · cases ran
    · rename_i cands made
      split at ran
      · cases ran
      · rename_i selected preferred
        obtain rfl := Option.some.inj ((serveEligible_chosen ran).symm.trans chosen)
        exact ⟨cands, made, preferred⟩

theorem Served.frame {s' : DrrState} {f : FlowId} {p : Pending} {rest : List Pending}
    (served : Served s s' f p rest) :
    s.queue f = p :: s'.queue f ∧
      s'.rrCursor = Cursor.retire f s.rrCursor ++ (if s'.queue f = [] then [] else [f]) := by
  have left : s'.queue f = rest := by simp [served.queue]
  rw [left]
  refine ⟨served.head, ?_⟩
  rw [served.cursor]
  by_cases last : rest = [] <;> simp [last]

theorem Served.others {s' : DrrState} {f g : FlowId} {p : Pending} {rest : List Pending}
    (served : Served s s' f p rest) (other : g ≠ f) :
    s'.waiting.lookup g = s.waiting.lookup g := by
  rw [served.lookup, if_neg other]

theorem Selectable.cursor (ready : Selectable env s) : s.rrCursor ≠ [] := by
  obtain ⟨f, waits⟩ := ready.waiting
  exact List.ne_nil_of_mem (ready.repInv.mem_cursor_iff.mpr waits)

/-- A round in which nobody is starved: it serves the preferred flow or nobody,
    and leaves the raised deficits of the others. -/
theorem calm_round (ready : Selectable env s) (calm : ∀ f, ¬ Starved env registry s f) {r : Round}
    (ran : trySelect env registry s = .ok r) :
    (∀ f, r.chosen = some f → Preferred env registry s f) ∧
      ∀ g, r.chosen ≠ some g → r.state.deficit.lookup g = raised env registry s g := by
  obtain ⟨r', ran', spec⟩ := trySelect_ready env registry ready.repInv ready.budget ready.permit
    ready.under ready.cursor
  obtain rfl := Except.ok.inj (ran'.symm.trans ran)
  have none_ := (firstStarved_eq_none_iff ready.repInv).mpr calm
  constructor
  · intro f chosen
    apply regularRound_preferred ready.repInv _ chosen
    have notFull : ¬ s.maxPermits - s.availablePermits ≥ env.cap := not_le.mpr ready.under
    have notEmpty : s.rrCursor.isEmpty = false := by simpa using ready.cursor
    unfold trySelect at ran
    simpa only [checkedSub, ready.budget, if_true, notFull, if_false, notEmpty, Bool.false_eq_true,
      none_] using ran
  · intro g other
    cases spec with
    | atCap full => exact absurd ready.under (not_lt.mpr full)
    | nobody _ empty => exact absurd empty ready.cursor
    | forced _ starved => simp [none_] at starved
    | regular _ _ _ _ _ deficit =>
        rw [deficit, if_neg]
        rintro rfl
        exact other rfl
    | barren _ _ _ _ _ deficit => exact deficit g

/-- The law of a forced round holds whatever the sums are. -/
theorem law_of_starved (ready : Selectable env s) {h : FlowId} (starving : Starved env registry s h)
    {r : Round} (spec : RoundSpec env registry s r) : SelectionLaw env registry s r := by
  have some_ : firstStarved env registry s ≠ none :=
    fun none_ => (firstStarved_eq_none_iff ready.repInv).mp none_ h starving
  cases spec with
  | atCap full => exact absurd ready.under (not_lt.mpr full)
  | nobody _ empty => exact absurd empty ready.cursor
  | regular _ calm => exact absurd calm some_
  | barren _ _ calm => exact absurd calm some_
  | forced _ first served _ =>
      refine ⟨?_, fun calm => absurd starving (calm h), fun calm => absurd starving (calm h), ?_, ?_,
        fun calm => absurd starving (calm h), fun calm => absurd starving (calm h), ?_⟩
      · intro front f back cursor starved before
        obtain ⟨wait, same⟩ := isStarved_first ready.repInv cursor starved before
        rw [first, Option.some.injEq, Prod.mk.injEq] at same
        exact congrArg some same.1
      · intro selection selected
        obtain rfl := Option.some.inj selected
        exact served.frame
      · intro g other
        exact served.others fun same => other (congrArg some same.symm)
      · intro none_
        cases none_

theorem law_of_stored (ready : Selectable env s) (calm : ∀ f, ¬ Starved env registry s f)
    (stored : SumsStored env registry s) {r : Round} (ran : trySelect env registry s = .ok r)
    (spec : RoundSpec env registry s r) : SelectionLaw env registry s r := by
  have inv := ready.repInv
  obtain ⟨preferred, deficits⟩ := calm_round ready calm ran
  have raises : (∀ h, Preferred env registry s h → r.chosen = some h) →
      ∀ g, r.chosen ≠ some g → Accrues registry s g →
        r.state.deficit.lookup g = some (s.quota registry g) := by
    intro served g other accrues
    rw [deficits g other]
    rcases stored g accrues with same | wins
    · exact raised_of_accrues inv accrues same
    · exact absurd (served g wins) other
  have rests : ∀ g, r.chosen ≠ some g → ¬ Accrues registry s g →
      r.state.deficit.lookup g = s.deficit.lookup g := by
    intro g other not_
    rw [deficits g other, raised_of_not_accrues inv not_]
  cases spec with
  | atCap full => exact absurd ready.under (not_lt.mpr full)
  | nobody _ empty => exact absurd empty ready.cursor
  | forced _ first =>
      rw [(firstStarved_eq_none_iff inv).mpr calm] at first
      cases first
  | @regular f p rest s' _ _ eligible best served _ =>
      have only : ∀ h, Preferred env registry s h → some f = some h :=
        fun h wins => congrArg some ((preferred f rfl).unique wins)
      refine ⟨fun _ g _ _ starved => absurd starved (calm g), ?_, ?_, ?_, ?_,
        fun _ => raises only, fun _ => rests, by nofun⟩
      · rintro - off g chosen
        obtain rfl := Option.some.inj chosen
        refine ⟨eligible.covered ready, fun g covered => ?_⟩
        rcases stored g covered.accrues with same | wins
        · exact best off g ((covered_iff_eligible inv same).mp covered)
        · obtain rfl := Option.some.inj (only g wins)
          exact .refl inv.nodup f
      · rintro - -
        refine ⟨by nofun, fun uncovered => absurd (eligible.covered ready) (uncovered f)⟩
      · intro selection selected
        obtain rfl := Option.some.inj selected
        exact served.frame
      · intro g other
        exact served.others fun same => other (congrArg some same.symm)
  | barren _ _ _ ineligible _ _ =>
      have only : ∀ h, Preferred env registry s h → none = some h :=
        fun h wins => absurd wins (not_preferred ineligible h)
      refine ⟨fun _ g _ _ starved => absurd starved (calm g), by nofun, ?_, by nofun,
        fun _ _ => rfl, fun _ => raises only, fun _ => rests, fun _ => rfl⟩
      rintro - -
      refine ⟨fun _ g covered => ?_, fun _ => rfl⟩
      rcases stored g covered.accrues with same | wins
      · exact ineligible g ((covered_iff_eligible inv same).mp covered)
      · exact not_preferred ineligible g wins

/-- `try_select` keeps the law iff somebody is starved or every sum that matters
    is stored as it is. -/
theorem selection_law_iff (ready : Selectable env s) :
    (∃ r, trySelect env registry s = .ok r ∧ SelectionLaw env registry s r) ↔
      (∃ f, Starved env registry s f) ∨ SumsStored env registry s := by
  constructor
  · rintro ⟨r, ran, law⟩
    by_cases starving : ∃ f, Starved env registry s f
    · exact .inl starving
    · have calm : ∀ f, ¬ Starved env registry s f := not_exists.mp starving
      obtain ⟨preferred, deficits⟩ := calm_round ready calm ran
      refine .inr fun f accrues => ?_
      by_cases chosen : r.chosen = some f
      · exact .inr (preferred f chosen)
      · -- The entry holds the stored sum, and the law says it is the sum.
        have kept := deficits f chosen
        rw [law.raised calm f chosen accrues, raised,
          if_pos ((accrues_iff ready.repInv f).mp accrues), raise_eq] at kept
        exact .inl (Option.some.inj kept).symm
  · obtain ⟨r, ran, spec⟩ := trySelect_ready env registry ready.repInv ready.budget ready.permit
      ready.under ready.cursor
    rintro holds
    refine ⟨r, ran, ?_⟩
    by_cases starving : ∃ f, Starved env registry s f
    · obtain ⟨f, starved⟩ := starving
      exact law_of_starved ready starved spec
    · exact law_of_stored ready (not_exists.mp starving) (holds.resolve_left starving) ran spec

/-- Nobody has waited, the bias is off, and sums wrap. -/
def wrappingEnv : SelectEnv :=
  { now := 0, starvationTimeout := 300000000000,
    kvBias := ⟨{ SchedulerConfig.default.kvBias with enabled := false }, 0, fun _ => 0⟩,
    cap := 2, arith := .wrapping }

/-- One request of `a` and one of `b`, which has the higher priority. -/
def twoQueues : DrrState :=
  ((DrrState.new 2).enqueue ⟨"a"⟩ 0 0 (.fin 1)).enqueue ⟨"b"⟩ 1 0 (.fin 1)

def weightedRegistry (weight : ℚ) : FlowRegistry :=
  ((FlowRegistry.new (.fin 1) 50).register ⟨⟨"a"⟩, .fin weight, 1⟩).register ⟨⟨"b"⟩, .fin 1, 100⟩

theorem twoQueues_repInv : RepInv twoQueues :=
  ((RepInv.new 2).enqueue _ _ _ _).enqueue _ _ _ _

theorem twoQueues_selectable : Selectable wrappingEnv twoQueues where
  repInv := twoQueues_repInv
  cells := by
    intro f
    change InI64 0
    decide
  budget := by decide +kernel
  permit := by decide +kernel
  under := by decide +kernel
  waiting := ⟨⟨"a"⟩, by decide +kernel⟩

/-- With a weight of 3 the law holds. -/
theorem selection_law_iff_small :
    ∃ r, trySelect wrappingEnv (weightedRegistry 3) twoQueues = .ok r ∧
      SelectionLaw wrappingEnv (weightedRegistry 3) twoQueues r := by
  apply (selection_law_iff twoQueues_selectable).mpr
  right
  rintro f ⟨waits, -⟩
  have listed : f ∈ [⟨"a"⟩, ⟨"b"⟩] := twoQueues_repInv.mem_cursor_iff.mpr waits
  simp only [List.mem_cons, List.not_mem_nil, or_false] at listed
  rcases listed with rfl | rfl <;> exact .inl (by decide +kernel)

/-- The first of two rounds, in which `b` goes first and `a` is credited. -/
def firstRound : Round :=
  match trySelect wrappingEnv (weightedRegistry 10000000000000000000) twoQueues with
  | .ok r => r
  | .error _ => ⟨none, false, none, twoQueues, weightedRegistry 1⟩

/-- With a weight of 1e19 the first round fills the deficit of `a`, and in the
    second one the sum wraps to -2: `a` waits alone and is passed over. -/
theorem sum_wraps :
    Selectable wrappingEnv firstRound.state ∧
      ¬ ∃ r, trySelect wrappingEnv firstRound.registry firstRound.state = .ok r ∧
        SelectionLaw wrappingEnv firstRound.registry firstRound.state r := by
  have inv : RepInv firstRound.state := by
    obtain ⟨r, ran, spec⟩ := trySelect_spec wrappingEnv (weightedRegistry 10000000000000000000)
      twoQueues_repInv (by decide +kernel) (by decide +kernel)
    have same : firstRound = r := by simp only [firstRound, ran]
    rw [same]
    exact spec.repInv twoQueues_repInv
  have cursor : firstRound.state.rrCursor = [⟨"a"⟩] := by decide +kernel
  have deficit : firstRound.state.deficit = (∅ : Assoc FlowId Int).insert ⟨"a"⟩ i64Max :=
    AList.ext (by decide +kernel)
  refine ⟨⟨inv, ?_, by decide +kernel, by decide +kernel, by decide +kernel,
    ⟨⟨"a"⟩, by decide +kernel⟩⟩, ?_⟩
  · intro f
    rw [DrrState.credit, deficit, Assoc.lookup_insert]
    by_cases same : f = ⟨"a"⟩
    · rw [if_pos same]
      decide
    · rw [if_neg same]
      change InI64 0
      decide
  · rintro ⟨r, ran, law⟩
    have calm : ∀ f, ¬ Starved wrappingEnv firstRound.registry firstRound.state f := by
      rintro f ⟨waits, waited⟩
      have listed := inv.mem_cursor_iff.mpr waits
      rw [cursor, List.mem_singleton] at listed
      subst listed
      revert waited
      decide +kernel
    have none_ : r.chosen = none := by
      have second : (trySelect wrappingEnv firstRound.registry firstRound.state).toOption.bind
          Round.chosen = none := by decide +kernel
      rwa [ran] at second
    exact (law.nobody calm (by decide +kernel)).mp none_ ⟨"a"⟩
      ⟨⟨0, 0, 0, .fin 1⟩, [], by decide +kernel, by decide +kernel, by decide +kernel⟩

end TinyLlb
