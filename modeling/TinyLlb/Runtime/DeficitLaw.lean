import TinyLlb.Runtime.Permits

/-! # Deficits and waiting flows

A deficit entry is meant to live only as long as its flow waits for a selection.
The normal path of `try_select` clears it, and so does the guard that takes the
last request away; the starvation path does not. The law holds along a run
exactly when no starved flow that is served has an entry at that moment.
-/

namespace TinyLlb

variable {cfg : Config} {arith : I64Arith} {s s' : System} {action : Action} {event : Option Event}

/-- Only flows with waiting requests have a deficit entry. -/
def DeficitsWaiting (s : DrrState) : Prop := ∀ f, f ∈ s.deficit → s.queue f ≠ []

/-- What holds after a step: entries belong to waiting flows, and a flow that
    was just selected has none. -/
structure DeficitLaw (tr : Transition System Action Event) : Prop where
  waiting : DeficitsWaiting tr.post.inner
  cleared : ∀ selection forced, tr.event = some (.selected selection forced) →
    selection.flowId ∉ tr.post.inner.deficit

/-- A starved flow that this round is about to serve has no deficit entry. -/
def StarvedWithoutDeficit (cfg : Config) (arith : I64Arith)
    (tr : Transition System Action Event) : Prop :=
  ∀ cap f wait, tr.action = .trySelect → tr.pre.pc = .select cap →
    tr.pre.inner.outstanding < cap →
    TrySelect.firstStarved (tr.pre.selectEnv cfg arith cap) tr.pre.registry tr.pre.inner =
      some (f, wait) →
    f ∉ tr.pre.inner.deficit

namespace DeficitsWaiting

theorem mono {t t' : DrrState} (law : DeficitsWaiting t) (deficit : t'.deficit = t.deficit)
    (waiters : ∀ f, t.queue f ≠ [] → t'.queue f ≠ []) : DeficitsWaiting t' := by
  intro f member
  rw [deficit] at member
  exact waiters f (law f member)

theorem enqueue {t : DrrState} (law : DeficitsWaiting t) (f : FlowId) (tx : Nat) (enter : Instant)
    (workUnit : F64) : DeficitsWaiting (t.enqueue f tx enter workUnit) := by
  refine law.mono rfl ?_
  intro g waits
  rw [DrrState.queue_enqueue]
  split
  · simp
  · exact waits

theorem dropGuard {t : DrrState} (law : DeficitsWaiting t) (f : FlowId) (pendingId : Option Nat) :
    DeficitsWaiting (t.dropGuard f pendingId) := by
  intro g member
  rw [DrrState.queue_dropGuard]
  cases found : t.waiting.lookup f with
  | none =>
      rw [DrrState.dropGuard_of_none found] at member
      have waits := law g member
      by_cases same : g = f
      · subst g
        simp [DrrState.queue, found] at waits
      · simpa [same] using waits
  | some queue =>
      rw [DrrState.queue_of_lookup found]
      cases DrrState.dropGuard_cases found pendingId with
      | inl emptied =>
          rw [emptied.2] at member
          obtain ⟨other, member⟩ := AList.mem_erase.mp member
          simpa [other] using law g member
      | inr left =>
          rw [left.2] at member
          have waits := law g member
          by_cases same : g = f
          · simpa [same] using left.1
          · simpa [same] using waits

theorem of_raised {env : SelectEnv} {registry : FlowRegistry} {t : DrrState}
    (law : DeficitsWaiting t) (inv : RepInv t) {f : FlowId} {credit : Int}
    (entry : raised env registry t f = some credit) : t.queue f ≠ [] := by
  unfold raised at entry
  split at entry
  · rename_i credited
    exact inv.mem_cursor_iff.mp credited.1
  · exact law f (Assoc.mem_iff_lookup.mpr ⟨credit, entry⟩)

end DeficitsWaiting

/-- One round keeps the law exactly when the starved flow it serves, if any, has
    no entry. -/
theorem deficitLaw_round {cap : Nat} {r : Round} (law : DeficitsWaiting s.inner)
    (inv : RepInv s.inner) (pc : s.pc = .select cap)
    (spec : RoundSpec (s.selectEnv cfg arith cap) s.registry s.inner r) :
    DeficitLaw ⟨s, .trySelect, r.selection.map fun selection =>
        .selected selection r.forceAdmit.isSome, s.afterRound r⟩ ↔
      StarvedWithoutDeficit cfg arith ⟨s, .trySelect, r.selection.map fun selection =>
        .selected selection r.forceAdmit.isSome, s.afterRound r⟩ := by
  have sameCap : ∀ cap', s.pc = .select cap' → cap' = cap := by
    intro cap' pc'
    rw [pc] at pc'
    exact (LoopPc.select.inj pc').symm
  cases spec with
  | atCap full =>
      refine iff_of_true ⟨law, by simp⟩ ?_
      intro cap' f wait _ pc' under
      obtain rfl := sameCap cap' pc'
      exact absurd full (not_le.mpr under)
  | nobody _ empty =>
      refine iff_of_true ⟨law, by simp⟩ ?_
      intro cap' f wait _ pc' _ starved
      have member := (mem_of_firstStarved starved).1
      rw [empty] at member
      simp at member
  | @forced f wait p rest t under starved served deficit =>
      have post : (s.afterRound ⟨some ⟨f, p, p.workUnit⟩, true, some (f, wait), t,
        TrySelect.debit (s.selectEnv cfg arith cap) s.registry f p⟩).inner.deficit =
          s.inner.deficit := deficit
      constructor
      · intro after cap' g wait' _ pc' _ starved'
        obtain rfl := sameCap cap' pc'
        obtain ⟨rfl, rfl⟩ : f = g ∧ wait = wait' := by simpa [starved] using starved'
        have cleared := after.cleared _ _ rfl
        simpa only [post] using cleared
      · intro without
        have absent : f ∉ s.inner.deficit := without cap f wait rfl pc under starved
        constructor
        · intro g member
          change g ∈ t.deficit at member
          rw [deficit] at member
          change t.queue g ≠ []
          rw [served.queue]
          split
          · rename_i same
            subst g
            exact absurd member absent
          · exact law g member
        · intro selection isForced emitted
          simp only [Option.map_some, Option.some.injEq, Event.selected.injEq] at emitted
          obtain ⟨rfl, -⟩ := emitted
          simpa only [post] using absent
  | @regular f p rest t under calm eligible best served deficit =>
      refine iff_of_true ⟨?_, ?_⟩ ?_
      · intro g member
        obtain ⟨credit, entry⟩ := Assoc.mem_iff_lookup.mp member
        change t.deficit.lookup g = some credit at entry
        rw [deficit] at entry
        change t.queue g ≠ []
        rw [served.queue]
        split at entry
        · simp at entry
        · rename_i other
          simp only [other, if_false]
          exact law.of_raised inv entry
      · intro selection isForced emitted
        simp only [Option.map_some, Option.some.injEq, Event.selected.injEq] at emitted
        obtain ⟨rfl, -⟩ := emitted
        rw [Assoc.notMem_iff_lookup]
        change t.deficit.lookup f = none
        rw [deficit, if_pos rfl]
      · intro cap' g wait _ pc' _ starved
        obtain rfl := sameCap cap' pc'
        simp [calm] at starved
  | @barren credited deficit' under some_ calm ineligible flag deficit =>
      refine iff_of_true ⟨?_, by simp⟩ ?_
      · intro g member
        obtain ⟨credit, entry⟩ := Assoc.mem_iff_lookup.mp member
        change deficit'.lookup g = some credit at entry
        rw [deficit] at entry
        exact law.of_raised inv entry
      · intro cap' g wait _ pc' _ starved
        obtain rfl := sameCap cap' pc'
        simp [calm] at starved

theorem deficitLaw_step (inv : SystemInv cfg s) (law : DeficitsWaiting s.inner)
    (step : Step cfg arith s action event s') :
    DeficitLaw ⟨s, action, event, s'⟩ ↔ StarvedWithoutDeficit cfg arith ⟨s, action, event, s'⟩ := by
  have unless_round : action ≠ .trySelect → StarvedWithoutDeficit cfg arith ⟨s, action, event, s'⟩ :=
    fun other _ _ _ selects => absurd selects other
  cases step with
  | round pc spec => exact deficitLaw_round law inv.repInv pc spec
  | enqueue => exact iff_of_true ⟨law.enqueue _ _ _ _, by simp⟩ (unless_round (by simp))
  | dropGuard => exact iff_of_true ⟨law.dropGuard _ _, by simp⟩ (unless_round (by simp))
  | closeReceiver which =>
      refine iff_of_true ⟨?_, by simp⟩ (unless_round ?_)
      · unfold System.closeReceiver
        split <;> exact law
      · cases which with
        | inl cancel => simp [cancel]
        | inr timeout => simp [timeout]
  | _ => exact iff_of_true ⟨law, by simp⟩ (unless_round (by simp))

theorem deficitsWaiting_start (cfg : Config) : DeficitsWaiting (System.start cfg).inner := by
  intro f member
  simp [System.start, DrrState.new] at member

theorem deficitsWaiting_last {ts} (run : (scheduler cfg arith).Exec (System.start cfg) ts s)
    (law : ∀ tr ∈ ts, DeficitLaw tr) : DeficitsWaiting s.inner := by
  cases run with
  | nil => exact deficitsWaiting_start cfg
  | snoc before step =>
      have last := law _ (List.mem_append_right _ List.mem_cons_self)
      exact last.waiting

/-- Along a run the deficit law holds after every step exactly when no round
    serves a starved flow that has a deficit entry. -/
theorem deficit_law (cfg : Config) (arith : I64Arith) {ts s}
    (run : (scheduler cfg arith).Exec (System.start cfg) ts s) :
    (∀ tr ∈ ts, DeficitLaw tr) ↔ ∀ tr ∈ ts, StarvedWithoutDeficit cfg arith tr := by
  induction run with
  | nil => simp
  | @snoc ts t a u e before step ih =>
      have inv := SystemInv.reachable ⟨ts, before⟩
      simp only [List.forall_mem_append, List.forall_mem_singleton]
      constructor
      · rintro ⟨earlier, last⟩
        have law := deficitsWaiting_last before earlier
        exact ⟨ih.mp earlier, (deficitLaw_step inv law (inv.step_of_next step)).mp last⟩
      · rintro ⟨without, last⟩
        have earlier := ih.mpr without
        have law := deficitsWaiting_last before earlier
        exact ⟨earlier, (deficitLaw_step inv law (inv.step_of_next step)).mpr last⟩

/-- `a` gains credit in the round that serves `b`, and starves while `b` holds
    the only permit. -/
def starvesWithCredit : List Action :=
  [.arrive ⟨"a"⟩ (.fin 10), .createGuard 0, .enqueue 0, .stamp 0, .notify 0,
    .arrive ⟨"b"⟩ (.fin 1), .createGuard 1, .enqueue 1, .stamp 1, .notify 1,
    .wakeNotified, .readCap, .readState, .trySelect, .send, .receive 1, .readCap, .readState,
    .tick (Duration.fromSecs 301), .dropTicket 1, .wake 1,
    .wakeNotified, .readCap, .readState, .trySelect]

/-- A run in which nobody starves. -/
theorem deficit_law_calm :
    let m := scheduler Config.onePermit .wrapping
    let ts := m.trace (starvesWithCredit.take 18)
    ts.length = 18 ∧
      ((∀ tr ∈ ts, DeficitLaw tr) ↔
        ∀ tr ∈ ts, StarvedWithoutDeficit Config.onePermit .wrapping tr) := by
  exact ⟨by decide +kernel, deficit_law Config.onePermit .wrapping (Machine.exec_after _ _)⟩

/-- The forced selection takes the last request of `a` and leaves its deficit. -/
theorem deficit_survives_forced_selection :
    let m := scheduler Config.onePermit .wrapping
    let s := m.after starvesWithCredit
    m.Reachable s ∧ s.pc = .send ⟨⟨"a"⟩, ⟨0, 0, 0, .fin 10⟩, .fin 10⟩ ∧
      s.inner.deficit.lookup ⟨"a"⟩ = some 1 ∧ s.inner.queue ⟨"a"⟩ = [] ∧
      ¬ DeficitsWaiting s.inner := by
  refine ⟨Machine.reachable_after _ _, by decide +kernel, by decide +kernel, by decide +kernel, ?_⟩
  intro law
  refine law ⟨"a"⟩ (Assoc.mem_iff_lookup.mpr ⟨1, ?_⟩) ?_
  · decide +kernel
  · decide +kernel

end TinyLlb
