import TinyLlb.Scheduler.Drr

/-! # What a round accumulates

Phase 2 walks the cursor once. Because the cursor has no repetition, the deficit
that an entry sees is the one from before the round, so the whole walk has a
closed form: who is credited, what the deficits become, and which entries are
eligible.
-/

namespace TinyLlb.TrySelect

variable (env : SelectEnv) (registry : FlowRegistry)

/-- A flow that gains deficit in a round: it waits and its weight truncates to at
    least 1. -/
def credits (waiting : Waiting) (flowId : FlowId) : Bool :=
  hasWaiting waiting flowId && decide (0 < (registry.getOrCreate flowId).truncWeight)

/-- The deficit a credited flow ends the round with. -/
def raise (deficit : Assoc FlowId Int) (flowId : FlowId) : Int :=
  env.arith.store
    ((deficit.lookup flowId).getD 0 + (registry.getOrCreate flowId).truncWeight)

/-- Phase 2's test: a credited flow whose raised deficit covers its head. -/
def affordable (waiting : Waiting) (deficit : Assoc FlowId Int) (flowId : FlowId) : Bool :=
  match waiting.lookup flowId with
  | some (head :: _) =>
      credits registry waiting flowId && decide (head.cost ≤ raise env registry deficit flowId)
  | _ => false

variable {env registry}

theorem hasWaiting_iff {waiting : Waiting} {flowId : FlowId} :
    hasWaiting waiting flowId = true ↔
      ∃ head rest, waiting.lookup flowId = some (head :: rest) := by
  unfold hasWaiting
  cases waiting.lookup flowId with
  | none => simp
  | some queue => cases queue <;> simp

theorem credits_iff {waiting : Waiting} {flowId : FlowId} :
    credits registry waiting flowId = true ↔
      hasWaiting waiting flowId = true ∧ 0 < (registry.getOrCreate flowId).truncWeight := by
  simp [credits]

theorem affordable_iff {waiting : Waiting} {deficit : Assoc FlowId Int} {flowId : FlowId} :
    affordable env registry waiting deficit flowId = true ↔
      ∃ head rest, waiting.lookup flowId = some (head :: rest) ∧
        0 < (registry.getOrCreate flowId).truncWeight ∧
        head.cost ≤ raise env registry deficit flowId := by
  unfold affordable
  constructor
  · intro h
    split at h
    · rename_i head rest found
      simp only [Bool.and_eq_true, decide_eq_true_eq, credits_iff] at h
      exact ⟨head, rest, found, h.1.2, h.2⟩
    · simp at h
  · rintro ⟨head, rest, found, positive, enough⟩
    simp only [found, Bool.and_eq_true, decide_eq_true_eq, credits_iff]
    exact ⟨⟨hasWaiting_iff.mpr ⟨head, rest, found⟩, positive⟩, enough⟩

theorem credits_of_affordable {waiting : Waiting} {deficit : Assoc FlowId Int}
    {flowId : FlowId} (h : affordable env registry waiting deficit flowId = true) :
    credits registry waiting flowId = true := by
  obtain ⟨head, rest, found, positive, -⟩ := affordable_iff.mp h
  exact credits_iff.mpr ⟨hasWaiting_iff.mpr ⟨head, rest, found⟩, positive⟩

theorem accumulateStep_eq (waiting : Waiting) (acc : Accumulation) (entry : FlowId × Nat) :
    accumulateStep env registry waiting acc entry =
      if credits registry waiting entry.1 then
        { deficit := acc.deficit.insert entry.1 (raise env registry acc.deficit entry.1)
          eligible :=
            if affordable env registry waiting acc.deficit entry.1 then acc.eligible ++ [entry]
            else acc.eligible
          credited := true }
      else acc := by
  unfold accumulateStep
  cases found : waiting.lookup entry.1 with
  | none => simp [credits, hasWaiting, found]
  | some queue =>
      cases queue with
      | nil => simp [credits, hasWaiting, found]
      | cons head rest =>
          by_cases positive : (registry.getOrCreate entry.1).truncWeight ≤ 0
          · simp [credits, positive, not_lt.mpr positive]
          · by_cases enough : head.cost ≤ env.arith.store
                ((acc.deficit.lookup entry.1).getD 0 + (registry.getOrCreate entry.1).truncWeight)
            · simp [credits, hasWaiting, affordable, raise, found, positive, not_le.mp positive, enough]
            · simp [credits, hasWaiting, affordable, raise, found, positive, not_le.mp positive, enough]

/-- The whole walk. Entries are processed in order and each flow occurs once, so
    a flow further down still has the deficit it started with. -/
theorem foldAccumulate_eq (env : SelectEnv) (registry : FlowRegistry) (waiting : Waiting)
    (entries : List (FlowId × Nat))
    (nodup : (entries.map Prod.fst).Nodup) (acc : Accumulation) :
    (∀ f, (entries.foldl (accumulateStep env registry waiting) acc).deficit.lookup f =
      if f ∈ entries.map Prod.fst ∧ credits registry waiting f = true then
        some (raise env registry acc.deficit f)
      else acc.deficit.lookup f) ∧
    (entries.foldl (accumulateStep env registry waiting) acc).eligible =
      acc.eligible ++ entries.filter
        (fun entry => affordable env registry waiting acc.deficit entry.1) ∧
    (entries.foldl (accumulateStep env registry waiting) acc).credited =
      (acc.credited || entries.any fun entry => credits registry waiting entry.1) := by
  induction entries generalizing acc with
  | nil => simp
  | cons entry rest ih =>
      simp only [List.map_cons, List.nodup_cons] at nodup
      obtain ⟨fresh, nodup⟩ := nodup
      rw [List.foldl_cons]
      cases credited : credits registry waiting entry.1 with
      | false =>
          have stepped : accumulateStep env registry waiting acc entry = acc := by
            simp only [accumulateStep_eq, credited, Bool.false_eq_true, if_false]
          have notAffordable : affordable env registry waiting acc.deficit entry.1 = false := by
            by_contra h
            simp [credits_of_affordable (Bool.eq_true_of_not_eq_false h)] at credited
          obtain ⟨deficit, eligible, flag⟩ := ih nodup acc
          rw [stepped]
          refine ⟨?_, ?_, ?_⟩
          · intro f
            simp only [deficit f, List.map_cons, List.mem_cons]
            by_cases same : f = entry.1
            · simp [same, credited]
            · simp only [same, false_or]
          · simpa [notAffordable] using eligible
          · simpa [credited] using flag
      | true =>
          obtain ⟨after, stepped⟩ : ∃ after, accumulateStep env registry waiting acc entry = after :=
            ⟨_, rfl⟩
          have afterDeficit : after.deficit =
              acc.deficit.insert entry.1 (raise env registry acc.deficit entry.1) := by
            rw [← stepped, accumulateStep_eq, if_pos credited]
          have afterEligible : after.eligible =
              if affordable env registry waiting acc.deficit entry.1 then acc.eligible ++ [entry]
              else acc.eligible := by
            rw [← stepped, accumulateStep_eq, if_pos credited]
          have afterCredited : after.credited = true := by
            rw [← stepped, accumulateStep_eq, if_pos credited]
          obtain ⟨deficit, eligible, flag⟩ := ih nodup after
          have unchanged : ∀ f ∈ rest.map Prod.fst,
              after.deficit.lookup f = acc.deficit.lookup f := by
            intro f member
            have other : f ≠ entry.1 := by
              rintro rfl
              exact fresh member
            rw [afterDeficit, Assoc.lookup_insert, if_neg other]
          rw [stepped]
          refine ⟨?_, ?_, ?_⟩
          · intro f
            simp only [deficit f, List.map_cons, List.mem_cons]
            by_cases same : f = entry.1
            · simp [same, fresh, credited, afterDeficit, Assoc.lookup_insert]
            · by_cases later : f ∈ rest.map Prod.fst
              · simp only [raise, unchanged f later, later, same, false_or]
              · simp only [later, same, afterDeficit, Assoc.lookup_insert, false_or, false_and, if_false]
          · have sameTest : rest.filter
                  (fun e => affordable env registry waiting after.deficit e.1) =
                rest.filter (fun e => affordable env registry waiting acc.deficit e.1) := by
              apply List.filter_congr
              intro e member
              have known : raise env registry after.deficit e.1 =
                  raise env registry acc.deficit e.1 := by
                simp only [raise, unchanged e.1 (List.mem_map_of_mem member)]
              simp only [affordable, known]
            rw [eligible, sameTest, afterEligible]
            cases enough : affordable env registry waiting acc.deficit entry.1 <;>
              simp [enough]
          · simp [flag, afterCredited, credited]

theorem zipIdx_map_fst (c : List FlowId) : c.zipIdx.map Prod.fst = c := by
  simp

/-- Phase 2 in closed form. -/
theorem accumulate_deficit {s : DrrState} (nodup : s.rrCursor.Nodup) (f : FlowId) :
    (accumulate env registry s).deficit.lookup f =
      if f ∈ s.rrCursor ∧ credits registry s.waiting f = true then
        some (raise env registry s.deficit f)
      else s.deficit.lookup f := by
  have walk := (foldAccumulate_eq env registry s.waiting s.rrCursor.zipIdx
    (by rwa [zipIdx_map_fst]) ⟨s.deficit, [], false⟩).1 f
  rwa [zipIdx_map_fst] at walk

theorem accumulate_eligible {s : DrrState} (nodup : s.rrCursor.Nodup) :
    (accumulate env registry s).eligible =
      s.rrCursor.zipIdx.filter fun entry => affordable env registry s.waiting s.deficit entry.1 := by
  have walk := (foldAccumulate_eq env registry s.waiting s.rrCursor.zipIdx
    (by rwa [zipIdx_map_fst]) ⟨s.deficit, [], false⟩).2.1
  simpa only [accumulate, List.nil_append] using walk

theorem accumulate_credited {s : DrrState} (nodup : s.rrCursor.Nodup) :
    (accumulate env registry s).credited = true ↔
      ∃ f ∈ s.rrCursor, credits registry s.waiting f = true := by
  have walk := (foldAccumulate_eq env registry s.waiting s.rrCursor.zipIdx
    (by rwa [zipIdx_map_fst]) ⟨s.deficit, [], false⟩).2.2
  unfold accumulate
  rw [walk]
  simp only [Bool.false_or, List.any_eq_true]
  constructor
  · rintro ⟨entry, member, credited⟩
    exact ⟨entry.1, (zipIdx_map_fst s.rrCursor) ▸ List.mem_map_of_mem member, credited⟩
  · rintro ⟨f, member, credited⟩
    rw [← zipIdx_map_fst s.rrCursor] at member
    obtain ⟨entry, inEntries, rfl⟩ := List.mem_map.mp member
    exact ⟨entry, inEntries, credited⟩

end TinyLlb.TrySelect
