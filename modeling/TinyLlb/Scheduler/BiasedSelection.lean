import Mathlib.Algebra.Order.Field.Basic
import Mathlib.Algebra.Order.Ring.Abs
import Mathlib.Data.Prod.Lex
import Mathlib.Tactic.Ring
import TinyLlb.Library.Champion
import TinyLlb.Scheduler.Rounds

/-! # Selection under the KV bias

The biased scan compares scores with a tolerance, which is no order in general. Where
one token of footprint is worth more than the tolerance it never comes into play: the
scan then keeps the smaller key in one linear order, footprint before fairness, and the
plain scan keeps the smaller key in the order of fairness.
-/

namespace TinyLlb

open OrderDual Champion

/-- Candidates as `try_select` builds them: distinct cursor indices, whole footprints. -/
structure Contested (candidates : List FlowCandidate) : Prop where
  scored : IndexScored candidates
  distinct : ∀ a ∈ candidates, ∀ b ∈ candidates, a.baseScore = b.baseScore → a = b
  whole : ∀ c ∈ candidates, ∃ tokens : Int, c.kvFootprint = tokens

namespace FlowCandidate

/-- Larger footprint first, then `cmp_fair`. -/
def Precedes (a b : FlowCandidate) : Prop :=
  b.kvFootprint < a.kvFootprint ∨ a.kvFootprint = b.kvFootprint ∧ cmpFair a b = .lt

/-- Fairness as a key: the highest priority, then the lowest base score. -/
def fairKey (c : FlowCandidate) : ℕᵒᵈ ×ₗ ℚ := toLex (toDual c.priority, c.baseScore)

/-- Footprint before fairness. -/
def biasedKey (c : FlowCandidate) : ℚᵒᵈ ×ₗ ℕᵒᵈ ×ₗ ℚ := toLex (toDual c.kvFootprint, c.fairKey)

theorem fairKey_lt_iff {a b : FlowCandidate} :
    a.fairKey < b.fairKey ↔
      b.priority < a.priority ∨ a.priority = b.priority ∧ a.baseScore < b.baseScore := by
  simp [fairKey, Prod.Lex.toLex_lt_toLex]

theorem biasedKey_lt_iff {a b : FlowCandidate} :
    a.biasedKey < b.biasedKey ↔
      b.kvFootprint < a.kvFootprint ∨ a.kvFootprint = b.kvFootprint ∧ a.fairKey < b.fairKey := by
  simp [biasedKey, Prod.Lex.toLex_lt_toLex]

end FlowCandidate

theorem f64Epsilon_pos : 0 < f64Epsilon := by norm_num [f64Epsilon]

section

variable {candidates : List FlowCandidate} {a b : FlowCandidate}

/-- `cmp_fair` and the comparison of `select_best` are the order of the keys. -/
theorem Contested.fair (contested : Contested candidates) (inA : a ∈ candidates)
    (inB : b ∈ candidates) :
    (cmpFair a b = .lt ↔ a.fairKey < b.fairKey) ∧ (a.displaces b = true ↔ a.fairKey < b.fairKey) := by
  obtain ⟨m, scoreA⟩ := contested.scored a inA
  obtain ⟨n, scoreB⟩ := contested.scored b inB
  have near : |a.baseScore - b.baseScore| < f64Epsilon ↔ a.baseScore = b.baseScore := by
    constructor
    · intro close
      rw [scoreA, scoreB] at close
      rw [scoreA, scoreB, index_gap close]
    · intro same
      rw [same, sub_self, abs_zero]
      exact f64Epsilon_pos
  rw [FlowCandidate.fairKey_lt_iff]
  by_cases same : a = b
  · subst same
    simp [cmpFair, FlowCandidate.displaces, f64Epsilon_pos]
  · have apart : a.baseScore ≠ b.baseScore := fun equal => same (contested.distinct a inA b inB equal)
    have far : ¬ |a.baseScore - b.baseScore| < f64Epsilon := fun close => apart (near.mp close)
    constructor
    · rcases lt_trichotomy a.priority b.priority with lower | equal | higher
      · simp [cmpFair, compare_gt_iff_gt.mpr lower, lower.not_gt, lower.ne]
      · rcases lt_or_gt_of_ne apart with less | more
        · simp [cmpFair, equal, far, less]
        · simp [cmpFair, equal, far, more.not_gt]
      · simp [cmpFair, compare_lt_iff_lt.mpr higher, higher]
    · simp only [FlowCandidate.displaces, far, if_false]
      split_ifs <;> simp_all

theorem Contested.perm (contested : Contested candidates) {reordered : List FlowCandidate}
    (perm : reordered.Perm candidates) : Contested reordered where
  scored c member := contested.scored c (perm.mem_iff.mp member)
  distinct a inA b inB := contested.distinct a (perm.mem_iff.mp inA) b (perm.mem_iff.mp inB)
  whole c member := contested.whole c (perm.mem_iff.mp member)

/-- The body of the biased loop: does `cand` beat the best so far? -/
def beatsBiased (weight maxFootprint : ℚ) (cand best : FlowCandidate) : Bool :=
  let score := weight * (cand.kvFootprint / maxFootprint)
  let bestScore := weight * (best.kvFootprint / maxFootprint)
  if |score - bestScore| > f64Epsilon then decide (score > bestScore)
  else cmpFair cand best == .lt

theorem beatsBiased_of_eq (weight maxFootprint : ℚ) (same : a.kvFootprint = b.kvFootprint) :
    beatsBiased weight maxFootprint a b = (cmpFair a b == .lt) := by
  simp [beatsBiased, same, f64Epsilon_pos.not_gt]

theorem Contested.biased (contested : Contested candidates) {weight maxFootprint : ℚ}
    (coarse : f64Epsilon < weight / maxFootprint) (inA : a ∈ candidates) (inB : b ∈ candidates) :
    beatsBiased weight maxFootprint a b = true ↔ a.biasedKey < b.biasedKey := by
  rw [FlowCandidate.biasedKey_lt_iff]
  by_cases same : a.kvFootprint = b.kvFootprint
  · rw [beatsBiased_of_eq _ _ same, beq_iff_eq, (contested.fair inA inB).1]
    simp [same]
  · obtain ⟨m, tokensA⟩ := contested.whole a inA
    obtain ⟨n, tokensB⟩ := contested.whole b inB
    have positive : 0 < weight / maxFootprint := f64Epsilon_pos.trans coarse
    have gap : weight * (a.kvFootprint / maxFootprint) - weight * (b.kvFootprint / maxFootprint) =
        weight / maxFootprint * (a.kvFootprint - b.kvFootprint) := by ring
    have apart : (1 : ℚ) ≤ |a.kvFootprint - b.kvFootprint| := by
      have different : m ≠ n := fun equal => same (by rw [tokensA, tokensB, equal])
      rw [tokensA, tokensB]
      exact_mod_cast Int.one_le_abs (sub_ne_zero.mpr different)
    have visible : f64Epsilon <
        |weight * (a.kvFootprint / maxFootprint) - weight * (b.kvFootprint / maxFootprint)| := by
      rw [gap, abs_mul, abs_of_pos positive]
      exact coarse.trans_le (le_mul_of_one_le_right positive.le apart)
    have larger : weight * (b.kvFootprint / maxFootprint) < weight * (a.kvFootprint / maxFootprint) ↔
        b.kvFootprint < a.kvFootprint := by
      rw [← sub_pos, gap, mul_pos_iff_of_pos_left positive, sub_pos]
    simp [beatsBiased, visible, larger, same]

end

theorem bestCandidate_eq (candidates : List FlowCandidate) :
    bestCandidate candidates = champion FlowCandidate.displaces candidates := by
  unfold bestCandidate champion
  congr 1
  funext best cand
  cases best <;> rfl

theorem biasedStep_some (weight maxFootprint : ℚ) (cand best : FlowCandidate) :
    KvBiasHandle.biasedStep weight maxFootprint
        (some (best, weight * (best.kvFootprint / maxFootprint))) cand =
      if beatsBiased weight maxFootprint cand best then
        some (cand, weight * (cand.kvFootprint / maxFootprint))
      else some (best, weight * (best.kvFootprint / maxFootprint)) := rfl

theorem foldBiased_eq (weight maxFootprint : ℚ) (candidates : List FlowCandidate) :
    candidates.foldl (KvBiasHandle.biasedStep weight maxFootprint) none =
      (champion (beatsBiased weight maxFootprint) candidates).map
        fun c => (c, weight * (c.kvFootprint / maxFootprint)) := by
  induction candidates using List.reverseRecOn with
  | nil => rfl
  | append_singleton candidates cand ih =>
      rw [List.foldl_append, List.foldl_cons, List.foldl_nil, ih, champion_snoc]
      cases champion (beatsBiased weight maxFootprint) candidates with
      | none => rfl
      | some best =>
          simp only [Option.map_some, biasedStep_some, keep]
          split <;> rfl

namespace KvBiasHandle

variable {h : KvBiasHandle} {candidates : List FlowCandidate} {pressure largest : ℚ}

theorem weight_nonneg (h : KvBiasHandle) (pressure : ℚ) : 0 ≤ h.weight pressure := by
  unfold weight
  split
  · unfold biasWeight
    simp only
    split
    · exact le_rfl
    · split
      · exact zero_le_one
      · rename_i above below
        push Not at above below
        exact div_nonneg (by linarith) (by linarith)
  · exact le_rfl

theorem select_of_equal (contested : Contested candidates)
    (equal : ∀ a ∈ candidates, ∀ b ∈ candidates, a.kvFootprint = b.kvFootprint) (pressure : ℚ) :
    h.select candidates pressure = selectBest candidates := by
  unfold select
  simp only
  split
  · rfl
  · split
    · rfl
    · rw [foldBiased_eq, selectBest, bestCandidate_eq, Option.map_map]
      have same : champion (beatsBiased (h.weight pressure)
            ((candidates.map FlowCandidate.kvFootprint).foldl max 0)) candidates =
          champion FlowCandidate.displaces candidates := by
        apply champion_congr
        intro a inA b inB
        have fair := contested.fair inA inB
        rw [beatsBiased_of_eq _ _ (equal a inA b inB), Bool.eq_iff_iff, beq_iff_eq, fair.1, fair.2]
      rw [same]
      rfl

theorem select_of_nonpositive (none_ : ∀ c ∈ candidates, c.kvFootprint ≤ 0) (pressure : ℚ) :
    h.select candidates pressure = selectBest candidates := by
  have largest := foldl_max_isGreatest (0 : ℚ) (candidates.map FlowCandidate.kvFootprint)
  have low : (candidates.map FlowCandidate.kvFootprint).foldl max 0 ≤ 0 := by
    rcases largest.1 with zero | member
    · exact zero.le
    · obtain ⟨c, inside, same⟩ := List.mem_map.mp member
      exact same ▸ none_ c inside
  simp [select, low]

/-- The winner: nobody precedes it, and only one candidate is like that. -/
def IsFirst (candidates : List FlowCandidate) (winner : FlowCandidate) : Prop :=
  winner ∈ candidates ∧ ∀ c ∈ candidates, ¬ c.Precedes winner

theorem isFirst_iff (contested : Contested candidates) {winner : FlowCandidate}
    (member : winner ∈ candidates) :
    IsFirst candidates winner ↔ ∀ c ∈ candidates, winner.biasedKey ≤ c.biasedKey := by
  have order : ∀ c ∈ candidates, c.Precedes winner ↔ c.biasedKey < winner.biasedKey := by
    intro c inside
    rw [FlowCandidate.biasedKey_lt_iff, FlowCandidate.Precedes, (contested.fair inside member).1]
  constructor
  · intro first c inside
    exact not_lt.mp fun less => first.2 c inside ((order c inside).mpr less)
  · intro least
    exact ⟨member, fun c inside precedes => ((order c inside).mp precedes).not_ge (least c inside)⟩

theorem isFirst_unique (contested : Contested candidates) {v w : FlowCandidate}
    (firstV : IsFirst candidates v) (firstW : IsFirst candidates w) : v = w := by
  have distinct : ∀ a ∈ candidates, ∀ b ∈ candidates, a.biasedKey = b.biasedKey → a = b := by
    intro a inA b inB same
    exact contested.distinct a inA b inB (congrArg (fun key => (ofLex (ofLex key).2).2) same)
  exact least_unique distinct firstV.1 firstW.1 ((isFirst_iff contested firstV.1).mp firstV)
    ((isFirst_iff contested firstW.1).mp firstW)

theorem select_of_coarse (contested : Contested candidates)
    (greatest : IsGreatest {x | x ∈ candidates.map FlowCandidate.kvFootprint} largest)
    (coarse : f64Epsilon < h.weight pressure / largest) :
    ∃ winner, IsFirst candidates winner ∧ h.select candidates pressure = some winner.flowId := by
  have nonempty : candidates ≠ [] := by
    rintro rfl
    exact absurd greatest.1 (by simp)
  have quotient : 0 < h.weight pressure / largest := f64Epsilon_pos.trans coarse
  have weighs : 0 < h.weight pressure :=
    (h.weight_nonneg pressure).lt_of_ne fun zero => by simp [← zero] at quotient
  have positive : 0 < largest := (div_pos_iff_of_pos_left weighs).mp quotient
  have scanned := foldl_max_isGreatest (0 : ℚ) (candidates.map FlowCandidate.kvFootprint)
  have found : (candidates.map FlowCandidate.kvFootprint).foldl max 0 = largest := by
    apply le_antisymm
    · rcases scanned.1 with zero | member
      · rw [zero]
        exact positive.le
      · exact greatest.2 member
    · exact scanned.2 (.inr greatest.1)
  have smaller : ∀ a ∈ candidates, ∀ b ∈ candidates,
      beatsBiased (h.weight pressure) largest a b = true ↔ a.biasedKey < b.biasedKey :=
    fun a inA b inB => contested.biased coarse inA inB
  obtain ⟨winner, member, won, least⟩ := champion_least smaller nonempty
  refine ⟨winner, (isFirst_iff contested member).mpr least, ?_⟩
  simp [select, found, weighs.not_ge, positive.not_ge, nonempty, foldBiased_eq, won]

end KvBiasHandle

variable {env : SelectEnv} {registry : FlowRegistry} {waiting : Waiting}

theorem mem_candidates {entries : List (FlowId × Nat)} {cands : List FlowCandidate}
    (built : TrySelect.candidates env registry waiting entries = .ok cands) {c : FlowCandidate}
    (member : c ∈ cands) : ∃ e ∈ entries, TrySelect.candidate env registry waiting e = .ok c := by
  induction entries generalizing cands with
  | nil =>
      obtain rfl := Except.ok.inj built
      simp at member
  | cons e rest ih =>
      unfold TrySelect.candidates at built
      split at built
      · rename_i first others made rest_
        obtain rfl := Except.ok.inj built
        rcases List.mem_cons.mp member with rfl | later
        · exact ⟨e, by simp, made⟩
        · obtain ⟨e', inRest, made'⟩ := ih rest_ later
          exact ⟨e', List.mem_cons_of_mem _ inRest, made'⟩
      · cases built
      · cases built

theorem candidate_fields {e : FlowId × Nat} {c : FlowCandidate}
    (made : TrySelect.candidate env registry waiting e = .ok c) :
    c.baseScore = (e.2 : ℚ) ∧ c.kvFootprint = (env.kvBias.delivered e.1 : ℚ) := by
  unfold TrySelect.candidate at made
  split at made
  · cases made
  · obtain rfl := Except.ok.inj made
    exact ⟨rfl, rfl⟩

theorem contested_of_candidates {s : DrrState} (inv : RepInv s) {cands : List FlowCandidate}
    (built : TrySelect.candidates env registry waiting
      (TrySelect.accumulate env registry s).eligible = .ok cands) : Contested cands := by
  refine ⟨?_, ?_, ?_⟩
  · intro c member
    obtain ⟨e, -, made⟩ := mem_candidates built member
    exact ⟨e.2, (candidate_fields made).1⟩
  · intro a inA b inB same
    obtain ⟨e, inE, madeA⟩ := mem_candidates built inA
    obtain ⟨e', inE', madeB⟩ := mem_candidates built inB
    -- The score is the index in the cursor, and the index tells the flow.
    rw [(candidate_fields madeA).1, (candidate_fields madeB).1, Nat.cast_inj] at same
    have position := ((mem_eligible_iff inv).mp inE).1
    rw [same, ((mem_eligible_iff inv).mp inE').1, Option.some.injEq] at position
    have entries : e = e' := Prod.ext position.symm same
    rw [entries, madeB] at madeA
    exact (Except.ok.inj madeA).symm
  · intro c member
    obtain ⟨e, -, made⟩ := mem_candidates built member
    exact ⟨env.kvBias.delivered e.1, (candidate_fields made).2⟩

/-- `select` over every list of candidates: the plain rule where the bias has nothing to
    say, and otherwise one winner, whatever the order of the list and the pressure. -/
theorem kv_biased_selection (h : KvBiasHandle) {candidates : List FlowCandidate}
    (contested : Contested candidates) (nonempty : candidates ≠ []) (pressure : ℚ) :
    (h.config.enabled = false ∨ h.biasWeight pressure = 0 ∨
        (∀ a ∈ candidates, ∀ b ∈ candidates, a.kvFootprint = b.kvFootprint) ∨
        (∀ c ∈ candidates, c.kvFootprint ≤ 0) →
      h.select candidates pressure = selectBest candidates) ∧
    (∀ largest, IsGreatest {x | x ∈ candidates.map FlowCandidate.kvFootprint} largest →
      f64Epsilon < h.weight pressure / largest →
      ∃ winner ∈ candidates,
        (∀ c ∈ candidates, ¬ c.Precedes winner) ∧
        (∀ other ∈ candidates, (∀ c ∈ candidates, ¬ c.Precedes other) → other = winner) ∧
        ∀ reordered, reordered.Perm candidates →
          ∀ pressure', f64Epsilon < h.weight pressure' / largest →
            h.select reordered pressure' = some winner.flowId) ∧
    ∃ winner ∈ candidates, h.select candidates pressure = some winner.flowId := by
  refine ⟨?_, ?_, h.select_member pressure nonempty contested.scored⟩
  · rintro (disabled | weightless | equal | none_)
    · exact KvBiasHandle.select_of_weight_zero (by simp [KvBiasHandle.weight, disabled])
    · exact KvBiasHandle.select_of_weight_zero (by simp [KvBiasHandle.weight, weightless])
    · exact KvBiasHandle.select_of_equal contested equal pressure
    · exact KvBiasHandle.select_of_nonpositive none_ pressure
  · intro largest greatest coarse
    obtain ⟨winner, first, -⟩ := KvBiasHandle.select_of_coarse contested greatest coarse
    refine ⟨winner, first.1, first.2, ?_, ?_⟩
    · exact fun other member none_ => KvBiasHandle.isFirst_unique contested ⟨member, none_⟩ first
    · intro reordered perm pressure' coarse'
      obtain ⟨winner', first', selected⟩ :=
        KvBiasHandle.select_of_coarse (contested.perm perm)
          (by simpa only [List.mem_map, perm.mem_iff] using greatest) coarse'
      have same : winner' = winner := KvBiasHandle.isFirst_unique contested
        ⟨perm.mem_iff.mp first'.1, fun c member => first'.2 c (perm.mem_iff.mpr member)⟩ first
      rw [selected, same]

/-- A chat of high priority and an agent that holds most of the cache. -/
def chatCandidate : FlowCandidate :=
  { flowId := ⟨"chat"⟩, priority := 9, enqueuedAt := 20, baseScore := 0, kvFootprint := 100 }

def agentCandidate : FlowCandidate :=
  { flowId := ⟨"agent"⟩, priority := 1, enqueuedAt := 50, baseScore := 1, kvFootprint := 5000 }

def defaultBias : KvBiasHandle := ⟨SchedulerConfig.default.kvBias, 0, fun _ => 0⟩

/-- The agent is served from three quarters of the cache on, in either order. -/
theorem kv_biased_selection_agent :
    defaultBias.select [agentCandidate, chatCandidate] (9 / 10) = some ⟨"agent"⟩ := by
  have contested : Contested [chatCandidate, agentCandidate] := by
    refine ⟨?_, ?_, ?_⟩
    · simpa [IndexScored, chatCandidate, agentCandidate] using ⟨⟨0, rfl⟩, ⟨1, rfl⟩⟩
    · simp [chatCandidate, agentCandidate]
    · simpa [chatCandidate, agentCandidate] using ⟨⟨100, rfl⟩, ⟨5000, rfl⟩⟩
  have largest : IsGreatest
      {x | x ∈ [chatCandidate, agentCandidate].map FlowCandidate.kvFootprint} 5000 := by
    constructor
    · simp [agentCandidate]
    · intro x member
      simp only [List.map_cons, List.map_nil, List.mem_cons, List.not_mem_nil, or_false,
        Set.mem_ofPred_eq] at member
      rcases member with rfl | rfl <;> norm_num [chatCandidate, agentCandidate]
  have full : defaultBias.weight (9 / 10) = 1 := by
    norm_num [KvBiasHandle.weight, KvBiasHandle.biasWeight, defaultBias, SchedulerConfig.default]
  have three : defaultBias.weight (3 / 4) = 5 / 8 := by
    norm_num [KvBiasHandle.weight, KvBiasHandle.biasWeight, defaultBias, SchedulerConfig.default]
  obtain ⟨winner, -, -, only, everywhere⟩ := (kv_biased_selection defaultBias contested (by simp)
    (3 / 4)).2.1 5000 largest (by rw [three]; norm_num [f64Epsilon])
  have agent : agentCandidate = winner := by
    apply only agentCandidate (by simp)
    norm_num [FlowCandidate.Precedes, cmpFair, chatCandidate, agentCandidate, f64Epsilon]
    decide
  have selected := everywhere [agentCandidate, chatCandidate] (List.Perm.swap _ _ _) (9 / 10)
    (by rw [full]; norm_num [f64Epsilon])
  rw [selected, ← agent]
  rfl

end TinyLlb
