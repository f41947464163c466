import Mathlib.Algebra.Order.Archimedean.Basic
import Mathlib.Tactic.Linarith
import TinyLlb.Runtime.Competition

/-! # Weighted fairness

A selection clears the deficit of the flow it serves instead of charging the cost
to it. Two flows whose requests cost less than their weights therefore take turns
whatever these weights are, and the work they are served drifts apart without
bound. So no bound on the lag exists unless there is nobody to lag behind, or
nothing to serve.
-/

namespace TinyLlb

/-- In every run that the promise covers, over every interval in which two flows
    stay backlogged, their served work per weight differs by at most `bound`. -/
def WeightedFair (arith : I64Arith) (flows : Finset FlowId) (w : FlowId → ℕ) (most bound : ℚ) :
    Prop :=
  ∀ cfg priority before s ts s', cfg.scheduler.kvBias.enabled = false →
    (scheduler cfg arith).Exec (System.start cfg) before s →
    (scheduler cfg arith).Exec s ts s' →
    (∀ tr ∈ before ++ ts, Competes flows w most priority tr) →
    ∀ i ∈ flows, ∀ j ∈ flows, Backlogged i ts → Backlogged j ts →
      |served i ts / w i - served j ts / w j| ≤ bound

section

variable {arith : I64Arith} {flows : Finset FlowId} {w : FlowId → ℕ} {most : ℚ} {x y : FlowId}

theorem shares_of_weights (weights : ∀ f ∈ [x, y], 1 ≤ w f) :
    Duel.Shares (truncShare w) ⟨x, y, 0, 0⟩ := by
  intro f member
  have weight := weights f member
  rw [truncShare, F64.asI64_natCast]
  simp only [i64Max]
  omega

/-- Two flows whose costs truncate alike can be driven through any number of
    rounds of their duel, backlogged all the time. -/
theorem exists_drift (need : Int) (c : FlowId → ℚ) (apart : x ≠ y)
    (inFlows : ∀ f ∈ [x, y], f ∈ flows) (weights : ∀ f ∈ [x, y], 1 ≤ w f)
    (bounds : ∀ f ∈ [x, y], 0 ≤ c f ∧ c f ≤ most)
    (needs : ∀ f ∈ [x, y], F64.asI64 (.fin (c f)) = need) {bound : ℚ}
    (fair : WeightedFair arith flows w most bound) (n : Nat) :
    |c x * ((Duel.winners arith (truncShare w) need n ⟨x, y, 0, 0⟩).count x : ℕ) / w x -
      c y * ((Duel.winners arith (truncShare w) need n ⟨x, y, 0, 0⟩).count y : ℕ) / w y| ≤ bound := by
  obtain ⟨before, s, run, competes, contest⟩ :=
    exists_contest arith apart inFlows weights bounds needs n
  obtain ⟨ts, s', run', competes', backlogged, work⟩ :=
    contest.rounds ⟨before, run⟩ most (shares_of_weights weights) inFlows
  have lag := fair .unbiased 50 before s ts s' rfl run run' (by
    intro tr member
    cases List.mem_append.mp member with
    | inl first => exact competes tr first
    | inr second => exact competes' tr second) x (inFlows x (by simp)) y (inFlows y (by simp))
    (backlogged x (by simp)) (backlogged y (by simp))
  rw [work, work] at lag
  exact lag

/-- No two flows are treated fairly once requests cost something. Halving the
    cost of one flow's requests does not change who is served, so a bound that
    covers both costs bounds the number of turns itself. -/
theorem not_fair_of_two (apart : x ≠ y) (inFlows : ∀ f ∈ [x, y], f ∈ flows)
    (weights : ∀ f ∈ [x, y], 1 ≤ w f) (costly : 0 < most) :
    ¬ ∃ bound, WeightedFair arith flows w most bound := by
  rintro ⟨bound, fair⟩
  let m := min most (1 / 2)
  have positive : 0 < m := lt_min costly (by norm_num)
  have small : m < 1 := lt_of_le_of_lt (min_le_right _ _) (by norm_num)
  have within : m ≤ most := min_le_left _ _
  -- Every cost is cut to 0, so both runs are the same duel.
  have full := exists_drift 0 (fun _ => m) apart inFlows weights
    (fun f _ => ⟨positive.le, within⟩) (fun f _ => F64.asI64_of_lt_one positive.le small) fair
  have half := exists_drift 0 (fun f => if f = x then m else m / 2) apart inFlows weights
    (by
      intro f _
      split <;> constructor <;> linarith)
    (by
      intro f _
      split <;> apply F64.asI64_of_lt_one <;> linarith) fair
  have weightX : (0 : ℚ) < w x := by exact_mod_cast weights x (by simp)
  have weightY : (0 : ℚ) < w y := by exact_mod_cast weights y (by simp)
  obtain ⟨k, large⟩ := exists_nat_gt ((5 * bound * w x + 4 * bound * w y) / m)
  have free : (0 : Int) ≤ 1 := by norm_num
  obtain ⟨n, many⟩ := Duel.winners_unbounded free (Duel.Stored.zero arith x y)
    (shares_of_weights weights) k
  rw [Duel.length_winners apart] at many
  have fullLag := abs_le.mp (full n)
  have halfLag := abs_le.mp (half n)
  simp only [apart.symm, if_true, if_false] at halfLag
  generalize (Duel.winners arith (truncShare w) 0 n ⟨x, y, 0, 0⟩).count x = turnsX at *
  generalize (Duel.winners arith (truncShare w) 0 n ⟨x, y, 0, 0⟩).count y = turnsY at *
  have split_ : m / 2 * turnsY / w y = m * turnsY / w y / 2 := by ring
  rw [split_] at halfLag
  have lagY : m * turnsY / w y ≤ 4 * bound := by linarith [fullLag.1, fullLag.2, halfLag.1, halfLag.2]
  have lagX : m * turnsX / w x ≤ 5 * bound := by linarith [fullLag.1, fullLag.2]
  rw [div_le_iff₀ weightX] at lagX
  rw [div_le_iff₀ weightY] at lagY
  rw [div_lt_iff₀ positive] at large
  have total : (k : ℚ) ≤ turnsX + turnsY := by exact_mod_cast many
  have paid : k * m ≤ (turnsX + turnsY) * m := mul_le_mul_of_nonneg_right total positive.le
  linarith

end

/-- A bound on the weighted lag exists exactly where there are no two flows, or
    where requests cost nothing. -/
theorem weighted_fairness (arith : I64Arith) (flows : Finset FlowId) (w : FlowId → ℕ) (most : ℚ)
    (weights : ∀ f ∈ flows, 1 ≤ w f) :
    (∃ bound, WeightedFair arith flows w most bound) ↔ flows.card ≤ 1 ∨ most ≤ 0 := by
  constructor
  · intro fair
    by_contra neither
    rw [not_or, not_le, not_le] at neither
    obtain ⟨x, inX, y, inY, apart⟩ := Finset.one_lt_card.mp neither.1
    have inFlows : ∀ f ∈ [x, y], f ∈ flows := by
      intro f member
      simp only [List.mem_cons, List.not_mem_nil, or_false] at member
      obtain rfl | rfl := member
      · exact inX
      · exact inY
    exact not_fair_of_two apart inFlows (fun f member => weights f (inFlows f member)) neither.2 fair
  · intro easy
    refine ⟨0, ?_⟩
    intro cfg priority before s ts s' _ run run' competes i inI j inJ _ _
    cases easy with
    | inl alone =>
        obtain rfl := Finset.card_le_one.mp alone i inI j inJ
        simp
    | inr free =>
        rw [served_of_free free run run' competes, served_of_free free run run' competes]
        simp

/-- A single flow is treated fairly, two flows are not. -/
theorem weighted_fairness_pair :
    (∃ bound, WeightedFair .wrapping {⟨"a"⟩} (fun _ => 3) 100 bound) ∧
      ¬ ∃ bound, WeightedFair .wrapping {⟨"a"⟩, ⟨"b"⟩} (fun _ => 3) 100 bound := by
  constructor
  · exact (weighted_fairness .wrapping _ _ _ (by simp)).mpr (.inl (by decide))
  · rw [weighted_fairness .wrapping _ _ _ (by simp), not_or, not_le, not_le]
    exact ⟨by decide, by norm_num⟩

/-- Weight 1 for the first flow, 2 for the others. -/
def oneToTwo (f : FlowId) : ℕ := if f = ⟨"a"⟩ then 1 else 2

/-- With requests of cost 1 the flow of weight 2 gets no more turns than the one
    of weight 1. -/
theorem even_turns (n : Nat) (ahead : Int) (small : ahead = 0 ∨ ahead = 1) :
    let turns := Duel.winners .wrapping (truncShare oneToTwo) 1 (2 * n) ⟨⟨"a"⟩, ⟨"b"⟩, ahead, 0⟩
    turns.count ⟨"a"⟩ = n ∧ turns.count ⟨"b"⟩ = n := by
  induction n generalizing ahead with
  | zero => exact ⟨rfl, rfl⟩
  | succ n ih =>
      have first : (⟨⟨"a"⟩, ⟨"b"⟩, ahead, 0⟩ : Duel).round .wrapping (truncShare oneToTwo) 1 =
          (some ⟨"a"⟩, ⟨⟨"b"⟩, ⟨"a"⟩, 2, 0⟩) := by
        obtain rfl | rfl := small <;> decide +kernel
      have second : (⟨⟨"b"⟩, ⟨"a"⟩, 2, 0⟩ : Duel).round .wrapping (truncShare oneToTwo) 1 =
          (some ⟨"b"⟩, ⟨⟨"a"⟩, ⟨"b"⟩, 1, 0⟩) := by decide +kernel
      obtain ⟨turnsA, turnsB⟩ := ih 1 (.inr rfl)
      rw [Nat.mul_succ, Duel.winners, Duel.winners, first, second]
      simp [turnsA, turnsB]

/-- Two backlogged flows of weights 1 and 2 with requests of cost 1: over `2 * n`
    turns their weighted lag is `n / 2`. -/
theorem turns_ignore_weights :
    ¬ ∃ bound, WeightedFair .wrapping {⟨"a"⟩, ⟨"b"⟩} oneToTwo 1 bound := by
  rintro ⟨bound, fair⟩
  obtain ⟨n, large⟩ := exists_nat_gt (2 * bound)
  obtain ⟨turnsA, turnsB⟩ := even_turns n 0 (.inl rfl)
  have lag := exists_drift 1 (fun _ => 1) (x := ⟨"a"⟩) (y := ⟨"b"⟩) (by decide)
    (by simp) (by decide) (by intro f _; norm_num) (by intro f _; decide +kernel) fair (2 * n)
  rw [turnsA, turnsB] at lag
  have weightA : oneToTwo ⟨"a"⟩ = 1 := by decide
  have weightB : oneToTwo ⟨"b"⟩ = 2 := by decide
  rw [weightA, weightB] at lag
  have upper := (abs_le.mp lag).2
  push_cast at upper
  linarith

end TinyLlb
