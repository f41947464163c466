import Mathlib.Algebra.Order.Ring.Rat
import Mathlib.Tactic.Linarith
import Mathlib.Tactic.NormNum
import TinyLlb.Config

/-! # Choosing among eligible flows

`selectBest` is the plain rule: highest priority, then lowest base score (the
cursor index), then earliest enqueue. The KV bias reorders the same candidates
under pressure and falls back to the plain rule whenever its weight is zero.
Scores and footprints are exact rationals here.
-/

namespace TinyLlb

structure FlowCandidate where
  flowId : FlowId
  priority : Nat
  enqueuedAt : Instant
  baseScore : ℚ
  kvFootprint : ℚ

/-- `f64::EPSILON`. -/
def f64Epsilon : ℚ := 1 / 4503599627370496

namespace FlowCandidate

/-- The body of the loop of `select_best`: does `cand` displace the best so far? -/
def displaces (cand best : FlowCandidate) : Bool :=
  if cand.priority > best.priority then true
  else if cand.priority = best.priority then
    if cand.baseScore < best.baseScore then true
    else if |cand.baseScore - best.baseScore| < f64Epsilon then
      cand.enqueuedAt < best.enqueuedAt
    else false
  else false

end FlowCandidate

/-- The candidate that the loop of `select_best` ends with. -/
def bestCandidate (candidates : List FlowCandidate) : Option FlowCandidate :=
  candidates.foldl
    (fun best cand =>
      match best with
      | none => some cand
      | some current => if cand.displaces current then some cand else some current)
    none

def selectBest (candidates : List FlowCandidate) : Option FlowId :=
  (bestCandidate candidates).map FlowCandidate.flowId

/-- `cmp_fair`: `lt` when `a` is preferred over `b`. -/
def cmpFair (a b : FlowCandidate) : Ordering :=
  (compare b.priority a.priority).then <|
    (if |a.baseScore - b.baseScore| < f64Epsilon then Ordering.eq
      else if a.baseScore < b.baseScore then Ordering.lt else Ordering.gt).then <|
    compare a.enqueuedAt b.enqueuedAt

/-- The bias handle together with what it reads: the clamped pressure of the
    latest snapshot and the delivered tokens of each flow. -/
structure KvBiasHandle where
  config : KvBias
  pressure : ℚ
  delivered : FlowId → Int

namespace KvBiasHandle

def biasWeight (h : KvBiasHandle) (pressure : ℚ) : ℚ :=
  let lo := max h.config.pressureBelow 0
  let hi := max h.config.biasFullAt lo
  if pressure ≤ lo then 0
  else if pressure ≥ hi then 1
  else (pressure - lo) / (hi - lo)

/-- The weight `select` works with: 0 while the bias is disabled. -/
def weight (h : KvBiasHandle) (pressure : ℚ) : ℚ :=
  if h.config.enabled then h.biasWeight pressure else 0

def footprint (h : KvBiasHandle) (flowId : FlowId) : ℚ := h.delivered flowId

/-- One step of the biased loop, on the best candidate and its score. -/
def biasedStep (weight maxFootprint : ℚ) (best : Option (FlowCandidate × ℚ))
    (cand : FlowCandidate) : Option (FlowCandidate × ℚ) :=
  let score := weight * (cand.kvFootprint / maxFootprint)
  match best with
  | none => some (cand, score)
  | some (bestCand, bestScore) =>
      let better :=
        if |score - bestScore| > f64Epsilon then decide (score > bestScore)
        else cmpFair cand bestCand == .lt
      if better then some (cand, score) else some (bestCand, bestScore)

def select (h : KvBiasHandle) (candidates : List FlowCandidate) (pressure : ℚ) :
    Option FlowId :=
  let weight := h.weight pressure
  if weight ≤ 0 ∨ candidates = [] then selectBest candidates
  else
    let maxFootprint := (candidates.map FlowCandidate.kvFootprint).foldl max 0
    if maxFootprint ≤ 0 then selectBest candidates
    else (candidates.foldl (biasedStep weight maxFootprint) none).map fun best => best.1.flowId

end KvBiasHandle

/-- `a` is at least as good as `b` by priority and then by base score. -/
def Ranks (a b : FlowCandidate) : Prop :=
  b.priority < a.priority ∨ b.priority = a.priority ∧ a.baseScore ≤ b.baseScore

/-- Base scores as `try_select` builds them: cursor indices. -/
def IndexScored (candidates : List FlowCandidate) : Prop :=
  ∀ c ∈ candidates, ∃ n : Nat, c.baseScore = n

theorem Ranks.refl (a : FlowCandidate) : Ranks a a := .inr ⟨rfl, le_rfl⟩

theorem Ranks.trans {a b c : FlowCandidate} (ab : Ranks a b) (bc : Ranks b c) : Ranks a c := by
  rcases ab with ab | ⟨ab, sab⟩ <;> rcases bc with bc | ⟨bc, sbc⟩
  · exact .inl (bc.trans ab)
  · exact .inl (by omega)
  · exact .inl (by omega)
  · exact .inr ⟨bc.trans ab, sab.trans sbc⟩

theorem index_gap {m n : Nat} (near : |(m : ℚ) - n| < f64Epsilon) : m = n := by
  by_contra different
  have apart : (1 : ℚ) ≤ |(m : ℚ) - n| := by
    have : (1 : ℤ) ≤ |(m : ℤ) - n| := Int.one_le_abs (by omega)
    exact_mod_cast this
  have small : f64Epsilon < 1 := by norm_num [f64Epsilon]
  linarith

theorem displaces_ranks {cand best : FlowCandidate}
    (scored : ∃ n : Nat, cand.baseScore = n) (scored' : ∃ n : Nat, best.baseScore = n) :
    (cand.displaces best = true → Ranks cand best) ∧
      (cand.displaces best = false → Ranks best cand) := by
  obtain ⟨m, hm⟩ := scored
  obtain ⟨n, hn⟩ := scored'
  unfold FlowCandidate.displaces
  split
  · exact ⟨fun _ => .inl ‹_›, by simp⟩
  · split
    · rename_i same
      split
      · rename_i lower
        exact ⟨fun _ => .inr ⟨same.symm, lower.le⟩, by simp⟩
      · rename_i notLower
        have reverse : Ranks best cand := .inr ⟨same, not_lt.mp notLower⟩
        split
        · rename_i near
          rw [hm, hn] at near
          have equal : cand.baseScore = best.baseScore := by rw [hm, hn, index_gap near]
          exact ⟨fun _ => .inr ⟨same.symm, equal.le⟩, fun _ => reverse⟩
        · exact ⟨by simp, fun _ => reverse⟩
    · refine ⟨by simp, fun _ => .inl ?_⟩
      omega

/-- The loop started on a candidate ends with one that ranks at least as high as
    every candidate it has seen. -/
theorem foldBest_spec (rest : List FlowCandidate) (start : FlowCandidate)
    (scored : IndexScored (start :: rest)) :
    ∃ winner ∈ start :: rest,
      rest.foldl
        (fun best cand =>
          match best with
          | none => some cand
          | some current => if cand.displaces current then some cand else some current)
        (some start) = some winner ∧
      ∀ c ∈ start :: rest, Ranks winner c := by
  induction rest generalizing start with
  | nil => exact ⟨start, by simp, rfl, by simp [Ranks.refl]⟩
  | cons cand rest ih =>
      have order := displaces_ranks (scored cand (by simp)) (scored start (by simp))
      cases displaced : cand.displaces start with
      | true =>
          obtain ⟨winner, member, found, best⟩ := ih cand
            fun c hc => scored c (List.mem_cons_of_mem _ hc)
          refine ⟨winner, List.mem_cons_of_mem _ member, by simpa [displaced] using found, ?_⟩
          intro c hc
          rcases List.mem_cons.mp hc with rfl | hc
          · exact (best cand (by simp)).trans (order.1 displaced)
          · exact best c hc
      | false =>
          have kept : IndexScored (start :: rest) := by
            intro c hc
            apply scored c
            rcases List.mem_cons.mp hc with rfl | hc <;> simp [*]
          obtain ⟨winner, member, found, best⟩ := ih start kept
          refine ⟨winner, ?_, by simpa [displaced] using found, ?_⟩
          · rcases List.mem_cons.mp member with rfl | member <;> simp [*]
          · intro c hc
            rcases List.mem_cons.mp hc with rfl | hc
            · exact best c (by simp)
            · rcases List.mem_cons.mp hc with rfl | hc
              · exact (best start (by simp)).trans (order.2 displaced)
              · exact best c (List.mem_cons_of_mem _ hc)

theorem selectBest_spec {candidates : List FlowCandidate} (nonempty : candidates ≠ [])
    (scored : IndexScored candidates) :
    ∃ winner ∈ candidates, selectBest candidates = some winner.flowId ∧
      ∀ c ∈ candidates, Ranks winner c := by
  cases candidates with
  | nil => exact absurd rfl nonempty
  | cons start rest =>
      obtain ⟨winner, member, found, best⟩ := foldBest_spec rest start scored
      exact ⟨winner, member, by simp only [selectBest, bestCandidate, List.foldl_cons, found,
        Option.map_some], best⟩

namespace KvBiasHandle

theorem select_of_weight_zero {h : KvBiasHandle} {candidates pressure}
    (zero : h.weight pressure ≤ 0) : h.select candidates pressure = selectBest candidates := by
  simp [select, zero]

theorem foldBiased_member (weight maxFootprint : ℚ) (rest : List FlowCandidate)
    (start : FlowCandidate × ℚ) :
    ∃ winner, rest.foldl (biasedStep weight maxFootprint) (some start) = some winner ∧
      (winner.1 = start.1 ∨ winner.1 ∈ rest) := by
  induction rest generalizing start with
  | nil => exact ⟨start, rfl, .inl rfl⟩
  | cons cand rest ih =>
      have stepped : biasedStep weight maxFootprint (some start) cand = some start ∨
          ∃ score, biasedStep weight maxFootprint (some start) cand = some (cand, score) := by
        unfold biasedStep
        by_cases better : (if |weight * (cand.kvFootprint / maxFootprint) - start.2| > f64Epsilon
            then decide (weight * (cand.kvFootprint / maxFootprint) > start.2)
            else cmpFair cand start.1 == .lt) = true
        · exact .inr ⟨_, if_pos better⟩
        · exact .inl (if_neg better)
      rcases stepped with same | ⟨score, moved⟩
      · obtain ⟨winner, found, member⟩ := ih start
        refine ⟨winner, by simpa only [List.foldl_cons, same] using found, ?_⟩
        rcases member with here | later
        · exact .inl here
        · exact .inr (List.mem_cons_of_mem _ later)
      · obtain ⟨winner, found, member⟩ := ih (cand, score)
        refine ⟨winner, by simpa only [List.foldl_cons, moved] using found, .inr ?_⟩
        rcases member with here | later
        · simp [here]
        · exact List.mem_cons_of_mem _ later

theorem select_member (h : KvBiasHandle) (pressure : ℚ) {candidates} (nonempty : candidates ≠ [])
    (scored : IndexScored candidates) :
    ∃ winner ∈ candidates, h.select candidates pressure = some winner.flowId := by
  obtain ⟨plain, plainMember, plainFound, -⟩ := selectBest_spec nonempty scored
  unfold select
  simp only
  split
  · exact ⟨plain, plainMember, plainFound⟩
  · split
    · exact ⟨plain, plainMember, plainFound⟩
    · cases candidates with
      | nil => exact absurd rfl nonempty
      | cons start rest =>
          obtain ⟨winner, found, member⟩ := foldBiased_member (h.weight pressure)
            (((start :: rest).map FlowCandidate.kvFootprint).foldl max 0) rest
            (start, h.weight pressure * (start.kvFootprint /
              ((start :: rest).map FlowCandidate.kvFootprint).foldl max 0))
          refine ⟨winner.1, ?_, ?_⟩
          · rcases member with here | later
            · simp [here]
            · exact List.mem_cons_of_mem _ later
          · have first : biasedStep (h.weight pressure)
                (((start :: rest).map FlowCandidate.kvFootprint).foldl max 0) none start =
                some (start, h.weight pressure * (start.kvFootprint /
                  ((start :: rest).map FlowCandidate.kvFootprint).foldl max 0)) := rfl
            rw [List.foldl_cons, first, found, Option.map_some]

end KvBiasHandle

end TinyLlb
