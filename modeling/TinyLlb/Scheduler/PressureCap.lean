import TinyLlb.Scheduler.Priority

/-! # KV-pressure concurrency cap

The ladder of thresholds lowers the number of permits that may be outstanding.
It only limits new grants; nothing here takes a permit back.
-/

namespace TinyLlb

/-- `kv_usage.clamp(0.0, 1.0)`, the pressure of a snapshot. -/
def clampUsage (kvUsage : ℚ) : ℚ := max 0 (min kvUsage 1)

namespace KvPressure

/-- The caps named by the thresholds that `pressure` has reached. -/
def reached (kp : KvPressure) (pressure : ℚ) : List Nat :=
  (kp.thresholds.filter fun t => pressure ≥ t.at_).map KvPressureThreshold.maxFlows

def effectiveMax (kp : KvPressure) (maxActiveFlows : Nat) (pressure : ℚ) : Nat :=
  if !kp.enabled then maxActiveFlows
  else
    match (kp.reached pressure).min? with
    | some m => min m maxActiveFlows
    | none => maxActiveFlows

theorem effectiveMax_le (kp : KvPressure) (maxActiveFlows : Nat) (pressure : ℚ) :
    kp.effectiveMax maxActiveFlows pressure ≤ maxActiveFlows := by
  unfold effectiveMax
  split
  · exact le_rfl
  · split
    · exact min_le_right _ _
    · exact le_rfl

theorem reached_mono (kp : KvPressure) {low high : ℚ} (le : low ≤ high) {m : Nat}
    (member : m ∈ kp.reached low) : m ∈ kp.reached high := by
  simp only [reached, List.mem_map, List.mem_filter, decide_eq_true_eq] at member ⊢
  obtain ⟨t, ⟨inLadder, below⟩, rfl⟩ := member
  exact ⟨t, ⟨inLadder, below.trans le⟩, rfl⟩

theorem effectiveMax_antitone (kp : KvPressure) (maxActiveFlows : Nat) {low high : ℚ}
    (le : low ≤ high) :
    kp.effectiveMax maxActiveFlows high ≤ kp.effectiveMax maxActiveFlows low := by
  unfold effectiveMax
  split
  · exact le_rfl
  · cases lowMin : (kp.reached low).min? with
    | none =>
        cases highMin : (kp.reached high).min? with
        | none => exact le_rfl
        | some m => exact min_le_right _ _
    | some m =>
        have member := reached_mono kp le (List.min?_mem lowMin)
        cases highMin : (kp.reached high).min? with
        | none =>
            rw [List.min?_eq_none_iff] at highMin
            simp [highMin] at member
        | some n =>
            have least : n ≤ m := (List.min?_eq_some_iff.mp highMin).2 m member
            exact min_le_min_right _ least

theorem effectiveMax_pos {cfg : Config} (valid : cfg.validate = .ok ()) (pressure : ℚ) :
    1 ≤ cfg.scheduler.kvPressure.effectiveMax cfg.scheduler.maxActiveFlows.toNat pressure := by
  have budget := Config.maxActiveFlows_pos valid
  unfold effectiveMax
  split
  · exact budget
  · rename_i enabled
    simp only [Bool.not_eq_true', Bool.not_eq_false] at enabled
    split
    · rename_i m least
      have member := List.min?_mem least
      simp only [reached, List.mem_map, List.mem_filter] at member
      obtain ⟨t, ⟨inLadder, -⟩, rfl⟩ := member
      exact le_min (Config.threshold_maxFlows valid enabled inLadder).1 budget
    · exact budget

end KvPressure

end TinyLlb
