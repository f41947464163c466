import Mathlib.Order.Basic

/-! # Bounded retry loops

A loop that goes on while its last outcome asks for another round and rounds are
left. `stop` is the round it stops at; whatever the rounds do to a state they do
once for every round before that.
-/

namespace Retry

/-- The first round from `i` on whose outcome does not ask for another one, or the last
    round there is. -/
def stop (again : Nat → Bool) : Nat → Nat → Nat
  | 0, i => i
  | left + 1, i => if again i then stop again left (i + 1) else i

variable {again : Nat → Bool}

theorem le_stop (again : Nat → Bool) (left i : Nat) : i ≤ stop again left i := by
  induction left generalizing i with
  | zero => exact Nat.le_refl i
  | succ left ih =>
      unfold stop
      split
      · exact Nat.le_of_succ_le (ih (i + 1))
      · exact Nat.le_refl i

theorem stop_le (again : Nat → Bool) (left i : Nat) : stop again left i ≤ i + left := by
  induction left generalizing i with
  | zero => exact Nat.le_refl i
  | succ left ih =>
      unfold stop
      split
      · have bound := ih (i + 1)
        omega
      · omega

theorem again_of_lt {left i j : Nat} (from_ : i ≤ j) (less : j < stop again left i) :
    again j = true := by
  induction left generalizing i with
  | zero => exact absurd less (Nat.not_lt.mpr from_)
  | succ left ih =>
      unfold stop at less
      split at less
      · rename_i here
        rcases Nat.eq_or_lt_of_le from_ with rfl | later
        · exact here
        · exact ih later less
      · omega

theorem stop_cases (again : Nat → Bool) (left i : Nat) :
    again (stop again left i) = false ∨ stop again left i = i + left := by
  induction left generalizing i with
  | zero => exact .inr rfl
  | succ left ih =>
      unfold stop
      split
      · rcases ih (i + 1) with settled | last
        · exact .inl settled
        · exact .inr (by omega)
      · rename_i settled
        exact .inl (by simpa using settled)

theorem stop_succ {left i : Nat} (here : again i = true) :
    stop again (left + 1) i = stop again left (i + 1) := by
  simp [stop, here]

theorem stop_settled {left i : Nat} (here : again i = false) : stop again left i = i := by
  cases left with
  | zero => rfl
  | succ left => simp [stop, here]

/-- The round it stops at is the only one like it. -/
theorem stop_eq {left i k : Nat} (from_ : i ≤ k) (bound : k ≤ i + left)
    (before : ∀ j, i ≤ j → j < k → again j = true) (ends : again k = false ∨ k = i + left) :
    stop again left i = k := by
  have notLater : ¬ k < stop again left i := by
    intro later
    have last := stop_le again left i
    rcases ends with settled | all
    · cases settled.symm.trans (again_of_lt from_ later)
    · omega
  have notEarlier : ¬ stop again left i < k := by
    intro earlier
    rcases stop_cases again left i with settled | all
    · cases settled.symm.trans (before _ (le_stop again left i) earlier)
    · omega
  omega

end Retry
