import Mathlib.Data.List.Induction
import Mathlib.Tactic.Common

/-! # Edges of a signal

A signal is read again and again; an edge is a reading that differs from the one before.
Rises and falls take turns, so their counts differ by at most one, and which one is ahead
is told by the last level.
-/

namespace Edges

/-- The level after the readings. -/
def last (level : Bool) (readings : List Bool) : Bool := readings.getLast?.getD level

def rises : Bool → List Bool → Nat
  | _, [] => 0
  | level, x :: readings => (!level && x).toNat + rises x readings

def falls : Bool → List Bool → Nat
  | _, [] => 0
  | level, x :: readings => (level && !x).toNat + falls x readings

variable {level x : Bool} {readings : List Bool}

@[simp] theorem last_concat : last level (readings ++ [x]) = x := by simp [last]

theorem last_cons : last level (x :: readings) = last x readings := by
  cases readings with
  | nil => rfl
  | cons y rest => simp [last, List.getLast?_cons]

@[simp] theorem rises_concat :
    rises level (readings ++ [x]) = rises level readings + (!last level readings && x).toNat := by
  induction readings generalizing level with
  | nil => simp [rises, last]
  | cons y readings ih =>
      rw [List.cons_append, rises, rises, ih, last_cons]
      omega

@[simp] theorem falls_concat :
    falls level (readings ++ [x]) = falls level readings + (last level readings && !x).toNat := by
  induction readings generalizing level with
  | nil => simp [falls, last]
  | cons y readings ih =>
      rw [List.cons_append, falls, falls, ih, last_cons]
      omega

/-- Rises and falls take turns. -/
theorem balance (level : Bool) (readings : List Bool) :
    level.toNat + rises level readings = falls level readings + (last level readings).toNat := by
  induction readings using List.reverseRecOn with
  | nil => simp [rises, falls, last]
  | append_singleton readings x ih =>
      rw [rises_concat, falls_concat, last_concat]
      cases x <;> cases high : last level readings <;>
        simp only [high, Bool.toNat_true, Bool.toNat_false, Bool.not_true, Bool.not_false,
          Bool.and_true, Bool.and_false] at ih ⊢ <;> omega

end Edges
