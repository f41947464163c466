import Mathlib.Data.List.DropRight
import Mathlib.Data.List.Infix
import Mathlib.Order.Bounds.Basic

/-! # Streaks in a list

A streak is a stretch of consecutive elements that all have a property. One more
element lengthens the streak that a list ends in, or breaks it; the longest streak
is either the one before or the one that the list ends in now.
-/

namespace Streak

variable {α : Type*} {p : α → Bool} {l : List α} {x : α} {n : Nat}

/-- The streak that a list ends in. -/
def trailing (p : α → Bool) (l : List α) : Nat := (l.rtakeWhile p).length

/-- No streak of the list is longer. -/
def IsLongest (p : α → Bool) (l : List α) (n : Nat) : Prop :=
  IsGreatest {k | ∃ streak, streak <:+: l ∧ (∀ x ∈ streak, p x = true) ∧ streak.length = k} n

@[simp] theorem trailing_nil : trailing p [] = 0 := rfl

theorem trailing_extend (holds : p x = true) : trailing p (l ++ [x]) = trailing p l + 1 := by
  simp [trailing, List.rtakeWhile_concat_pos _ _ _ holds]

theorem trailing_break (fails : p x = false) : trailing p (l ++ [x]) = 0 := by
  have broken : ¬ p x = true := by simp [fails]
  simp [trailing, List.rtakeWhile_concat_neg _ _ _ broken]

theorem trailing_le_length : trailing p l ≤ l.length := (List.rtakeWhile_suffix p l).length_le

theorem trailing_rtakeWhile {q : α → Bool} (weaker : ∀ x, p x = true → q x = true) (l : List α) :
    trailing p (l.rtakeWhile q) = trailing p l := by
  induction l using List.reverseRecOn with
  | nil => simp
  | append_singleton l x ih =>
      cases holds : p x with
      | true =>
          rw [List.rtakeWhile_concat_pos _ _ _ (weaker x holds), trailing_extend holds,
            trailing_extend holds, ih]
      | false =>
          rw [trailing_break holds, List.rtakeWhile_concat]
          split
          · exact trailing_break holds
          · rfl

/-- Every streak at the end is part of the one that is counted. -/
theorem length_le_trailing {streak : List α} (last : streak <:+ l)
    (holds : ∀ x ∈ streak, p x = true) : streak.length ≤ trailing p l := by
  induction l using List.reverseRecOn generalizing streak with
  | nil => simp [List.suffix_nil.mp last]
  | append_singleton l x ih =>
      rcases List.suffix_concat_iff.mp last with rfl | ⟨front, rfl, earlier⟩
      · simp
      · rw [trailing_extend (holds x (by simp)), List.length_append]
        have shorter := ih earlier fun y member => holds y (List.mem_append_left _ member)
        simpa using shorter

namespace IsLongest

theorem nil : IsLongest p [] 0 := by
  refine ⟨⟨[], List.infix_rfl, by simp, rfl⟩, ?_⟩
  rintro k ⟨streak, inside, -, rfl⟩
  simp [List.infix_nil.mp inside]

theorem trailing_le (longest : IsLongest p l n) : trailing p l ≤ n :=
  longest.2 ⟨l.rtakeWhile p, (List.rtakeWhile_suffix p l).isInfix,
    fun _ member => List.mem_rtakeWhile_imp member, rfl⟩

theorem extend (longest : IsLongest p l n) (holds : p x = true) :
    IsLongest p (l ++ [x]) (max n (trailing p l + 1)) := by
  constructor
  · rcases le_total (trailing p l + 1) n with old | new
    · obtain ⟨streak, inside, all, size⟩ := longest.1
      rw [max_eq_left old]
      exact ⟨streak, inside.trans (List.prefix_append l [x]).isInfix, all, size⟩
    · rw [max_eq_right new, ← trailing_extend holds]
      exact ⟨(l ++ [x]).rtakeWhile p, (List.rtakeWhile_suffix p _).isInfix,
        fun _ member => List.mem_rtakeWhile_imp member, rfl⟩
  · rintro k ⟨streak, inside, all, rfl⟩
    rcases List.infix_concat_iff.mp inside with last | earlier
    · have bound := length_le_trailing last all
      rw [trailing_extend holds] at bound
      exact bound.trans (le_max_right _ _)
    · exact (longest.2 ⟨streak, earlier, all, rfl⟩).trans (le_max_left _ _)

theorem break_ (longest : IsLongest p l n) (fails : p x = false) : IsLongest p (l ++ [x]) n := by
  constructor
  · obtain ⟨streak, inside, all, size⟩ := longest.1
    exact ⟨streak, inside.trans (List.prefix_append l [x]).isInfix, all, size⟩
  · rintro k ⟨streak, inside, all, rfl⟩
    rcases List.infix_concat_iff.mp inside with last | earlier
    · have bound := length_le_trailing last all
      rw [trailing_break fails] at bound
      exact bound.trans (Nat.zero_le n)
    · exact longest.2 ⟨streak, earlier, all, rfl⟩

end IsLongest

end Streak
