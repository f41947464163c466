import Mathlib.Data.List.Nodup

/-! # Round-robin cursors

A cursor is a list without repetition: its head is the next in turn. Newcomers
join at the back, a member that was served leaves or goes to the back, and an
idle turn rotates the whole list. What the fairness arguments measure is who
stands ahead of a given member.
-/

namespace Cursor

variable {α : Type*}

/-- The head goes to the back. -/
def rotate : List α → List α
  | [] => []
  | x :: rest => rest ++ [x]

@[simp] theorem mem_rotate {y : α} {c : List α} : y ∈ rotate c ↔ y ∈ c := by
  cases c with
  | nil => rfl
  | cons x rest => simp [rotate, or_comm]

theorem nodup_append_self {x : α} {c : List α} (h : c.Nodup) (new : x ∉ c) :
    (c ++ [x]).Nodup := by
  rw [List.nodup_append]
  refine ⟨h, by simp, ?_⟩
  intro a member b last
  obtain rfl := List.mem_singleton.mp last
  rintro rfl
  exact new member

theorem nodup_rotate {c : List α} (h : c.Nodup) : (rotate c).Nodup := by
  cases c with
  | nil => exact h
  | cons x rest =>
      rw [List.nodup_cons] at h
      exact nodup_append_self h.2 h.1

variable [DecidableEq α]

/-- The members standing ahead of `x`. -/
def ahead (x : α) (c : List α) : List α := c.takeWhile fun y => decide (y ≠ x)

/-- Take `x` out, keeping the order of the others. -/
def retire (x : α) (c : List α) : List α := c.filter fun y => decide (y ≠ x)

/-- Join at the back unless already present. -/
def join (x : α) (c : List α) : List α := if x ∈ c then c else c ++ [x]

@[simp] theorem mem_retire {x y : α} {c : List α} : y ∈ retire x c ↔ y ∈ c ∧ y ≠ x := by
  simp [retire]

theorem nodup_retire {x : α} {c : List α} (h : c.Nodup) : (retire x c).Nodup := h.filter _

theorem length_retire_le (x : α) (c : List α) : (retire x c).length ≤ c.length :=
  List.length_filter_le _ _

theorem notMem_retire {x : α} {c : List α} : x ∉ retire x c := by simp

@[simp] theorem mem_join {x y : α} {c : List α} : y ∈ join x c ↔ y ∈ c ∨ y = x := by
  unfold join
  split
  · constructor
    · exact Or.inl
    · rintro (h | rfl) <;> assumption
  · simp

theorem join_join (x : α) (c : List α) : join x (join x c) = join x c := by
  have present : x ∈ join x c := mem_join.mpr (.inr rfl)
  rw [join, if_pos present]

theorem nodup_join {x : α} {c : List α} (h : c.Nodup) : (join x c).Nodup := by
  unfold join
  split
  · exact h
  · exact nodup_append_self h ‹_›

theorem ahead_append {x : α} {c : List α} (h : x ∈ c) (d : List α) :
    ahead x (c ++ d) = ahead x c := by
  induction c with
  | nil => simp at h
  | cons y rest ih =>
      by_cases same : y = x
      · simp [ahead, same]
      · have later : x ∈ rest := by
          rcases List.mem_cons.mp h with rfl | later
          · exact absurd rfl same
          · exact later
        simpa [ahead, same] using ih later

theorem ahead_join {x : α} {c : List α} (h : x ∈ c) (y : α) : ahead x (join y c) = ahead x c := by
  unfold join
  split
  · rfl
  · exact ahead_append h _

theorem ahead_retire {x y : α} (other : y ≠ x) (c : List α) :
    ahead x (retire y c) = retire y (ahead x c) := by
  induction c with
  | nil => rfl
  | cons z rest ih =>
      by_cases atX : z = x
      · subst z
        simp [ahead, retire, other.symm]
      · by_cases atY : z = y
        · subst z
          simpa [ahead, retire, other] using ih
        · simpa [ahead, retire, atX, atY] using ih

theorem ahead_retire_le {x y : α} (other : y ≠ x) (c : List α) :
    (ahead x (retire y c)).length ≤ (ahead x c).length := by
  rw [ahead_retire other]
  exact length_retire_le y _

theorem ahead_retire_lt {x y : α} {c : List α} (front : y ∈ ahead x c) (other : y ≠ x) :
    (ahead x (retire y c)).length < (ahead x c).length := by
  rw [ahead_retire other]
  refine List.length_filter_lt_length_iff_exists.mpr ⟨y, front, ?_⟩
  simp

theorem mem_ahead_of_lt {cursor : List α} {x y : α} {i j : Nat}
    (hy : cursor[i]? = some y) (hx : cursor[j]? = some x) (nodup : cursor.Nodup) (lt : i < j) :
    y ∈ ahead x cursor := by
  induction cursor generalizing i j with
  | nil => simp at hy
  | cons z rest ih =>
      obtain ⟨fresh, nodup⟩ := List.nodup_cons.mp nodup
      obtain ⟨j, rfl⟩ : ∃ k, j = k + 1 := ⟨j - 1, by omega⟩
      have later : x ∈ rest := List.mem_of_getElem? (by simpa using hx)
      have notX : z ≠ x := by
        rintro rfl
        exact fresh later
      cases i with
      | zero =>
          obtain rfl : z = y := by simpa using hy
          simp [ahead, notX]
      | succ i =>
          have := ih (by simpa using hy) (by simpa using hx) nodup (by omega)
          simpa [ahead, notX] using Or.inr this

end Cursor
