import Mathlib.Algebra.BigOperators.Group.List.Basic
import Mathlib.Algebra.Order.Group.Unbundled.Abs
import Mathlib.Data.List.Basic
import Mathlib.Tactic.Abel

/-! # Lists of records updated in place

A table whose rows are never removed: a row is read by its index and written
back. What a write does to another row, to a property of every row and to a
count over the rows is all that invariants need.
-/

namespace Slots

variable {α : Type*} {l : List α} {i : Nat} {a : α}

theorem getElem?_set (found : l[i]? = some a) (b : α) (j : Nat) :
    (l.set i b)[j]? = if j = i then some b else l[j]? := by
  obtain ⟨bound, -⟩ := List.getElem?_eq_some_iff.mp found
  rw [List.getElem?_set]
  by_cases same : i = j
  · subst j
    simp [bound]
  · have other : ¬ j = i := fun h => same h.symm
    simp [same, other]

theorem getElem?_append (found : l[i]? = some a) (new : List α) : (l ++ new)[i]? = some a := by
  obtain ⟨bound, -⟩ := List.getElem?_eq_some_iff.mp found
  rw [List.getElem?_append_left bound]
  exact found

/-- Writing one row moves a count by what the old and the new row count for. -/
theorem countP_set (found : l[i]? = some a) (b : α) (p : α → Bool) :
    (l.set i b).countP p + (if p a then 1 else 0) = l.countP p + (if p b then 1 else 0) := by
  obtain ⟨bound, here⟩ := List.getElem?_eq_some_iff.mp found
  have positive : p a = true → 0 < l.countP p := by
    intro holds
    exact List.countP_pos_iff.mpr ⟨a, List.mem_of_getElem? found, holds⟩
  rw [List.countP_set bound, here]
  split
  · rename_i holds
    have := positive holds
    omega
  · omega

theorem sum_set {M : Type*} [AddCommMonoid M] (found : l[i]? = some a) (b : α) (g : α → M) :
    ((l.set i b).map g).sum + g a = (l.map g).sum + g b := by
  induction l generalizing i with
  | nil => simp at found
  | cons c rest ih =>
      cases i with
      | zero =>
          obtain rfl : c = a := by simpa using found
          rw [List.set_cons_zero, List.map_cons, List.map_cons, List.sum_cons, List.sum_cons]
          abel
      | succ j =>
          have later := ih (by simpa using found)
          rw [List.set_cons_succ, List.map_cons, List.map_cons, List.sum_cons, List.sum_cons,
            add_assoc, later, add_assoc]

theorem filterMap_set_of_eq {β : Type*} (found : l[i]? = some a) {b : α} {read : α → Option β}
    (same : read b = read a) : (l.set i b).filterMap read = l.filterMap read := by
  induction l generalizing i with
  | nil => simp at found
  | cons c rest ih =>
      cases i with
      | zero =>
          obtain rfl : c = a := by simpa using found
          rw [List.set_cons_zero, List.filterMap_cons, List.filterMap_cons, same]
      | succ j =>
          have later := ih (by simpa using found)
          rw [List.set_cons_succ, List.filterMap_cons, List.filterMap_cons, later]

theorem filterMap_set_perm {β : Type*} (found : l[i]? = some a) (b : α) (read : α → Option β) :
    ((read a).toList ++ (l.set i b).filterMap read).Perm
      ((read b).toList ++ l.filterMap read) := by
  induction l generalizing i with
  | nil => simp at found
  | cons c rest ih =>
      have head : ∀ (x : α) (xs : List α),
          (x :: xs).filterMap read = (read x).toList ++ xs.filterMap read := by
        intro x xs
        cases known : read x <;> simp [known]
      cases i with
      | zero =>
          obtain rfl : c = a := by simpa using found
          rw [List.set_cons_zero, head, head]
          exact List.perm_append_comm_assoc _ _ _
      | succ j =>
          have later := ih (by simpa using found)
          rw [List.set_cons_succ, head, head]
          have before := List.perm_append_comm_assoc (read a).toList (read c).toList
            ((rest.set j b).filterMap read)
          have after := List.perm_append_comm_assoc (read c).toList (read b).toList
            (rest.filterMap read)
          exact before.trans ((later.append_left _).trans after)

/-- What the rows amount to together. -/
def total (f : α → Int) (l : List α) : Int := l.foldr (fun a sum => f a + sum) 0

@[simp] theorem total_nil (f : α → Int) : total f [] = 0 := rfl

@[simp] theorem total_cons (f : α → Int) (a : α) (l : List α) :
    total f (a :: l) = f a + total f l := rfl

@[simp] theorem total_append (f : α → Int) (l new : List α) :
    total f (l ++ new) = total f l + total f new := by
  induction l with
  | nil => simp
  | cons a l ih =>
      rw [List.cons_append, total_cons, total_cons, ih]
      omega

/-- Writing one row moves the sum by the difference of the old and the new row. -/
theorem total_set (found : l[i]? = some a) (b : α) (f : α → Int) :
    total f (l.set i b) = total f l - f a + f b := by
  induction l generalizing i with
  | nil => simp at found
  | cons c rest ih =>
      cases i with
      | zero =>
          obtain rfl : c = a := by simpa using found
          rw [List.set_cons_zero, total_cons, total_cons]
          omega
      | succ j =>
          have later := ih (by simpa using found)
          rw [List.set_cons_succ, total_cons, total_cons, later]
          omega

theorem total_congr {f g : α → Int} (same : ∀ a ∈ l, f a = g a) : total f l = total g l := by
  induction l with
  | nil => rfl
  | cons a l ih =>
      rw [total_cons, total_cons, same a List.mem_cons_self,
        ih fun b member => same b (List.mem_cons_of_mem _ member)]

theorem total_update {f g : α → Int} (nodup : l.Nodup) (member : a ∈ l)
    (same : ∀ b ∈ l, b ≠ a → g b = f b) : total g l = total f l - f a + g a := by
  obtain ⟨before, after, rfl⟩ := List.append_of_mem member
  have distinct := List.nodup_append.mp nodup
  have first : total g before = total f before := by
    apply total_congr
    intro b inside
    exact same b (List.mem_append_left _ inside) (distinct.2.2 b inside a List.mem_cons_self)
  have last : total g after = total f after := by
    apply total_congr
    intro b inside
    apply same b (by simp [inside])
    rintro rfl
    exact (List.nodup_cons.mp distinct.2.1).1 inside
  rw [total_append, total_append, total_cons, total_cons, first, last]
  omega

theorem total_add (f g : α → Int) (l : List α) :
    total (fun a => f a + g a) l = total f l + total g l := by
  induction l with
  | nil => rfl
  | cons a l ih =>
      simp only [total_cons, ih]
      omega

theorem total_neg (f : α → Int) (l : List α) : total (fun a => -f a) l = -total f l := by
  induction l with
  | nil => rfl
  | cons a l ih =>
      simp only [total_cons, ih]
      omega

theorem total_nonneg {f : α → Int} (nonneg : ∀ a ∈ l, 0 ≤ f a) : 0 ≤ total f l := by
  induction l with
  | nil => exact le_rfl
  | cons a l ih =>
      have first := nonneg a List.mem_cons_self
      have rest := ih fun b member => nonneg b (List.mem_cons_of_mem _ member)
      rw [total_cons]
      omega

theorem total_lt {f g : α → Int} (less : ∀ a ∈ l, f a < g a) (some_ : l ≠ []) :
    total f l < total g l := by
  induction l with
  | nil => exact absurd rfl some_
  | cons a l ih =>
      have first := less a List.mem_cons_self
      rw [total_cons, total_cons]
      by_cases last : l = []
      · simpa [last] using first
      · have rest := ih (fun b member => less b (List.mem_cons_of_mem _ member)) last
        omega

/-- Distinct rows out of a list count for no more than the whole list does, where
    none of it is negative. -/
theorem total_le_of_subset {f g : α → Int} {m : List α} (nodup : l.Nodup) (subset : ∀ a ∈ l, a ∈ m)
    (le : ∀ a ∈ l, f a ≤ g a) (nonneg : ∀ a ∈ m, 0 ≤ g a) : total f l ≤ total g m := by
  induction l generalizing m with
  | nil => exact total_nonneg nonneg
  | cons a l ih =>
      obtain ⟨before, after, rfl⟩ := List.append_of_mem (subset a List.mem_cons_self)
      have absent := (List.nodup_cons.mp nodup).1
      have rest : total f l ≤ total g (before ++ after) := by
        apply ih (List.nodup_cons.mp nodup).2
        · intro b member
          have inside := subset b (List.mem_cons_of_mem _ member)
          have other : b ≠ a := by
            rintro rfl
            exact absent member
          simpa [other] using inside
        · intro b member
          exact le b (List.mem_cons_of_mem _ member)
        · intro b member
          apply nonneg b
          rw [List.mem_append] at member ⊢
          exact member.imp_right (List.mem_cons_of_mem _)
      have head := le a List.mem_cons_self
      rw [total_append] at rest ⊢
      rw [total_cons, total_cons]
      omega

theorem countP_range_le (mark : Nat → Bool) (p : α → Bool)
    (rows : ∀ i a, l[i]? = some a → mark i = true → p a = true) :
    (List.range l.length).countP mark ≤ l.countP p := by
  induction l generalizing mark with
  | nil => exact le_rfl
  | cons a l ih =>
      have first := rows 0 a rfl
      have later := ih (mark ∘ Nat.succ) fun i b found => rows (i + 1) b (by simpa using found)
      rw [List.length_cons, List.range_succ_eq_map, List.countP_cons, List.countP_map,
        List.countP_cons]
      split
      · rename_i marked
        rw [if_pos (first marked)]
        omega
      · omega

end Slots
