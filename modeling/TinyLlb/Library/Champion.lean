import Mathlib.Data.List.Induction
import Mathlib.Order.Bounds.Basic
import Mathlib.Order.MinMax

/-! # The champion of a list

A scan from left to right that keeps whichever of two elements beats the other. Where
beating is to have the smaller key in some linear order, the champion has the smallest
key; where in addition no two elements share a key, it does not depend on the order of
the list.
-/

namespace Champion

variable {α κ : Type*} {beats beats' : α → α → Bool} {l l' : List α}

/-- One step of the scan. -/
def keep (beats : α → α → Bool) (best : Option α) (x : α) : Option α :=
  match best with
  | none => some x
  | some current => if beats x current then some x else some current

def champion (beats : α → α → Bool) (l : List α) : Option α := l.foldl (keep beats) none

theorem champion_snoc (l : List α) (x : α) :
    champion beats (l ++ [x]) = keep beats (champion beats l) x := by
  simp [champion]

theorem mem_of_champion {w : α} (won : champion beats l = some w) : w ∈ l := by
  induction l using List.reverseRecOn with
  | nil => cases won
  | append_singleton l x ih =>
      rw [champion_snoc] at won
      cases before : champion beats l with
      | none =>
          rw [before] at won
          obtain rfl := Option.some.inj won
          simp
      | some current =>
          rw [before] at won
          simp only [keep] at won
          split at won
          · obtain rfl := Option.some.inj won
            simp
          · obtain rfl := Option.some.inj won
            exact List.mem_append_left _ (ih before)

theorem champion_congr (same : ∀ a ∈ l, ∀ b ∈ l, beats a b = beats' a b) :
    champion beats l = champion beats' l := by
  induction l using List.reverseRecOn with
  | nil => rfl
  | append_singleton l x ih =>
      have earlier := ih fun a inA b inB =>
        same a (List.mem_append_left _ inA) b (List.mem_append_left _ inB)
      rw [champion_snoc, champion_snoc, earlier]
      cases before : champion beats' l with
      | none => rfl
      | some current =>
          have here := same x (by simp) current (List.mem_append_left _ (mem_of_champion before))
          simp only [keep, here]

section

variable [LinearOrder κ] {key : α → κ}

theorem champion_least (smaller : ∀ a ∈ l, ∀ b ∈ l, beats a b = true ↔ key a < key b)
    (nonempty : l ≠ []) : ∃ w ∈ l, champion beats l = some w ∧ ∀ c ∈ l, key w ≤ key c := by
  induction l using List.reverseRecOn with
  | nil => exact absurd rfl nonempty
  | append_singleton l x ih =>
      rw [champion_snoc]
      by_cases first : l = []
      · subst first
        exact ⟨x, by simp, rfl, by simp⟩
      · obtain ⟨w, member, before, least⟩ := ih (fun a inA b inB =>
          smaller a (List.mem_append_left _ inA) b (List.mem_append_left _ inB)) first
        rw [before]
        have order := smaller x (by simp) w (List.mem_append_left _ member)
        cases wins : beats x w with
        | true =>
            refine ⟨x, by simp, by simp [keep, wins], ?_⟩
            intro c inside
            rcases List.mem_append.mp inside with earlier | last
            · exact (order.mp wins).le.trans (least c earlier)
            · exact (congrArg key (List.mem_singleton.mp last)).ge
        | false =>
            refine ⟨w, List.mem_append_left _ member, by simp [keep, wins], ?_⟩
            intro c inside
            rcases List.mem_append.mp inside with earlier | last
            · exact least c earlier
            · rw [List.mem_singleton.mp last]
              exact not_lt.mp fun less => by simp [order.mpr less] at wins

theorem least_unique (distinct : ∀ a ∈ l, ∀ b ∈ l, key a = key b → a = b) {v w : α} (inV : v ∈ l)
    (inW : w ∈ l) (leastV : ∀ c ∈ l, key v ≤ key c) (leastW : ∀ c ∈ l, key w ≤ key c) : v = w :=
  distinct v inV w inW ((leastV w inW).antisymm (leastW v inV))

/-- The scan for the largest element. -/
theorem foldl_max_isGreatest (start : κ) (l : List κ) :
    IsGreatest {x | x = start ∨ x ∈ l} (l.foldl max start) := by
  induction l using List.reverseRecOn with
  | nil => exact ⟨.inl rfl, by rintro x (rfl | inside) <;> simp_all⟩
  | append_singleton l x ih =>
      rw [List.foldl_append, List.foldl_cons, List.foldl_nil]
      constructor
      · rcases max_choice (l.foldl max start) x with same | same
        · rw [same]
          exact ih.1.imp_right (List.mem_append_left _)
        · simp [same]
      · rintro y (rfl | inside)
        · exact le_max_of_le_left (ih.2 (.inl rfl))
        · rcases List.mem_append.mp inside with earlier | last
          · exact le_max_of_le_left (ih.2 (.inr earlier))
          · exact le_max_of_le_right (List.mem_singleton.mp last).le

end

end Champion
