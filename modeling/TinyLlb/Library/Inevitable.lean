import Mathlib.Data.Nat.Find
import Mathlib.Data.Prod.Lex
import TinyLlb.Library.Machine

/-! # What a machine comes to in the end

Some actions are seen to: while one of them is enabled, it or another one that
counts is taken sooner or later. Other actions count but nobody has to take
them, and some may come in between any number of times. A goal is inevitable
where every way to go on like this leads to it. The usual argument for it is a
rank in a well-founded order that every counting action lowers.
-/

/-- What may happen to a machine while it is left to itself. -/
structure Duties (α : Type*) where
  /-- One of these, or another action that counts, is taken while one is enabled. -/
  due : α → Prop
  /-- Actions that count; the due ones are among them. -/
  counts : α → Prop
  /-- Actions that may come in between. -/
  idle : α → Prop

namespace Machine

variable {σ α ε : Type*}

/-- However the machine goes on from a state, it comes to `Q`: after any idle
    actions `Q` holds or something is due, and every action that counts leads to
    a state from which `Q` is inevitable. -/
inductive Inevitable (m : Machine σ α ε) (duties : Duties α) (Q : σ → Prop) : σ → Prop where
  | now {s} (holds : Q s) : Inevitable m duties Q s
  | later {s}
      (due : ∀ ts t, m.Exec s ts t → (∀ tr ∈ ts, duties.idle tr.action) →
        Q t ∨ ∃ a r, duties.due a ∧ m.next t a = some r)
      (on : ∀ ts t a u e, m.Exec s ts t → (∀ tr ∈ ts, duties.idle tr.action) →
        duties.counts a → m.next t a = some (u, e) → Inevitable m duties Q u) :
      Inevitable m duties Q s

/-- The rule of the falling rank. -/
theorem Inevitable.of_rank {β : Type*} [Preorder β] [WellFoundedLT β] {m : Machine σ α ε}
    {duties : Duties α} {Q I : σ → Prop} (rank : σ → β)
    (due : ∀ {s}, I s → Q s ∨ ∃ a r, duties.due a ∧ m.next s a = some r)
    (counts : ∀ {s a t e}, I s → duties.counts a → m.next s a = some (t, e) → I t ∧ rank t < rank s)
    (idle : ∀ {s a t e}, I s → duties.idle a → m.next s a = some (t, e) → I t ∧ rank t ≤ rank s)
    {s : σ} (initial : I s) : m.Inevitable duties Q s := by
  induction h : rank s using WellFoundedLT.induction generalizing s with
  | _ r lower =>
      subst h
      have between : ∀ ts t, m.Exec s ts t → (∀ tr ∈ ts, duties.idle tr.action) →
          I t ∧ rank t ≤ rank s := by
        intro ts t run quiet
        refine run.invariant_within (I := fun v => I v ∧ rank v ≤ rank s)
          (C := fun tr => duties.idle tr.action) quiet ⟨initial, le_rfl⟩ ?_
        intro v a w e held nothing step
        obtain ⟨keeps, le⟩ := idle held.1 nothing step
        exact ⟨keeps, le.trans held.2⟩
      refine .later ?_ ?_
      · intro ts t run quiet
        exact due (between ts t run quiet).1
      · intro ts t a u e run quiet counted step
        obtain ⟨held, le⟩ := between ts t run quiet
        obtain ⟨keeps, lt⟩ := counts held counted step
        exact lower (rank u) (lt.trans_le le) keeps rfl

theorem exec_of_schedule {m : Machine σ α ε} {state : Nat → σ} {action : Nat → α}
    (steps : ∀ n, ∃ e, m.next (state n) (action n) = some (state (n + 1), e)) {P : α → Prop}
    (n d : Nat) (all : ∀ k, k < d → P (action (n + k))) :
    ∃ ts, m.Exec (state n) ts (state (n + d)) ∧ ∀ tr ∈ ts, P tr.action := by
  induction d with
  | zero => exact ⟨[], .nil, by simp⟩
  | succ d ih =>
      obtain ⟨ts, run, within⟩ := ih fun k less => all k (Nat.lt_succ_of_lt less)
      obtain ⟨e, step⟩ := steps (n + d)
      refine ⟨_, run.snoc step, ?_⟩
      intro tr member
      rcases List.mem_append.mp member with earlier | last
      · exact within tr earlier
      · obtain rfl := List.mem_singleton.mp last
        exact all d (Nat.lt_succ_self d)

/-- An unbounded schedule takes the machine to every inevitable goal, provided
    that an action that counts follows every state in which something is due. -/
theorem Inevitable.reached {m : Machine σ α ε} {duties : Duties α} {Q : σ → Prop} {s : σ}
    (inevitable : m.Inevitable duties Q s) {state : Nat → σ} {action : Nat → α}
    (steps : ∀ n, ∃ e, m.next (state n) (action n) = some (state (n + 1), e))
    (within : ∀ n, duties.idle (action n) ∨ duties.counts (action n))
    (fair : ∀ n, (∃ a r, duties.due a ∧ m.next (state n) a = some r) →
      ∃ k, duties.counts (action (n + k))) {n : Nat} (here : state n = s) :
    ∃ k, Q (state k) := by
  classical
  induction inevitable generalizing n with
  | now holds => exact ⟨n, here ▸ holds⟩
  | later due on ih =>
      subst here
      by_cases more : ∃ k, duties.counts (action (n + k))
      · -- Up to the first action that counts there are idle ones only.
        have first : ∀ k, k < Nat.find more → duties.idle (action (n + k)) := by
          intro k less
          exact (within (n + k)).resolve_right (Nat.find_min more less)
        obtain ⟨ts, run, quiet⟩ := exec_of_schedule steps n (Nat.find more) first
        obtain ⟨e, step⟩ := steps (n + Nat.find more)
        exact ih ts _ _ _ e run quiet (Nat.find_spec more) step rfl
      · rcases due [] _ .nil (by simp) with holds | enabled
        · exact ⟨n, holds⟩
        · exact absurd (fair n enabled) more

end Machine
