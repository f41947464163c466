import Mathlib.Data.List.Perm.Basic
import Mathlib.Data.List.Count
import Mathlib.Order.Lattice

/-! # Accounts of a queue

A queue whose entries are pushed at the back, taken from the front, and may be
deleted from anywhere. The account of a queue compares four lists: all that was
issued, what was taken, what was deleted and what is still there. It says that
nothing is lost or doubled and that the takes come in the order of the pushes.
-/

/-- The history of a queue and its content add up. -/
structure QueueAccount {ι : Type*} [LT ι] (issued taken removed queue : List ι) : Prop where
  balance : issued.Perm (taken ++ removed ++ queue)
  fifo : (taken ++ queue).Pairwise (· < ·)

namespace QueueAccount

variable {ι : Type*} [LT ι] {issued taken removed queue : List ι} {x : ι}

theorem empty : QueueAccount ([] : List ι) [] [] [] := ⟨List.Perm.refl _, List.Pairwise.nil⟩

theorem mem_issued (account : QueueAccount issued taken removed queue) :
    x ∈ issued ↔ x ∈ taken ∨ x ∈ removed ∨ x ∈ queue := by
  rw [account.balance.mem_iff]
  simp

theorem push (account : QueueAccount issued taken removed queue) (fresh : ∀ y ∈ issued, y < x) :
    QueueAccount (issued ++ [x]) taken removed (queue ++ [x]) where
  balance := by
    rw [← List.append_assoc]
    exact account.balance.append_right [x]
  fifo := by
    rw [← List.append_assoc, List.pairwise_append]
    refine ⟨account.fifo, List.pairwise_singleton _ _, ?_⟩
    intro y old z new
    obtain rfl := List.mem_singleton.mp new
    apply fresh
    rw [account.mem_issued]
    rcases List.mem_append.mp old with earlier | present
    · exact .inl earlier
    · exact .inr (.inr present)

theorem pop {rest : List ι} (account : QueueAccount issued taken removed (x :: rest)) :
    QueueAccount issued (taken ++ [x]) removed rest where
  balance := by
    apply account.balance.trans
    simp only [List.append_assoc, List.singleton_append]
    exact List.perm_middle.append_left taken
  fifo := by simpa using account.fifo

theorem delete {gone kept : List ι} (account : QueueAccount issued taken removed queue)
    (split : queue.Perm (gone ++ kept)) (sub : kept.Sublist queue) :
    QueueAccount issued taken (removed ++ gone) kept where
  balance := by
    apply account.balance.trans
    simpa only [List.append_assoc] using split.append_left (taken ++ removed)
  fifo := account.fifo.sublist (sub.append_left taken)

theorem taken_increasing (account : QueueAccount issued taken removed queue) :
    taken.Pairwise (· < ·) := account.fifo.sublist (List.sublist_append_left _ _)

/-- What was issued once is taken, deleted or still there, once. -/
theorem exactly_once [DecidableEq ι] (account : QueueAccount issued taken removed queue)
    (nodup : issued.Nodup) (member : x ∈ issued) :
    queue.count x + taken.count x + removed.count x = 1 := by
  have total := account.balance.count_eq x
  rw [List.Nodup.count nodup, if_pos member, List.count_append, List.count_append] at total
  omega

end QueueAccount
