import Mathlib.Data.List.Forall2
import Mathlib.Data.List.Infix

/-! # Searching a buffer for a fixed word

The first place where a word occurs. A word that occurs only once in a stream is
found in a beginning of the stream as soon as all of it is there, and nothing is
found behind it. A scan goes from one occurrence to the next; over a stream that comes
in chunks it makes the same finds, and sees less of what stands behind them.
-/

namespace Needle

variable {α : Type*} [DecidableEq α] {needle b : List α}

/-- The first offset at which the word occurs. -/
def find (needle b : List α) : Option Nat :=
  b.tails.findIdx? fun suffix => decide (needle <+: suffix)

theorem find_eq_some {q : Nat} (found : find needle b = some q) :
    needle <+: b.drop q ∧ q ≤ b.length ∧ ∀ r < q, ¬ needle <+: b.drop r := by
  obtain ⟨inside, here, before⟩ := List.findIdx?_eq_some_iff_getElem.mp found
  rw [List.length_tails] at inside
  refine ⟨by simpa [List.getElem_tails] using here, by omega, ?_⟩
  intro r less starts
  exact before r less (by simpa [List.getElem_tails] using starts)

theorem length_le {q : Nat} (found : find needle b = some q) : q + needle.length ≤ b.length := by
  obtain ⟨starts, inside, -⟩ := find_eq_some found
  have size := starts.length_le
  rw [List.length_drop] at size
  omega

/-- Found exactly where the word starts first. -/
theorem find_of_first {q : Nat} (inside : q ≤ b.length) (here : needle <+: b.drop q)
    (before : ∀ r < q, ¬ needle <+: b.drop r) : find needle b = some q := by
  apply List.findIdx?_eq_some_iff_getElem.mpr
  refine ⟨by rw [List.length_tails]; omega, by simpa [List.getElem_tails] using here, ?_⟩
  intro r less starts
  exact before r less (by simpa [List.getElem_tails] using starts)

theorem find_eq_none : find needle b = none ↔ ∀ q, ¬ needle <+: b.drop q := by
  constructor
  · intro absent q starts
    have inside : b.drop q ∈ b.tails := by
      rw [List.mem_tails]
      exact List.drop_suffix q b
    have not := List.findIdx?_eq_none_iff.mp absent _ inside
    simp [starts] at not
  · intro absent
    apply List.findIdx?_eq_none_iff.mpr
    intro suffix member
    obtain ⟨pre, rfl⟩ := (List.mem_tails _ _).mp member
    have not := absent pre.length
    rw [List.drop_left] at not
    simpa using not

omit [DecidableEq α] in
theorem starts_mono {q : Nat} (c : List α) (starts : needle <+: b.drop q) :
    needle <+: (b ++ c).drop q := by
  rw [List.drop_append]
  exact starts.trans (List.prefix_append _ _)

omit [DecidableEq α] in
theorem starts_append {q : Nat} (c : List α) (inside : q + needle.length ≤ b.length) :
    needle <+: (b ++ c).drop q ↔ needle <+: b.drop q := by
  rw [List.drop_append_of_le_length (by omega)]
  constructor
  · intro starts
    exact List.prefix_of_prefix_length_le starts (List.prefix_append _ _)
      (by rw [List.length_drop]; omega)
  · intro starts
    exact starts.trans (List.prefix_append _ _)

theorem find_take_short {pos n : Nat} (found : find needle b = some pos)
    (short : n < pos + needle.length) (nonempty : needle ≠ []) : find needle (b.take n) = none := by
  obtain ⟨-, -, before⟩ := find_eq_some found
  rw [find_eq_none]
  intro q starts
  have inside := starts.length_le
  have some_ := List.length_pos_iff.mpr nonempty
  rw [List.length_drop, List.length_take] at inside
  apply before q (by omega)
  rw [← List.take_append_drop n b]
  exact starts_mono _ starts

theorem find_take_long {pos n : Nat} (found : find needle b = some pos)
    (long : pos + needle.length ≤ n) : find needle (b.take n) = some pos := by
  obtain ⟨here, -, before⟩ := find_eq_some found
  have inside := length_le found
  have size : pos + needle.length ≤ (b.take n).length := by
    rw [List.length_take]
    omega
  rw [← List.take_append_drop n b, starts_append _ size] at here
  apply find_of_first (by omega) here
  intro r less starts
  apply before r less
  rw [← List.take_append_drop n b]
  exact starts_mono _ starts

/-- The word occurs at this offset and at no other. -/
def Lone (needle stream : List α) (pos : Nat) : Prop :=
  needle <+: stream.drop pos ∧ ∀ q, needle <+: stream.drop q → q = pos

namespace Lone

variable {stream c : List α} {pos : Nat}

omit [DecidableEq α] in
theorem length_le (lone : Lone needle stream pos) : needle.length ≤ stream.length - pos := by
  have inside := lone.1.length_le
  rwa [List.length_drop] at inside

theorem find_short (lone : Lone needle (b ++ c) pos) (short : b.length < pos + needle.length)
    (nonempty : needle ≠ []) : find needle b = none := by
  rw [find_eq_none]
  intro q starts
  obtain rfl := lone.2 q (starts_mono c starts)
  have inside := starts.length_le
  have some_ := List.length_pos_iff.mpr nonempty
  rw [List.length_drop] at inside
  omega

theorem find_long (lone : Lone needle (b ++ c) pos) (long : pos + needle.length ≤ b.length) :
    find needle b = some pos := by
  apply find_of_first (by omega)
  · exact (starts_append c long).mp lone.1
  · intro r less starts
    have same := lone.2 r (starts_mono c starts)
    omega

theorem of_find (found : find needle b = some pos) (rest : find needle (b.drop (pos + 1)) = none) :
    Lone needle b pos := by
  obtain ⟨starts, -, before⟩ := find_eq_some found
  refine ⟨starts, ?_⟩
  intro q again
  rcases Nat.lt_trichotomy q pos with less | same | more
  · exact absurd again (before q less)
  · exact same
  · have behind := find_eq_none.mp rest (q - (pos + 1))
    rw [List.drop_drop, Nat.add_sub_cancel' more] at behind
    exact absurd again behind

omit [DecidableEq α] in
theorem absent_behind (lone : Lone needle stream pos) (nonempty : needle ≠ []) (q : Nat) :
    ¬ needle <+: (stream.drop (pos + needle.length)).drop q := by
  intro starts
  rw [List.drop_drop] at starts
  have same := lone.2 _ starts
  have some_ := List.length_pos_iff.mpr nonempty
  omega

end Lone

theorem find_append {pos : Nat} (found : find needle b = some pos) (c : List α) :
    find needle (b ++ c) = some pos := by
  obtain ⟨here, inside, before⟩ := find_eq_some found
  have long := length_le found
  apply find_of_first (by rw [List.length_append]; omega) (starts_mono c here)
  intro r less starts
  exact before r less ((starts_append c (by omega)).mp starts)

/-- What stands behind each occurrence, from the left and without overlaps, and what is
    left behind the last one. -/
def scan (needle b : List α) : List (List α) × List α :=
  match _found : find needle b with
  | none => ([], b)
  | some pos =>
      if _empty : needle = [] then ([], b)
      else
        let rest := scan needle (b.drop (pos + needle.length))
        (b.drop (pos + needle.length) :: rest.1, rest.2)
termination_by b.length
decreasing_by
  have inside := length_le _found
  have some_ := List.length_pos_iff.mpr _empty
  rw [List.length_drop]
  omega

theorem scan_absent (absent : find needle b = none) : scan needle b = ([], b) := by
  rw [scan]
  split
  · rfl
  · rename_i found
    cases absent.symm.trans found

theorem scan_found {pos : Nat} (nonempty : needle ≠ []) (found : find needle b = some pos) :
    scan needle b = (b.drop (pos + needle.length) :: (scan needle (b.drop (pos + needle.length))).1,
      (scan needle (b.drop (pos + needle.length))).2) := by
  rw [scan]
  split
  · rename_i absent
    cases absent.symm.trans found
  · rename_i other found'
    obtain rfl := Option.some.inj (found.symm.trans found')
    rw [dif_neg nonempty]

/-- Scans go on by what is left behind the last find. -/
theorem scan_induction {motive : List α → Prop} (nonempty : needle ≠ [])
    (absent : ∀ b, find needle b = none → motive b)
    (found : ∀ b pos, find needle b = some pos → motive (b.drop (pos + needle.length)) → motive b)
    (b : List α) : motive b := by
  induction size : b.length using Nat.strongRecOn generalizing b with
  | _ n ih =>
      cases here : find needle b with
      | none => exact absent b here
      | some pos =>
          have inside := length_le here
          have some_ := List.length_pos_iff.mpr nonempty
          exact found b pos here (ih _ (by rw [List.length_drop]; omega) _ rfl)

theorem find_left (nonempty : needle ≠ []) (b : List α) : find needle (scan needle b).2 = none := by
  induction b using scan_induction nonempty with
  | absent b absent =>
      rw [scan_absent absent]
      exact absent
  | found b pos found ih =>
      rw [scan_found nonempty found]
      exact ih

/-- More input adds to what stands behind the finds, and the scan goes on with what was
    left. -/
theorem scan_append (nonempty : needle ≠ []) (b c : List α) :
    scan needle (b ++ c) =
      ((scan needle b).1.map (· ++ c) ++ (scan needle ((scan needle b).2 ++ c)).1,
        (scan needle ((scan needle b).2 ++ c)).2) := by
  induction b using scan_induction nonempty with
  | absent b absent =>
      rw [scan_absent absent]
      rfl
  | found b pos found ih =>
      have inside := length_le found
      rw [scan_found nonempty (find_append found c), List.drop_append_of_le_length inside, ih,
        scan_found nonempty found]
      rfl

/-- The finds in a stream that comes in chunks: behind each there is what has come by
    the end of its chunk. -/
def scanChunks (needle : List α) : List α → List (List α) → List (List α)
  | _, [] => []
  | buffer, chunk :: rest =>
      (scan needle (buffer ++ chunk)).1 ++ scanChunks needle (scan needle (buffer ++ chunk)).2 rest

/-- They are the finds of the whole stream, with a beginning of what stands behind. -/
theorem scanChunks_prefix (nonempty : needle ≠ []) {buffer : List α}
    (absent : find needle buffer = none) (chunks : List (List α)) :
    List.Forall₂ (· <+: ·) (scanChunks needle buffer chunks)
      (scan needle (buffer ++ chunks.flatten)).1 := by
  induction chunks generalizing buffer with
  | nil =>
      rw [List.flatten_nil, List.append_nil, scan_absent absent]
      exact .nil
  | cons chunk rest ih =>
      rw [List.flatten_cons, ← List.append_assoc, scan_append nonempty]
      have here : List.Forall₂ (· <+: ·) (scan needle (buffer ++ chunk)).1
          ((scan needle (buffer ++ chunk)).1.map (· ++ rest.flatten)) := by
        rw [List.forall₂_map_right_iff]
        exact List.forall₂_same.mpr fun behind _ => List.prefix_append behind _
      exact List.rel_append here (ih (find_left nonempty _))

end Needle
