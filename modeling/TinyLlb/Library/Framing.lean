import Mathlib.Data.List.Basic

/-! # Cutting a stream into frames

A cutter finds the end of the first frame in a buffer. A parser keeps a buffer,
appends every chunk it is fed to it and cuts off frames for as long as it finds
one. If a frame once found stays the first one whatever follows, the frames and
what is left over do not depend on how the stream was cut into chunks.
-/

structure Cutter (α : Type*) where
  /-- The length of the first frame of a buffer. -/
  find : List α → Option Nat
  pos : ∀ {b e}, find b = some e → 0 < e
  le : ∀ {b e}, find b = some e → e ≤ b.length
  /-- Bytes that follow a frame do not change it. -/
  stable : ∀ {b e} (c : List α), find b = some e → find (b ++ c) = some e
  /-- Bytes that follow a frame are not needed to find it. -/
  tight : ∀ {b e}, find b = some e → find (b.take e) = some e

namespace Cutter

variable {α : Type*} (k : Cutter α)

/-- Cut frames off a buffer until there is none. -/
def cut : Nat → List α → List (List α) × List α
  | 0, b => ([], b)
  | fuel + 1, b =>
      match k.find b with
      | some e => ((b.take e :: (cut fuel (b.drop e)).1), (cut fuel (b.drop e)).2)
      | none => ([], b)

/-- Every frame has at least one element, so the length of the buffer is enough. -/
def extract (b : List α) : List (List α) × List α := k.cut b.length b

variable {k} {b : List α} {e : Nat}

theorem cut_none (absent : k.find b = none) (fuel : Nat) : k.cut fuel b = ([], b) := by
  cases fuel with
  | zero => rfl
  | succ n => simp only [cut, absent]

theorem length_drop_lt (found : k.find b = some e) : (b.drop e).length < b.length := by
  have pos := k.pos found
  have le := k.le found
  rw [List.length_drop]
  omega

theorem cut_fuel {m n : Nat} (enough : b.length ≤ m) (enough' : b.length ≤ n) :
    k.cut m b = k.cut n b := by
  induction m generalizing b n with
  | zero =>
      have absent : k.find b = none := by
        cases found : k.find b with
        | none => rfl
        | some e => exact absurd (length_drop_lt found) (by omega)
      rw [cut_none absent, cut_none absent]
  | succ m ih =>
      cases found : k.find b with
      | none => rw [cut_none found, cut_none found]
      | some e =>
          have shorter := length_drop_lt found
          cases n with
          | zero => omega
          | succ n => simp only [cut, found, ih (b := b.drop e) (n := n) (by omega) (by omega)]

theorem extract_none (absent : k.find b = none) : k.extract b = ([], b) := cut_none absent _

theorem extract_some (found : k.find b = some e) :
    k.extract b = (b.take e :: (k.extract (b.drop e)).1, (k.extract (b.drop e)).2) := by
  have shorter := length_drop_lt found
  obtain ⟨n, size⟩ : ∃ n, b.length = n + 1 := ⟨b.length - 1, by omega⟩
  have rest : k.cut n (b.drop e) = k.extract (b.drop e) := cut_fuel (by omega) (Nat.le_refl _)
  rw [extract, size]
  simp only [cut, found, rest]

/-- What is shown for a buffer without a frame, and for one with a frame from
    the rest behind it, holds of every buffer. -/
theorem extract_induction {motive : List α → Prop} (absent : ∀ b, k.find b = none → motive b)
    (found : ∀ b e, k.find b = some e → motive (b.drop e) → motive b) (b : List α) : motive b := by
  induction size : b.length using Nat.strongRecOn generalizing b with
  | _ n ih =>
      cases here : k.find b with
      | none => exact absent b here
      | some e => exact found b e here (ih _ (size ▸ length_drop_lt here) _ rfl)

theorem flatten_extract (b : List α) : (k.extract b).1.flatten ++ (k.extract b).2 = b := by
  induction b using extract_induction (k := k) with
  | absent b absent => simp [extract_none absent]
  | found b e found ih =>
      simp only [extract_some found, List.flatten_cons, List.append_assoc, ih]
      exact List.take_append_drop e b

/-- Nothing that is left over holds a frame. -/
theorem find_leftover (b : List α) : k.find (k.extract b).2 = none := by
  induction b using extract_induction (k := k) with
  | absent b absent => rwa [extract_none absent]
  | found b e found ih => rwa [extract_some found]

theorem find_frame (b : List α) {f : List α} (member : f ∈ (k.extract b).1) :
    k.find f = some f.length := by
  induction b using extract_induction (k := k) with
  | absent b absent => simp [extract_none absent] at member
  | found b e found ih =>
      rw [extract_some found] at member
      rcases List.mem_cons.mp member with rfl | later
      · rw [List.length_take, Nat.min_eq_left (k.le found)]
        exact k.tight found
      · exact ih later

/-- A longer buffer has the same frames first; the rest is cut out of what was
    left over and what came after it. -/
theorem extract_append (b c : List α) :
    k.extract (b ++ c) = ((k.extract b).1 ++ (k.extract ((k.extract b).2 ++ c)).1,
      (k.extract ((k.extract b).2 ++ c)).2) := by
  induction b using extract_induction (k := k) with
  | absent b absent => simp [extract_none absent]
  | found b e found ih =>
      have le := k.le found
      have dropped : (b ++ c).drop e = b.drop e ++ c := List.drop_append_of_le_length le
      have taken : (b ++ c).take e = b.take e := List.take_append_of_le_length le
      rw [extract_some (k.stable c found), extract_some found, dropped, taken, ih]
      rfl

/-- The frames that the chunks yield one after the other, from a buffer that was
    left over before, and the buffer that is left over after them. -/
def feedAll (k : Cutter α) : List α → List (List α) → List (List α) × List α
  | b, [] => ([], b)
  | b, c :: rest =>
      ((k.extract (b ++ c)).1 ++ (feedAll k (k.extract (b ++ c)).2 rest).1,
        (feedAll k (k.extract (b ++ c)).2 rest).2)

/-- The split into chunks does not show. -/
theorem feedAll_eq_extract {chunks : List (List α)} (idle : k.find b = none) :
    k.feedAll b chunks = k.extract (b ++ chunks.flatten) := by
  induction chunks generalizing b with
  | nil => simp [feedAll, extract_none idle]
  | cons c rest ih =>
      rw [feedAll, ih (find_leftover (b ++ c)), List.flatten_cons, ← List.append_assoc,
        extract_append (b ++ c)]

end Cutter
