import TinyLlb.Library.Framing

/-! # Server-sent events

The retry path reads the backend's body as events. `SseFrameParser` cuts them at
the first blank line, which is two line feeds or two carriage return and line
feed pairs, and keeps the delimiter with the event so that the event can be
forwarded as it came.
-/

namespace TinyLlb

abbrev Bytes := List UInt8

/-- A text without characters beyond ASCII, as bytes. -/
def ascii (text : String) : Bytes := text.toList.map fun c => c.toNat.toUInt8

def lf : UInt8 := 10

def cr : UInt8 := 13

/-- Bytes that are not part of a complete event yet. -/
structure SseFrameParser where
  buffer : Bytes

namespace SseFrameParser

/-- The loop of `find_delimiter`, with the bytes from `search_start` on. -/
def findFrom : Bytes → Nat → Option Nat
  | b0 :: b1 :: rest, searchStart =>
      if b0 = cr ∧ b1 = lf ∧ rest[0]? = some cr ∧ rest[1]? = some lf then some (searchStart + 4)
      else if b0 = lf ∧ b1 = lf then some (searchStart + 2)
      else findFrom (b1 :: rest) (searchStart + 1)
  | _, _ => none

/-- The offset behind the first delimiter. -/
def findDelimiter (buffer : Bytes) : Option Nat := findFrom buffer 0

theorem findFrom_shift (b : Bytes) (n : Nat) : findFrom b n = (findFrom b 0).map (· + n) := by
  induction b generalizing n with
  | nil => rfl
  | cons b0 rest ih =>
      cases rest with
      | nil => rfl
      | cons b1 rest =>
          simp only [findFrom]
          split
          · simp [Nat.add_comm]
          · split
            · simp [Nat.add_comm]
            · rw [ih (n + 1), ih (0 + 1), Option.map_map]
              congr 1
              funext m
              simp only [Function.comp_apply]
              omega

/-- The bytes begin with a delimiter. -/
def StartsDelimiter (b : Bytes) : Prop := [lf, lf] <+: b ∨ [cr, lf, cr, lf] <+: b

theorem startsDelimiter_iff {b0 b1 : UInt8} {rest : Bytes} :
    StartsDelimiter (b0 :: b1 :: rest) ↔ (b0 = lf ∧ b1 = lf) ∨
      (b0 = cr ∧ b1 = lf ∧ rest[0]? = some cr ∧ rest[1]? = some lf) := by
  simp only [StartsDelimiter, List.cons_prefix_cons, List.nil_prefix, and_true,
    eq_comm (a := lf), eq_comm (a := cr)]
  match rest with
  | [] => simp
  | [b2] => simp [List.cons_prefix_cons]
  | b2 :: b3 :: rest => simp [List.cons_prefix_cons, eq_comm (a := lf), eq_comm (a := cr)]

theorem not_startsDelimiter {b : Bytes} (short : b.length < 2) : ¬ StartsDelimiter b := by
  rintro (found | found)
  · have longer := found.length_le
    simp only [List.length_cons, List.length_nil] at longer
    omega
  · have longer := found.length_le
    simp only [List.length_cons, List.length_nil] at longer
    omega

/-- The search says whether the first delimiter is here or further on. -/
inductive Found : Bytes → Option Nat → Prop where
  | short {b} (short : b.length < 2) : Found b none
  | lines {rest} : Found (lf :: lf :: rest) (some 2)
  | crlfLines {rest} : Found (cr :: lf :: cr :: lf :: rest) (some 4)
  | later {b0 rest r} (absent : ¬ StartsDelimiter (b0 :: rest)) (found : Found rest r) :
      Found (b0 :: rest) (r.map (· + 1))

theorem found_findDelimiter (b : Bytes) : Found b (findDelimiter b) := by
  induction b with
  | nil => exact .short (by simp)
  | cons b0 rest ih =>
      cases rest with
      | nil => exact .short (by simp)
      | cons b1 rest =>
          have again := findFrom_shift (b1 :: rest) (0 + 1)
          simp only [findDelimiter, findFrom]
          split
          · rename_i crlf
            obtain ⟨rfl, rfl, third, fourth⟩ := crlf
            match rest, third, fourth with
            | b2 :: b3 :: rest, third, fourth =>
                obtain rfl : b2 = cr := by simpa using third
                obtain rfl : b3 = lf := by simpa using fourth
                exact .crlfLines
          · rename_i notCrlf
            split
            · rename_i two
              obtain ⟨rfl, rfl⟩ := two
              exact .lines
            · rename_i notTwo
              rw [again]
              refine .later ?_ ih
              rw [startsDelimiter_iff]
              exact not_or.mpr ⟨notTwo, notCrlf⟩

theorem Found.absent {b : Bytes} (found : Found b none) (q : Nat) : ¬ StartsDelimiter (b.drop q) := by
  generalize result : (none : Option Nat) = r at found
  induction found generalizing q with
  | short short =>
      apply not_startsDelimiter
      rw [List.length_drop]
      omega
  | lines | crlfLines => cases result
  | @later b0 rest r absent _ ih =>
      cases q with
      | zero => exact absent
      | succ q =>
          cases r with
          | none => exact ih q rfl
          | some e => cases result

theorem Found.first {b : Bytes} {e : Nat} (found : Found b (some e)) :
    ∃ pre d rest, (d = [lf, lf] ∨ d = [cr, lf, cr, lf]) ∧ b = pre ++ (d ++ rest) ∧
      e = pre.length + d.length ∧ ∀ q < pre.length, ¬ StartsDelimiter (b.drop q) := by
  generalize result : some e = r at found
  induction found generalizing e with
  | short => cases result
  | @lines rest =>
      cases result
      exact ⟨[], [lf, lf], rest, .inl rfl, rfl, rfl, by simp⟩
  | @crlfLines rest =>
      cases result
      exact ⟨[], [cr, lf, cr, lf], rest, .inr rfl, rfl, rfl, by simp⟩
  | @later b0 rest r absent _ ih =>
      cases r with
      | none => cases result
      | some e' =>
          obtain ⟨pre, d, tail, delimiter, whole, position, before⟩ := ih rfl
          cases result
          refine ⟨b0 :: pre, d, tail, delimiter, by rw [whole]; rfl, ?_, ?_⟩
          · change e' + 1 = pre.length + 1 + d.length
            omega
          · intro q less
            cases q with
            | zero => exact absent
            | succ q => exact before q (by simpa using less)

theorem startsDelimiter_of_drop {b pre d rest : Bytes} (delimiter : d = [lf, lf] ∨ d = [cr, lf, cr, lf])
    (whole : b = pre ++ (d ++ rest)) : StartsDelimiter (b.drop pre.length) := by
  rw [whole, List.drop_left]
  rcases delimiter with rfl | rfl
  · exact .inl (List.prefix_append _ _)
  · exact .inr (List.prefix_append _ _)

theorem findDelimiter_of_first {b pre d rest : Bytes}
    (delimiter : d = [lf, lf] ∨ d = [cr, lf, cr, lf]) (whole : b = pre ++ (d ++ rest))
    (before : ∀ q < pre.length, ¬ StartsDelimiter (b.drop q)) :
    findDelimiter b = some (pre.length + d.length) := by
  have starts := startsDelimiter_of_drop delimiter whole
  have found := found_findDelimiter b
  cases result : findDelimiter b with
  | none =>
      rw [result] at found
      exact absurd starts (found.absent pre.length)
  | some e =>
      rw [result] at found
      obtain ⟨pre', d', rest', delimiter', whole', rfl, before'⟩ := found.first
      have starts' := startsDelimiter_of_drop delimiter' whole'
      have position : pre.length = pre'.length := by
        rcases Nat.lt_trichotomy pre.length pre'.length with less | same | more
        · exact absurd starts (before' _ less)
        · exact same
        · exact absurd starts' (before _ more)
      obtain ⟨-, same⟩ := List.append_inj (whole.symm.trans whole') position
      rcases delimiter with rfl | rfl
      · rcases delimiter' with rfl | rfl
        · rw [position]
        · exact absurd (List.cons.inj same).1 (by decide)
      · rcases delimiter' with rfl | rfl
        · exact absurd (List.cons.inj same).1 (by decide)
        · rw [position]

theorem StartsDelimiter.mono {b c : Bytes} (starts : StartsDelimiter b) (longer : b <+: c) :
    StartsDelimiter c := starts.imp (·.trans longer) (·.trans longer)

theorem startsDelimiter_append {a d : Bytes} (delimiter : d = [lf, lf] ∨ d = [cr, lf, cr, lf])
    (nonempty : a ≠ []) (c : Bytes) (starts : StartsDelimiter (a ++ (d ++ c))) :
    StartsDelimiter (a ++ d) := by
  have distinct : lf ≠ cr := by decide
  match a with
  | [] => exact absurd rfl nonempty
  | [b0] =>
      rcases delimiter with rfl | rfl
      · simpa [startsDelimiter_iff, distinct, distinct.symm] using starts
      · simp [startsDelimiter_iff, distinct, distinct.symm] at starts
  | [b0, b1] | [b0, b1, b2] =>
      rcases delimiter with rfl | rfl <;> simpa [startsDelimiter_iff] using starts
  | b0 :: b1 :: b2 :: b3 :: more => simpa [startsDelimiter_iff] using starts

/-- Before the end of `pre`, what starts a delimiter in a longer buffer starts
    one in the buffer that ends with the delimiter behind `pre`. -/
theorem startsDelimiter_drop {pre d : Bytes} (delimiter : d = [lf, lf] ∨ d = [cr, lf, cr, lf])
    {q : Nat} (less : q < pre.length) {rest : Bytes} (rest' : Bytes)
    (starts : StartsDelimiter ((pre ++ (d ++ rest)).drop q)) :
    StartsDelimiter ((pre ++ (d ++ rest')).drop q) := by
  rw [List.drop_append_of_le_length (Nat.le_of_lt less)] at starts ⊢
  have nonempty : pre.drop q ≠ [] := by
    rw [ne_eq, List.drop_eq_nil_iff]
    omega
  apply (startsDelimiter_append delimiter nonempty rest starts).mono
  rw [← List.append_assoc]
  exact List.prefix_append _ _

/-- The delimiters as frame ends. -/
def cutter : Cutter UInt8 where
  find := findDelimiter
  pos := by
    intro b e result
    have found := found_findDelimiter b
    rw [result] at found
    obtain ⟨pre, d, rest, delimiter, -, rfl, -⟩ := found.first
    rcases delimiter with rfl | rfl <;> simp
  le := by
    intro b e result
    have found := found_findDelimiter b
    rw [result] at found
    obtain ⟨pre, d, rest, -, rfl, rfl, -⟩ := found.first
    simp only [List.length_append]
    omega
  stable := by
    intro b e c result
    have found := found_findDelimiter b
    rw [result] at found
    obtain ⟨pre, d, rest, delimiter, rfl, rfl, before⟩ := found.first
    have whole : pre ++ (d ++ rest) ++ c = pre ++ (d ++ (rest ++ c)) := by simp
    apply findDelimiter_of_first delimiter whole
    intro q less starts
    rw [whole] at starts
    exact before q less (startsDelimiter_drop delimiter less rest starts)
  tight := by
    intro b e result
    have found := found_findDelimiter b
    rw [result] at found
    obtain ⟨pre, d, rest, delimiter, rfl, rfl, before⟩ := found.first
    have taken : (pre ++ (d ++ rest)).take (pre.length + d.length) = pre ++ (d ++ []) := by
      rw [← List.append_assoc, List.append_nil, ← List.length_append]
      exact List.take_left
    rw [taken]
    apply findDelimiter_of_first delimiter rfl
    intro q less starts
    exact before q less (startsDelimiter_drop delimiter less rest starts)

def new : SseFrameParser := ⟨[]⟩

/-- Append a chunk and run `extract_events`. -/
def feed (parser : SseFrameParser) (chunk : Bytes) : List Bytes × SseFrameParser :=
  ((cutter.extract (parser.buffer ++ chunk)).1, ⟨(cutter.extract (parser.buffer ++ chunk)).2⟩)

def finish (parser : SseFrameParser) : List Bytes :=
  if parser.buffer.isEmpty then [] else [parser.buffer]

/-- All events of a list of chunks, and the parser behind them. -/
def feedAll : SseFrameParser → List Bytes → List Bytes × SseFrameParser
  | parser, [] => ([], parser)
  | parser, chunk :: rest =>
      ((parser.feed chunk).1 ++ (feedAll (parser.feed chunk).2 rest).1,
        (feedAll (parser.feed chunk).2 rest).2)

@[simp] theorem flatten_finish (parser : SseFrameParser) : parser.finish.flatten = parser.buffer := by
  unfold finish
  split
  · simpa using (List.isEmpty_iff.mp ‹_›).symm
  · simp

theorem feedAll_eq (parser : SseFrameParser) (chunks : List Bytes) :
    parser.feedAll chunks = ((cutter.feedAll parser.buffer chunks).1,
      ⟨(cutter.feedAll parser.buffer chunks).2⟩) := by
  induction chunks generalizing parser with
  | nil => rfl
  | cons chunk rest ih => simp only [feedAll, Cutter.feedAll, ih, feed]

theorem feedAll_new (chunks : List Bytes) :
    new.feedAll chunks = ((cutter.extract chunks.flatten).1, ⟨(cutter.extract chunks.flatten).2⟩) := by
  rw [feedAll_eq, new, Cutter.feedAll_eq_extract rfl, List.nil_append]

/-- An event ends with a delimiter, and no delimiter starts before that one. -/
def IsEvent (event : Bytes) : Prop :=
  ∃ pre, (event = pre ++ [lf, lf] ∨ event = pre ++ [cr, lf, cr, lf]) ∧
    ∀ q, StartsDelimiter (event.drop q) → q = pre.length

theorem isEvent_of_find {event : Bytes} (whole : findDelimiter event = some event.length) :
    IsEvent event := by
  have found := found_findDelimiter event
  rw [whole] at found
  obtain ⟨pre, d, rest, delimiter, split, position, before⟩ := found.first
  have size := congrArg List.length split
  simp only [List.length_append] at size
  obtain rfl : rest = [] := List.length_eq_zero_iff.mp (by omega)
  rw [List.append_nil] at split
  refine ⟨pre, ?_, ?_⟩
  · rcases delimiter with rfl | rfl
    · exact .inl split
    · exact .inr split
  · intro q starts
    rcases Nat.lt_trichotomy q pre.length with less | same | more
    · exact absurd starts (before q less)
    · exact same
    · exfalso
      obtain ⟨k, rfl⟩ : ∃ k, q = pre.length + (k + 1) := ⟨q - pre.length - 1, by omega⟩
      rw [split, ← List.drop_drop, List.drop_left] at starts
      -- Inside a delimiter only its own beginning starts one.
      rcases delimiter with rfl | rfl
      · refine not_startsDelimiter ?_ starts
        simp only [List.length_drop, List.length_cons, List.length_nil]
        omega
      · match k with
        | 0 => exact absurd starts (by simp [startsDelimiter_iff, lf, cr])
        | 1 => exact absurd starts (by simp [startsDelimiter_iff, lf, cr])
        | k + 2 =>
            refine not_startsDelimiter ?_ starts
            simp only [List.length_drop, List.length_cons, List.length_nil]
            omega

end SseFrameParser

open TinyLlb.SseFrameParser in
/-- Feeding a byte string in chunks loses nothing, yields the same events and the
    same leftover for every split, and every event ends with its only delimiter
    while the leftover has none. -/
theorem sse_framing (chunks : List Bytes) :
    (new.feedAll chunks).1.flatten ++ (new.feedAll chunks).2.finish.flatten = chunks.flatten ∧
    (∀ chunks', chunks'.flatten = chunks.flatten → new.feedAll chunks' = new.feedAll chunks) ∧
    (∀ event ∈ (new.feedAll chunks).1, IsEvent event) ∧
    ∀ leftover ∈ (new.feedAll chunks).2.finish, ∀ q, ¬ StartsDelimiter (leftover.drop q) := by
  refine ⟨?_, ?_, ?_, ?_⟩
  · rw [flatten_finish, feedAll_new]
    exact Cutter.flatten_extract chunks.flatten
  · intro chunks' same
    rw [feedAll_new, feedAll_new, same]
  · intro event member
    rw [feedAll_new] at member
    exact isEvent_of_find (Cutter.find_frame chunks.flatten member)
  · intro leftover member q
    have absent : findDelimiter (new.feedAll chunks).2.buffer = none := by
      rw [feedAll_new]
      exact Cutter.find_leftover (k := cutter) chunks.flatten
    have found := found_findDelimiter (new.feedAll chunks).2.buffer
    rw [absent] at found
    unfold finish at member
    split at member
    · cases member
    · obtain rfl := List.mem_singleton.mp member
      exact found.absent q

end TinyLlb
