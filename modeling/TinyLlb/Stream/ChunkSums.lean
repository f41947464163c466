import Mathlib.Algebra.BigOperators.Ring.Finset
import TinyLlb.Stream.TokenScan

/-! # Counting over chunks

The accumulator finds the same keys however a stream is cut into chunks, but it reads
the number behind a key as soon as the key is there, from what has come by the end of
that chunk. So the counts of the chunks add up to the count of the whole stream,
however it is cut, exactly for streams in which no number can be read behind a key.
-/

namespace TinyLlb

namespace TokenAccumulator

/-- The sum of what the feeds return. -/
def feedAll (arith : I64Arith) : TokenAccumulator → List Bytes → Int
  | _, [] => 0
  | acc, chunk :: rest => (acc.feed arith chunk).1 + feedAll arith (acc.feed arith chunk).2 rest

/-- What is counted for a key with that behind it. -/
def reading (rest : Bytes) : Int := (tokensBehind rest).getD 0

def readings (behind : List Bytes) : Int := (behind.map reading).sum

section

variable {arith : I64Arith} {acc : TokenAccumulator} {b chunk : Bytes}

theorem readings_append (first second : List Bytes) :
    readings (first ++ second) = readings first + readings second := by
  simp [readings]

theorem readings_cons (rest : Bytes) (more : List Bytes) :
    readings (rest :: more) = reading rest + readings more := by
  simp [readings]

theorem reading_range (rest : Bytes) : InI64 (reading rest) := by
  unfold reading
  cases read : tokensBehind rest with
  | none => exact ⟨by decide, by decide⟩
  | some n => exact tokensBehind_range read

theorem extractTokens_eq (fuel : Nat) {found : Int} (enough : b.length ≤ fuel)
    (stored : arith.store found = found) :
    extractTokens arith fuel b found =
      (arith.store (found + readings (Needle.scan key b).1), (Needle.scan key b).2) := by
  induction fuel generalizing b found with
  | zero =>
      obtain rfl := List.length_eq_zero_iff.mp (Nat.le_zero.mp enough)
      rw [Needle.scan_absent (by decide +kernel)]
      simp [extractTokens, readings, stored]
  | succ fuel ih =>
      cases here : Needle.find key b with
      | none =>
          rw [extractTokens_absent here, Needle.scan_absent here]
          simp [readings, stored]
      | some pos =>
          have inside := Needle.length_le here
          rw [length_key] at inside
          have shorter : (b.drop (pos + 19)).length ≤ fuel := by
            rw [List.length_drop]
            omega
          rw [Needle.scan_found key_ne_nil here, length_key, readings_cons]
          cases read : tokensBehind (b.drop (pos + 19)) with
          | none =>
              have none_ : reading (b.drop (pos + 19)) = 0 := by simp [reading, read]
              simp only [extractTokens, here, read]
              rw [ih shorter stored, none_, Int.zero_add]
          | some tokens =>
              have some_ : reading (b.drop (pos + 19)) = tokens := by simp [reading, read]
              simp only [extractTokens, here, read]
              rw [ih shorter (arith.store_store _), arith.store_store_add, some_, Int.add_assoc]

theorem feed_eq (arith : I64Arith) (acc : TokenAccumulator) (chunk : Bytes) :
    acc.feed arith chunk = (arith.store (readings (Needle.scan key (acc.buffer ++ chunk)).1),
      ⟨(Needle.scan key (acc.buffer ++ chunk)).2⟩) := by
  unfold feed
  have zero : arith.store 0 = 0 := arith.store_of_inI64 (by decide)
  simp only [extractTokens_eq _ (Nat.le_refl _) zero, Int.zero_add]

theorem store_add_congr {x y z : Int} (same : arith.store y = arith.store z) :
    arith.store (x + y) = arith.store (x + z) := by
  rw [Int.add_comm x y, ← arith.store_store_add, same, arith.store_store_add, Int.add_comm z x]

theorem store_feedAll (arith : I64Arith) (acc : TokenAccumulator) (chunks : List Bytes) :
    arith.store (feedAll arith acc chunks) =
      arith.store (readings (Needle.scanChunks key acc.buffer chunks)) := by
  induction chunks generalizing acc with
  | nil => rfl
  | cons chunk rest ih =>
      simp only [feedAll, Needle.scanChunks, readings_append, feed_eq]
      rw [arith.store_store_add]
      exact store_add_congr (ih ⟨_⟩)

theorem feed_whole (arith : I64Arith) (stream : Bytes) :
    (TokenAccumulator.new.feed arith stream).1 =
      arith.store (readings (Needle.scan key stream).1) := by
  rw [feed_eq]
  rfl

/-- Where all that can be read behind the keys is nothing or 0, so are the readings of
    beginnings. -/
theorem readings_zero {cuts behind : List Bytes} (prefixes : List.Forall₂ (· <+: ·) cuts behind)
    (free : ∀ rest ∈ behind, ∀ k, reading (rest.take k) = 0) : readings cuts = 0 := by
  induction prefixes with
  | nil => rfl
  | @cons cut rest cuts behind starts _ ih =>
      have here := free rest List.mem_cons_self cut.length
      rw [← List.prefix_iff_eq_take.mp starts] at here
      rw [readings_cons, here, ih fun other member => free other (List.mem_cons_of_mem _ member)]
      rfl

theorem eq_zero_of_store_add {c r : Int} (range : InI64 r) (same : arith.store (c + r) = arith.store c) :
    r = 0 := by
  have shifted : arith.store (arith.store (c + r) + -c) = arith.store (arith.store c + -c) := by rw [same]
  rw [arith.store_store_add, arith.store_store_add, Int.add_right_neg] at shifted
  have alone : c + r + -c = r := by omega
  rw [alone, arith.store_of_inI64 range, arith.store_of_inI64 (by decide)] at shifted
  exact shifted

theorem scanChunks_cut {pre : Bytes} {pos : Nat} (drained : (Needle.scan key pre).2 = [])
    (found : Needle.find key b = some pos) (k : Nat) :
    let rest := b.drop (pos + 19)
    Needle.scanChunks key []
        [pre ++ b.take (pos + 18), (b.drop (pos + 18)).take (k + 1), rest.drop k] =
      (Needle.scan key (pre ++ b.take (pos + 18))).1 ++
        rest.take k :: Needle.scanChunks key [] [rest.take k, rest.drop k] := by
  intro rest
  have first : (Needle.scan key (pre ++ b.take (pos + 18))).2 = b.take (pos + 18) := by
    have short := Needle.find_take_short (n := pos + 18) found (by rw [length_key]; omega) key_ne_nil
    rw [Needle.scan_append key_ne_nil, drained, List.nil_append, Needle.scan_absent short]
  have second : Needle.scan key (b.take (pos + 18) ++ (b.drop (pos + 18)).take (k + 1)) =
      (rest.take k :: (Needle.scan key (rest.take k)).1, (Needle.scan key (rest.take k)).2) := by
    have long := Needle.find_take_long (n := pos + 18 + (k + 1)) found (by rw [length_key]; omega)
    have behind : (b.take (pos + 18 + (k + 1))).drop (pos + 19) = rest.take k := by
      rw [List.drop_take]
      congr 1
      omega
    rw [← List.take_add, Needle.scan_found key_ne_nil long, length_key, behind]
  simp only [Needle.scanChunks, List.nil_append, first, second, List.append_nil, List.cons_append]

/-- If all cuts of a stream count the same, nothing but 0 can be read behind its keys. -/
theorem reading_of_same {pre : Bytes} {total : Int} (drained : (Needle.scan key pre).2 = [])
    (same : ∀ chunks : List Bytes, chunks.flatten = pre ++ b →
      arith.store (readings (Needle.scanChunks key [] chunks)) = total) :
    ∀ rest ∈ (Needle.scan key b).1, ∀ k, reading (rest.take k) = 0 := by
  -- From the last key back: the keys behind one add nothing, so moving the cut behind
  -- it changes its own reading only.
  induction b using Needle.scan_induction key_ne_nil generalizing pre with
  | absent b absent =>
      rw [Needle.scan_absent absent]
      simp
  | found b pos found ih =>
      have inside := Needle.length_le found
      rw [length_key] at inside ih
      have whole : pre ++ b.take (pos + 19) ++ b.drop (pos + 19) = pre ++ b := by
        rw [List.append_assoc, List.take_append_drop]
      have later : ∀ rest ∈ (Needle.scan key (b.drop (pos + 19))).1, ∀ k, reading (rest.take k) = 0 := by
        have long := Needle.find_take_long (n := pos + 19) found (by rw [length_key])
        have empty : (b.take (pos + 19)).drop (pos + 19) = [] := List.drop_eq_nil_of_le (by simp)
        have last : (Needle.scan key []).2 = [] := by rw [Needle.scan_absent (by decide +kernel)]
        have again : (Needle.scan key (pre ++ b.take (pos + 19))).2 = [] := by
          rw [Needle.scan_append key_ne_nil, drained, List.nil_append,
            Needle.scan_found key_ne_nil long, length_key, empty]
          exact last
        exact ih again fun chunks flat => same chunks (flat.trans whole)
      have counted : ∀ k, arith.store (readings (Needle.scan key (pre ++ b.take (pos + 18))).1 +
          reading ((b.drop (pos + 19)).take k)) = total := by
        intro k
        have bytes : [pre ++ b.take (pos + 18), (b.drop (pos + 18)).take (k + 1),
            (b.drop (pos + 19)).drop k].flatten = pre ++ b := by
          have behind : (b.drop (pos + 19)).drop k = (b.drop (pos + 18)).drop (k + 1) := by
            rw [List.drop_drop, List.drop_drop]
            congr 1
            omega
          rw [behind]
          simp [List.take_append_drop]
        have cut := same _ bytes
        rw [scanChunks_cut drained found, readings_append, readings_cons] at cut
        have zero : readings (Needle.scanChunks key [] [(b.drop (pos + 19)).take k,
            (b.drop (pos + 19)).drop k]) = 0 := by
          apply readings_zero (Needle.scanChunks_prefix key_ne_nil (by decide +kernel) _)
          simpa using later
        rwa [zero, Int.add_zero] at cut
      rw [Needle.scan_found key_ne_nil found, length_key]
      intro rest member k
      rcases List.mem_cons.mp member with rfl | behind
      · have none_ := counted 0
        have empty : reading [] = 0 := rfl
        rw [List.take_zero, empty, Int.add_zero] at none_
        exact eq_zero_of_store_add (reading_range _) ((counted k).trans none_.symm)
      · exact later rest behind k

/-- The end of the value behind a key, where there is one to read. -/
def valueEnd (rest : Bytes) : Nat :=
  match rest.dropWhile (· != 58) with
  | [] => 0
  | _ :: afterColon =>
      let value := afterColon.dropWhile isBlank
      rest.length - value.length + (value.takeWhile fun b => !endsValue b).length

theorem valueBehind_tail {value tail : Bytes} (front : ∀ b ∈ (value ++ tail).head?, isBlank b = false)
    (inner : ∀ b ∈ value, endsValue b = false) (stop : ∀ b ∈ tail.head?, endsValue b = true) :
    valueBehind (value ++ tail) = parseI64 (trim value) := by
  have text : (value ++ tail).takeWhile (fun b => !endsValue b) = value := by
    rw [List.takeWhile_append_of_pos (fun b member => by simp [inner b member])]
    cases tail with
    | nil => simp
    | cons b more => simp [stop b rfl]
  unfold valueBehind
  cases whole : value ++ tail with
  | nil =>
      obtain ⟨rfl, -⟩ := List.append_eq_nil_iff.mp whole
      rfl
  | cons b more =>
      have stays : (b :: more).dropWhile isBlank = b :: more :=
        List.dropWhile_cons_of_neg (by simp [front b (by simp [whole])])
      rw [whole] at text
      rw [stays]
      simp only [text]

theorem mem_head?_take {l : Bytes} {j : Nat} {b : UInt8} (member : b ∈ (l.take j).head?) :
    b ∈ l.head? := by
  cases l with
  | nil => simp at member
  | cons a l =>
      cases j with
      | zero => simp at member
      | succ j => simpa using member

/-- The text behind a key: up to the colon, the blanks behind it, the value and its end. -/
structure ValueParts (rest gap spaces value tail : Bytes) : Prop where
  split : rest = gap ++ 58 :: (spaces ++ (value ++ tail))
  plain : ∀ b ∈ gap, (b != 58) = true
  blank : spaces.all isBlank = true
  front : ∀ b ∈ (value ++ tail).head?, isBlank b = false
  inner : ∀ b ∈ value, endsValue b = false
  stop : ∀ b ∈ tail.head?, endsValue b = true

namespace ValueParts

variable {rest gap spaces value tail : Bytes}

theorem tokensBehind (parts : ValueParts rest gap spaces value tail) :
    tokensBehind rest = parseI64 (trim value) := by
  rw [parts.split, tokensBehind_colon parts.plain, valueBehind_blank parts.blank,
    valueBehind_tail parts.front parts.inner parts.stop]

theorem take (parts : ValueParts rest gap spaces value tail) {k : Nat}
    (long : gap.length + 1 + spaces.length + value.length ≤ k) :
    ValueParts (rest.take k) gap spaces value
      (tail.take (k - (gap.length + 1 + spaces.length + value.length))) where
  split := by
    have grouped : ∀ more : Bytes, gap ++ 58 :: (spaces ++ (value ++ more)) =
        gap ++ 58 :: (spaces ++ value) ++ more := by simp
    rw [parts.split, grouped, grouped, List.take_append, List.take_of_length_le (by simp; omega)]
    congr 2
    simp only [List.length_append, List.length_cons]
    omega
  plain := parts.plain
  blank := parts.blank
  front := by
    intro b head
    apply parts.front b
    cases value with
    | nil => exact mem_head?_take head
    | cons v value => exact head
  inner := parts.inner
  stop := fun b head => parts.stop b (mem_head?_take head)

end ValueParts

theorem exists_valueParts (rest : Bytes) :
    (∀ b ∈ rest, (b != 58) = true) ∨ ∃ gap spaces value tail,
      ValueParts rest gap spaces value tail ∧
        valueEnd rest = gap.length + 1 + spaces.length + value.length := by
  have gap := List.takeWhile_append_dropWhile (p := fun b : UInt8 => b != 58) (l := rest)
  have plain : ∀ b ∈ rest.takeWhile (· != 58), (b != 58) = true := fun b => List.mem_takeWhile_imp
  unfold valueEnd
  cases colon : rest.dropWhile (· != 58) with
  | nil =>
      rw [colon, List.append_nil] at gap
      rw [gap] at plain
      exact .inl plain
  | cons c afterColon =>
      obtain rfl : c = 58 := by
        have ends := List.head_dropWhile_not (fun b : UInt8 => b != 58) (l := rest) (by simp [colon])
        simpa [colon] using ends
      rw [colon] at gap
      have pad := List.takeWhile_append_dropWhile (p := isBlank) (l := afterColon)
      have split := List.takeWhile_append_dropWhile (p := fun b => !endsValue b)
        (l := afterColon.dropWhile isBlank)
      refine .inr ⟨_, afterColon.takeWhile isBlank,
        (afterColon.dropWhile isBlank).takeWhile fun b => !endsValue b,
        (afterColon.dropWhile isBlank).dropWhile fun b => !endsValue b, ⟨?_, plain, ?_, ?_, ?_, ?_⟩, ?_⟩
      · rw [split, pad, gap]
      · rw [List.all_eq_true]
        exact fun b => List.mem_takeWhile_imp
      · rw [split]
        intro b head
        have stops := List.head?_dropWhile_not isBlank afterColon
        rw [Option.mem_def.mp head] at stops
        simpa using stops
      · intro b member
        simpa using List.mem_takeWhile_imp member
      · intro b head
        have stops := List.head?_dropWhile_not (fun b => !endsValue b) (afterColon.dropWhile isBlank)
        rw [Option.mem_def.mp head] at stops
        simpa using stops
      · have whole := congrArg List.length gap
        have behind := congrArg List.length pad
        simp only [List.length_append, List.length_cons] at whole behind ⊢
        omega

theorem tokensBehind_take {rest : Bytes} {k : Nat} (kept : valueEnd rest ≤ k) :
    tokensBehind (rest.take k) = tokensBehind rest := by
  rcases exists_valueParts rest with plain | ⟨gap, spaces, value, tail, parts, ends⟩
  · rw [tokensBehind_none plain, tokensBehind_none fun b member => plain b (List.mem_of_mem_take member)]
  · rw [ends] at kept
    rw [parts.tokensBehind, (parts.take kept).tokensBehind]

theorem readings_kept {cuts behind : List Bytes} (prefixes : List.Forall₂ (· <+: ·) cuts behind)
    (kept : List.Forall₂ (fun cut rest => valueEnd rest ≤ cut.length) cuts behind) :
    readings cuts = readings behind := by
  induction prefixes with
  | nil => rfl
  | @cons cut rest cuts behind starts _ ih =>
      obtain ⟨here, later⟩ := List.forall₂_cons.mp kept
      have same := tokensBehind_take here
      rw [← List.prefix_iff_eq_take.mp starts] at same
      rw [readings_cons, readings_cons, ih later, reading, reading, same]

/-- For every byte string: the counts of its chunks add up to its own count however it is
    cut exactly if behind no key of it, and in no beginning of what stands there, a
    number other than 0 can be read. For a single way to cut it, it is enough that no
    chunk ends between a key and the end of the value behind it. -/
theorem chunk_sums_iff (arith : I64Arith) (stream : Bytes) :
    ((∀ chunks : List Bytes, chunks.flatten = stream →
        arith.store (feedAll arith .new chunks) = (TokenAccumulator.new.feed arith stream).1) ↔
      ∀ rest ∈ (Needle.scan key stream).1, ∀ k, reading (rest.take k) = 0) ∧
    ∀ chunks : List Bytes, chunks.flatten = stream →
      List.Forall₂ (fun cut rest => valueEnd rest ≤ cut.length) (Needle.scanChunks key [] chunks)
        (Needle.scan key stream).1 →
        arith.store (feedAll arith .new chunks) = (TokenAccumulator.new.feed arith stream).1 := by
  have absent : Needle.find key [] = none := by decide +kernel
  rw [feed_whole]
  refine ⟨⟨?_, ?_⟩, ?_⟩
  · intro same
    have drained : (Needle.scan key []).2 = [] := by rw [Needle.scan_absent absent]
    have total : ∀ chunks : List Bytes, chunks.flatten = [] ++ stream →
        arith.store (readings (Needle.scanChunks key [] chunks)) =
          arith.store (readings (Needle.scan key stream).1) := by
      intro chunks flat
      rw [← same chunks flat, store_feedAll]
      rfl
    exact reading_of_same drained total
  · rintro free chunks rfl
    have prefixes := Needle.scanChunks_prefix key_ne_nil absent chunks
    rw [List.nil_append] at prefixes
    have whole : readings (Needle.scan key chunks.flatten).1 = 0 :=
      readings_zero (List.forall₂_same.mpr fun rest _ => List.prefix_rfl) free
    rw [store_feedAll, whole]
    exact congrArg arith.store (readings_zero prefixes free)
  · rintro chunks rfl kept
    have prefixes := Needle.scanChunks_prefix key_ne_nil absent chunks
    rw [List.nil_append] at prefixes
    rw [store_feedAll]
    exact congrArg arith.store (readings_kept prefixes kept)

end

/-- A number that is cut in two: 12 tokens at once, and 1 in two chunks. -/
theorem number_cut :
    ¬ ∀ chunks : List Bytes, chunks.flatten = ascii "\x7b\"completion_tokens\":12\x7d" →
      I64Arith.wrapping.store (feedAll .wrapping .new chunks) =
        (TokenAccumulator.new.feed .wrapping (ascii "\x7b\"completion_tokens\":12\x7d")).1 := by
  intro same
  have cut := same [ascii "\x7b\"completion_tokens\":1", ascii "2\x7d"] (by decide +kernel)
  have counts : I64Arith.wrapping.store (feedAll .wrapping .new
        [ascii "\x7b\"completion_tokens\":1", ascii "2\x7d"]) = 1 ∧
      (TokenAccumulator.new.feed .wrapping (ascii "\x7b\"completion_tokens\":12\x7d")).1 = 12 := by
    decide +kernel
  rw [counts.1, counts.2] at cut
  cases cut

end TokenAccumulator

end TinyLlb
