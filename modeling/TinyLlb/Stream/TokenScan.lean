import Mathlib.Tactic.Ring
import TinyLlb.Stream.MetricStream

/-! # What the plain stream counts

A key is looked for as its bytes arrive, and the number behind it is read at once:
only the bytes of the chunk that completes the key are there. For a stream with one
key in it, the count is that one reading.
-/

namespace TinyLlb

theorem natOfDigits_append (p q : Bytes) :
    natOfDigits (p ++ q) = natOfDigits p * 10 ^ q.length + natOfDigits q := by
  induction q using List.reverseRecOn with
  | nil => simp [natOfDigits]
  | append_singleton q d ih =>
      have last : ∀ r : Bytes, natOfDigits (r ++ [d]) = 10 * natOfDigits r + (d.toNat - 48) := by
        intro r
        simp [natOfDigits]
      rw [← List.append_assoc, last, last, ih, List.length_append, List.length_singleton, pow_succ]
      ring

theorem natOfDigits_cut {p q : Bytes} (cut : q ≠ []) (positive : 0 < natOfDigits (p ++ q)) :
    natOfDigits p < natOfDigits (p ++ q) := by
  rcases Nat.eq_zero_or_pos (natOfDigits p) with zero | some_
  · omega
  · have size := List.length_pos_iff.mpr cut
    have tenfold : 10 ≤ 10 ^ q.length := Nat.le_self_pow (by omega) 10
    calc natOfDigits p
      _ < natOfDigits p * 10 := by omega
      _ ≤ natOfDigits p * 10 ^ q.length := Nat.mul_le_mul_left _ tenfold
      _ ≤ natOfDigits (p ++ q) := by
        rw [natOfDigits_append]
        exact Nat.le_add_right _ _

/-- Words that could start with a digit are not among them. -/
def NoDigits (words : List Bytes) : Prop := ∀ word ∈ words, word.head?.any (fun b => !isDigit b) = true

theorem stripAll_digit {words : List Bytes} {d : UInt8} (others : NoDigits words)
    (digit : isDigit d = true) (fuel : Nat) (rest : Bytes) :
    stripAll words fuel (d :: rest) = d :: rest := by
  cases fuel with
  | zero => rfl
  | succ n =>
      have none_ : words.find? (·.isPrefixOf (d :: rest)) = none := by
        rw [List.find?_eq_none]
        intro word member found
        have other := others word member
        match word with
        | [] => cases other
        | b :: more =>
            obtain ⟨rfl, -⟩ : b = d ∧ _ := by
              simpa only [List.isPrefixOf, Bool.and_eq_true, beq_iff_eq] using found
            simp [digit] at other
      simp only [stripAll, none_]

theorem noDigits_whiteSpaces : NoDigits whiteSpaces ∧ NoDigits (whiteSpaces.map List.reverse) := by
  unfold NoDigits
  decide

theorem stripAll_tabs {d : UInt8} (digit : isDigit d = true) (rest : Bytes) (n fuel : Nat)
    (enough : n ≤ fuel) :
    stripAll (whiteSpaces.map List.reverse) fuel (List.replicate n 9 ++ d :: rest) = d :: rest := by
  induction n generalizing fuel with
  | zero => exact stripAll_digit noDigits_whiteSpaces.2 digit fuel rest
  | succ n ih =>
      cases fuel with
      | zero => omega
      | succ fuel =>
          have tab : (whiteSpaces.map List.reverse).find?
              (·.isPrefixOf (List.replicate (n + 1) 9 ++ d :: rest)) = some [9] := by
            simp [whiteSpaces, List.replicate_succ]
          simp only [stripAll, tab]
          exact ih fuel (by omega)

theorem trim_digits {digits : Bytes} (some_ : digits ≠ []) (all : digits.all isDigit = true) (n : Nat) :
    trim (digits ++ List.replicate n 9) = digits := by
  have start : trimStart (digits ++ List.replicate n 9) = digits ++ List.replicate n 9 := by
    match digits, some_ with
    | d :: rest, _ =>
        simp only [List.all_cons, Bool.and_eq_true] at all
        exact stripAll_digit noDigits_whiteSpaces.1 all.1 _ _
  unfold trim trimEnd
  rw [start, List.reverse_append, List.reverse_replicate]
  cases reversed : digits.reverse with
  | nil => exact absurd (List.reverse_eq_nil_iff.mp reversed) some_
  | cons d rest =>
      have digit : isDigit d = true := by
        rw [List.all_eq_true] at all
        apply all
        rw [← List.mem_reverse, reversed]
        exact List.mem_cons_self
      rw [stripAll_tabs digit rest n _ (by simp), ← reversed, List.reverse_reverse]

theorem parseI64_digits {digits : Bytes} (some_ : digits ≠ []) (all : digits.all isDigit = true)
    (fits : (natOfDigits digits : Int) ≤ i64Max) :
    parseI64 digits = some (natOfDigits digits : Int) := by
  have unsigned : parseNat digits = some (natOfDigits digits) := by simp [parseNat, some_, all]
  have range : InI64 (natOfDigits digits : Int) := ⟨by unfold i64Min; omega, fits⟩
  have plain : parseI64 digits = ((parseNat digits).map fun n => (n : Int)).filter
      fun n => decide (InI64 n) := by
    unfold parseI64
    split
    · simp [isDigit] at all
    · simp [isDigit] at all
    · rfl
  rw [plain, unsigned]
  simp [range]

theorem parseI64_range {b : Bytes} {n : Int} (read : parseI64 b = some n) : InI64 n := by
  simpa using (Option.filter_eq_some_iff.mp read).2

def isJsonWs (b : UInt8) : Bool := b == 32 || b == 9 || b == 10 || b == 13

/-- The text behind the key of a member whose value is a natural number, in any
    formatting. -/
structure NumberText where
  gap : Bytes
  pad : Bytes
  digits : Bytes
  tail : Bytes
  gapWs : gap.all isJsonWs = true
  padWs : pad.all isJsonWs = true
  filled : digits ≠ []
  numeric : digits.all isDigit = true
  separated : ∃ space sep more, tail = space ++ sep :: more ∧ space.all isJsonWs = true ∧
    (sep = 44 ∨ sep = 125)

namespace NumberText

variable (t : NumberText)

def text : Bytes := t.gap ++ 58 :: (t.pad ++ (t.digits ++ t.tail))

def value : Nat := natOfDigits t.digits

/-- The offset of the end of the number. -/
def size : Nat := t.gap.length + 1 + t.pad.length + t.digits.length

end NumberText

namespace TokenAccumulator

/-- The number behind a colon. -/
def valueBehind (afterColon : Bytes) : Option Int :=
  match afterColon.dropWhile isBlank with
  | [] => none
  | value => parseI64 (trim (value.takeWhile fun b => !endsValue b))

theorem tokensBehind_colon {gap : Bytes} (plain : ∀ b ∈ gap, (b != 58) = true) (more : Bytes) :
    tokensBehind (gap ++ 58 :: more) = valueBehind more := by
  unfold tokensBehind
  rw [List.dropWhile_append_of_pos plain]
  rfl

theorem tokensBehind_none {gap : Bytes} (plain : ∀ b ∈ gap, (b != 58) = true) :
    tokensBehind gap = none := by
  unfold tokensBehind
  rw [List.dropWhile_eq_nil_iff.mpr plain]

theorem valueBehind_blank {pad : Bytes} (blank : pad.all isBlank = true) (more : Bytes) :
    valueBehind (pad ++ more) = valueBehind more := by
  unfold valueBehind
  rw [List.dropWhile_append_of_pos (by simpa using blank)]

theorem valueBehind_line {b : UInt8} (line : b = 10 ∨ b = 13) (more : Bytes) :
    valueBehind (b :: more) = none := by
  rcases line with rfl | rfl <;> rfl

theorem valueBehind_digits {digits rest : Bytes} (some_ : digits ≠ [])
    (numeric : digits.all isDigit = true) (fits : (natOfDigits digits : Int) ≤ i64Max)
    (tabs : ∃ n, rest.takeWhile (fun b => !endsValue b) = List.replicate n 9) :
    valueBehind (digits ++ rest) = some (natOfDigits digits : Int) := by
  obtain ⟨n, tabs⟩ := tabs
  have inner : ∀ b ∈ digits, (!endsValue b) = true ∧ isBlank b = false := by
    intro b member
    have digit := List.all_eq_true.mp numeric b member
    simp only [isDigit, Bool.and_eq_true, decide_eq_true_eq] at digit
    have other : ∀ c : UInt8, c.toNat < 48 ∨ 57 < c.toNat → (b == c) = false := by
      intro c outside
      rw [beq_eq_false_iff_ne]
      rintro rfl
      omega
    simp [endsValue, isBlank, other 44 (by decide), other 125 (by decide), other 32 (by decide),
      other 10 (by decide), other 13 (by decide), other 9 (by decide)]
  have taken : (digits ++ rest).takeWhile (fun b => !endsValue b) = digits ++ List.replicate n 9 := by
    rw [List.takeWhile_append_of_pos fun b member => (inner b member).1, tabs]
  have read : parseI64 (trim ((digits ++ rest).takeWhile fun b => !endsValue b)) =
      some (natOfDigits digits : Int) := by
    rw [taken, trim_digits some_ numeric, parseI64_digits some_ numeric fits]
  match digits, some_ with
  | d :: more, _ =>
      have other := (inner d List.mem_cons_self).2
      have start : (d :: more ++ rest).dropWhile isBlank = d :: more ++ rest := by simp [other]
      unfold valueBehind
      rw [start]
      exact read

theorem takeWhile_separated {tail space more : Bytes} {sep : UInt8} (split : tail = space ++ sep :: more)
    (ws : space.all isJsonWs = true) (separator : sep = 44 ∨ sep = 125) (k : Nat) :
    ∃ n, (tail.take k).takeWhile (fun b => !endsValue b) = List.replicate n 9 := by
  subst split
  induction space generalizing k with
  | nil =>
      refine ⟨0, ?_⟩
      cases k with
      | zero => rfl
      | succ k => rcases separator with rfl | rfl <;> rfl
  | cons b space ih =>
      simp only [List.all_cons, Bool.and_eq_true] at ws
      cases k with
      | zero => exact ⟨0, rfl⟩
      | succ k =>
          obtain ⟨n, rest⟩ := ih ws.2 k
          by_cases tab : b = 9
          · subst tab
            refine ⟨n + 1, ?_⟩
            rw [List.replicate_succ, ← rest]
            rfl
          · refine ⟨0, ?_⟩
            have ends : endsValue b = true := by
              simp [isJsonWs, tab] at ws
              rcases ws.1 with (rfl | rfl) | rfl <;> rfl
            simp [ends]

theorem valueBehind_none {pad : Bytes} (blank : pad.all isBlank = true) : valueBehind pad = none := by
  unfold valueBehind
  rw [List.dropWhile_eq_nil_iff.mpr (by simpa using blank)]

theorem valueBehind_take_line {blanks : Bytes} {b : UInt8} (blank : blanks.all isBlank = true)
    (line : b = 10 ∨ b = 13) (more : Bytes) (m : Nat) :
    valueBehind ((blanks ++ b :: more).take m) = none := by
  rw [List.take_append]
  cases left : m - blanks.length with
  | zero =>
      rw [List.take_zero, List.append_nil]
      apply valueBehind_none
      rw [List.all_eq_true] at blank ⊢
      exact fun b member => blank b (List.mem_of_mem_take member)
  | succ j =>
      rw [List.take_of_length_le (by omega), valueBehind_blank blank, List.take_succ_cons]
      exact valueBehind_line line _

theorem valueBehind_take_iff (t : NumberText) (positive : 0 < t.value)
    (fits : (t.value : Int) ≤ i64Max) (m : Nat) :
    valueBehind ((t.digits ++ t.tail).take m) = some (t.value : Int) ↔ t.digits.length ≤ m := by
  rcases Nat.lt_or_ge m t.digits.length with cut | whole
  · rw [List.take_append_of_le_length (Nat.le_of_lt cut)]
    refine iff_of_false ?_ (Nat.not_le.mpr cut)
    rcases Nat.eq_zero_or_pos m with rfl | some_
    · simp [valueBehind]
    have rest : t.digits.drop m ≠ [] := by
      rw [ne_eq, List.drop_eq_nil_iff]
      omega
    have first : t.digits.take m ≠ [] := by
      rw [ne_eq, List.take_eq_nil_iff]
      rintro (zero | empty)
      · omega
      · exact t.filled empty
    have numeric : (t.digits.take m).all isDigit = true := by
      have all := t.numeric
      rw [List.all_eq_true] at all ⊢
      exact fun b member => all b (List.mem_of_mem_take member)
    have joined := List.take_append_drop m t.digits
    have less : natOfDigits (t.digits.take m) < t.value := by
      unfold NumberText.value at positive ⊢
      rw [← joined] at positive
      have smaller := natOfDigits_cut rest positive
      rwa [joined] at smaller
    have read : valueBehind (t.digits.take m ++ []) = _ :=
      valueBehind_digits first numeric (by omega) ⟨0, rfl⟩
    rw [List.append_nil] at read
    rw [read]
    intro same
    have equal := Int.ofNat_inj.mp (Option.some.inj same)
    omega
  · rw [List.take_append, List.take_of_length_le whole]
    obtain ⟨space, sep, more, split, ws, separator⟩ := t.separated
    have read := valueBehind_digits t.filled t.numeric fits
      (takeWhile_separated split ws separator (m - t.digits.length))
    exact iff_of_true read whole

theorem exists_line {pad : Bytes} (ws : pad.all isJsonWs = true) (other : ¬ pad.all isBlank = true) :
    ∃ blanks b more, pad = blanks ++ b :: more ∧ blanks.all isBlank = true ∧ (b = 10 ∨ b = 13) := by
  induction pad with
  | nil => exact absurd rfl other
  | cons b pad ih =>
      simp only [List.all_cons, Bool.and_eq_true] at ws other
      by_cases blank : isBlank b = true
      · obtain ⟨blanks, c, more, rfl, all, line⟩ := ih ws.2 fun all => other ⟨blank, all⟩
        exact ⟨b :: blanks, c, more, rfl, by simp [blank, all], line⟩
      · refine ⟨[], b, pad, rfl, rfl, ?_⟩
        simp only [isBlank, Bool.or_eq_true, beq_iff_eq, not_or] at blank
        simpa [isJsonWs, blank] using ws.1

/-- The reading behind a key, from a buffer that ends somewhere in the text: it is the
    number exactly if the buffer has all of it and nothing but blanks stand ahead
    of it. -/
theorem tokensBehind_take_iff (t : NumberText) (positive : 0 < t.value)
    (fits : (t.value : Int) ≤ i64Max) (k : Nat) :
    tokensBehind (t.text.take k) = some (t.value : Int) ↔ t.pad.all isBlank = true ∧ t.size ≤ k := by
  have plain : ∀ b ∈ t.gap, (b != 58) = true := by
    intro b member
    have ws := List.all_eq_true.mp t.gapWs b member
    by_contra colon
    obtain rfl : b = 58 := by simpa using colon
    cases ws
  unfold NumberText.text NumberText.size
  rw [List.take_append]
  cases left : k - t.gap.length with
  | zero =>
      rw [List.take_zero, List.append_nil,
        tokensBehind_none fun b member => plain b (List.mem_of_mem_take member)]
      refine iff_of_false (by simp) ?_
      omega
  | succ m =>
      rw [List.take_of_length_le (by omega), List.take_succ_cons, tokensBehind_colon plain]
      by_cases blank : t.pad.all isBlank = true
      · have taken : (t.pad.take m).all isBlank = true := by
          rw [List.all_eq_true] at blank ⊢
          exact fun b member => blank b (List.mem_of_mem_take member)
        have some_ := List.length_pos_iff.mpr t.filled
        rw [List.take_append, valueBehind_blank taken, valueBehind_take_iff t positive fits]
        simp only [blank, true_and]
        omega
      · obtain ⟨blanks, b, more, split, all, line⟩ := exists_line t.padWs blank
        rw [split, List.append_assoc, List.cons_append, valueBehind_take_line all line, ← split]
        simp [blank]

variable {arith : I64Arith} {acc : TokenAccumulator} {chunk : Bytes}

theorem length_key : key.length = 19 := by decide +kernel

theorem key_ne_nil : key ≠ [] := by
  intro empty
  have size := length_key
  rw [empty] at size
  cases size

theorem extractTokens_absent {b : Bytes} (absent : Needle.find key b = none) (fuel : Nat) (found : Int) :
    extractTokens arith fuel b found = (found, b) := by
  cases fuel with
  | zero => rfl
  | succ n => simp only [extractTokens, absent]

theorem feed_absent (arith : I64Arith) (absent : Needle.find key (acc.buffer ++ chunk) = none) :
    acc.feed arith chunk = (0, ⟨acc.buffer ++ chunk⟩) := by
  simp only [feed, extractTokens_absent absent]

theorem tokensBehind_range {rest : Bytes} {n : Int} (read : tokensBehind rest = some n) : InI64 n := by
  unfold tokensBehind at read
  split at read
  · cases read
  · split at read
    · cases read
    · exact parseI64_range read

theorem feed_lone (arith : I64Arith) {pos : Nat}
    (found : Needle.find key (acc.buffer ++ chunk) = some pos)
    (rest : Needle.find key ((acc.buffer ++ chunk).drop (pos + 19)) = none) :
    acc.feed arith chunk = ((tokensBehind ((acc.buffer ++ chunk).drop (pos + 19))).getD 0,
      ⟨(acc.buffer ++ chunk).drop (pos + 19)⟩) := by
  obtain ⟨n, fuel⟩ : ∃ n, (acc.buffer ++ chunk).length = n + 1 := by
    have inside := Needle.length_le found
    have size := length_key
    exact ⟨(acc.buffer ++ chunk).length - 1, by omega⟩
  unfold feed
  dsimp only
  rw [fuel]
  simp only [extractTokens, found, extractTokens_absent rest]
  cases read : tokensBehind ((acc.buffer ++ chunk).drop (pos + 19)) with
  | none => rfl
  | some tokens =>
      simp [arith.store_of_inI64 (tokensBehind_range read)]

end TokenAccumulator

namespace MetricStream

open TokenAccumulator

variable {arith : I64Arith} {s : MetricStream}

@[simp] theorem count_accumulator (chunk : Bytes) :
    (s.count arith chunk).accumulator = (s.accumulator.feed arith chunk).2 := by
  unfold count
  dsimp only
  split <;> rfl

theorem count_lifecycleGuard (chunk : Bytes) :
    (s.count arith chunk).lifecycleGuard =
      if (s.accumulator.feed arith chunk).1 > 0 then
        s.lifecycleGuard.addDeliveredTokens arith (s.accumulator.feed arith chunk).1
      else s.lifecycleGuard := by
  unfold count
  dsimp only
  split <;> rfl

theorem deliveredTokens_absent {chunks : List Bytes}
    (absent : ∀ q, ¬ key <+: (s.accumulator.buffer ++ chunks.flatten).drop q) :
    (chunks.foldl (count arith) s).lifecycleGuard = s.lifecycleGuard := by
  induction chunks generalizing s with
  | nil => rfl
  | cons chunk rest ih =>
      have here : Needle.find key (s.accumulator.buffer ++ chunk) = none := by
        rw [Needle.find_eq_none]
        intro q starts
        apply absent q
        rw [List.flatten_cons, ← List.append_assoc]
        exact Needle.starts_mono _ starts
      have fed := feed_absent arith here
      rw [List.foldl_cons, ih, count_lifecycleGuard, fed]
      · rfl
      · rw [count_accumulator, fed]
        simpa using absent

/-- What a reading adds to the count. -/
def credited (reading : Option Int) : Int := max (reading.getD 0) 0

theorem credited_eq_iff {reading : Option Int} {n : Int} (positive : 0 < n) :
    credited reading = n ↔ reading = some n := by
  unfold credited
  cases reading with
  | none =>
      simp only [Option.getD_none, max_self, reduceCtorEq, iff_false]
      omega
  | some m =>
      simp only [Option.getD_some, Option.some.injEq]
      omega

/-- The chunk that completes the only key: what stands behind the key in it counts. -/
theorem count_lone (arith : I64Arith) {chunk : Bytes} {pos : Nat}
    (zero : s.lifecycleGuard.deliveredTokens = 0)
    (found : Needle.find key (s.accumulator.buffer ++ chunk) = some pos)
    (rest : Needle.find key ((s.accumulator.buffer ++ chunk).drop (pos + 19)) = none) :
    (s.count arith chunk).lifecycleGuard.deliveredTokens =
        credited (tokensBehind ((s.accumulator.buffer ++ chunk).drop (pos + 19))) ∧
      (s.count arith chunk).accumulator.buffer = (s.accumulator.buffer ++ chunk).drop (pos + 19) := by
  have fed := feed_lone arith found rest
  refine ⟨?_, by rw [count_accumulator, fed]⟩
  rw [count_lifecycleGuard, fed]
  unfold credited
  cases read : tokensBehind ((s.accumulator.buffer ++ chunk).drop (pos + 19)) with
  | none => simp [zero]
  | some tokens =>
      simp only [Option.getD_some]
      split
      · rename_i positive
        rw [LifecycleGuard.addDeliveredTokens, zero, Int.zero_add,
          arith.store_of_inI64 (tokensBehind_range read), max_eq_left (Int.le_of_lt positive)]
      · rename_i negative
        rw [zero, max_eq_right (Int.not_lt.mp negative)]

/-- The only key of a stream: what is counted is the reading at the end of the chunk
    that completes the key. -/
theorem deliveredTokens_lone (arith : I64Arith) {chunks : List Bytes} {stream p : Bytes} {pos : Nat}
    (lone : Needle.Lone key stream pos) (whole : p ++ chunks.flatten = stream)
    (buffered : s.accumulator.buffer = p) (short : p.length < pos + 19)
    (zero : s.lifecycleGuard.deliveredTokens = 0) :
    ∃ front back, chunks = front ++ back ∧ pos + 19 ≤ (p ++ front.flatten).length ∧
      (∀ front' back', chunks = front' ++ back' → pos + 19 ≤ (p ++ front'.flatten).length →
        (p ++ front.flatten).length ≤ (p ++ front'.flatten).length) ∧
      (chunks.foldl (count arith) s).lifecycleGuard.deliveredTokens =
        credited (tokensBehind ((p ++ front.flatten).drop (pos + 19))) := by
  induction chunks generalizing s p with
  | nil =>
      exfalso
      have inside := lone.length_le
      rw [length_key, ← whole, List.flatten_nil, List.append_nil] at inside
      omega
  | cons chunk rest ih =>
      have joined : (p ++ chunk) ++ rest.flatten = stream := by simpa using whole
      have split := lone
      rw [← joined] at split
      by_cases more : (p ++ chunk).length < pos + 19
      · have absent : Needle.find key (s.accumulator.buffer ++ chunk) = none := by
          rw [buffered]
          exact split.find_short (by rwa [length_key]) key_ne_nil
        have fed := feed_absent arith absent
        obtain ⟨front, back, rfl, complete, least, counted⟩ := ih joined
          (s := s.count arith chunk) (by rw [count_accumulator, fed, buffered]) more
          (by rw [count_lifecycleGuard, fed]; exact zero)
        refine ⟨chunk :: front, back, rfl, by simpa using complete, ?_, by simpa using counted⟩
        intro front' back' same longer
        cases front' with
        | nil =>
            simp only [List.flatten_nil, List.append_nil] at longer
            omega
        | cons chunk' front' =>
            obtain ⟨rfl, later⟩ := List.cons.inj same
            simpa using least front' back' later (by simpa using longer)
      · have long : pos + key.length ≤ (p ++ chunk).length := by
          rw [length_key]
          omega
        have found := split.find_long long
        have behind := lone.absent_behind key_ne_nil
        rw [← joined, List.drop_append_of_le_length long] at behind
        have unfound : Needle.find key ((p ++ chunk).drop (pos + 19)) = none := by
          rw [Needle.find_eq_none]
          intro q starts
          rw [length_key] at behind
          exact behind q (Needle.starts_mono _ starts)
        rw [← buffered] at found unfound
        obtain ⟨counted, kept⟩ := count_lone arith zero found unfound
        rw [buffered] at counted kept
        have later : (rest.foldl (count arith) (s.count arith chunk)).lifecycleGuard =
            (s.count arith chunk).lifecycleGuard := by
          apply deliveredTokens_absent
          rw [kept]
          rwa [length_key] at behind
        refine ⟨[chunk], rest, rfl, by simpa using more, ?_, ?_⟩
        · intro front' back' same longer
          cases front' with
          | nil =>
              simp only [List.flatten_nil, List.append_nil] at longer
              omega
          | cons chunk' front' =>
              obtain ⟨rfl, -⟩ := List.cons.inj same
              simp
        · rw [List.foldl_cons, later, counted]
          simp

/-- No chunk ends between the two offsets. -/
def KeptWhole (chunks : List Bytes) (start stop : Nat) : Prop :=
  ∀ front back, chunks = front ++ back → start ≤ front.flatten.length → stop ≤ front.flatten.length

/-- Where the key occurs once and a number stands behind it, the number is what is
    counted exactly if only blanks stand ahead of it and no chunk ends between the
    key and the end of the number. -/
theorem deliveredTokens_iff {chunks : List Bytes} {pre : Bytes} {t : NumberText}
    (fresh : s.accumulator = .new) (zero : s.lifecycleGuard.deliveredTokens = 0)
    (whole : chunks.flatten = pre ++ (key ++ t.text))
    (lone : Needle.Lone key chunks.flatten pre.length) (positive : 0 < t.value)
    (fits : (t.value : Int) ≤ i64Max) :
    (chunks.foldl (count arith) s).lifecycleGuard.deliveredTokens = t.value ↔
      t.pad.all isBlank = true ∧
        KeptWhole chunks (pre.length + 19) (pre.length + 19 + t.size) := by
  obtain ⟨front, back, split, complete, least, counted⟩ := deliveredTokens_lone arith lone
    (List.nil_append _) (by rw [fresh]; rfl) (by simp) zero
  simp only [List.nil_append] at complete least counted
  have behind : front.flatten.drop (pre.length + 19) =
      t.text.take (front.flatten.length - (pre.length + 19)) := by
    have first : front.flatten = chunks.flatten.take front.flatten.length := by
      rw [split, List.flatten_append, List.take_left]
    have rest : chunks.flatten.drop (pre.length + 19) = t.text := by
      rw [whole, ← List.drop_drop, List.drop_left, ← length_key, List.drop_left]
    rw [first, List.length_take_of_le (by rw [split]; simp), List.drop_take, rest]
  rw [counted, credited_eq_iff (by omega), behind, tokensBehind_take_iff t positive fits]
  refine and_congr_right fun _ => ?_
  constructor
  · intro enough front' back' same reached
    have longer := least front' back' same reached
    omega
  · intro kept
    have stop := kept front back split complete
    omega

end MetricStream

end TinyLlb
