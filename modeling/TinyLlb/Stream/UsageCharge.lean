import TinyLlb.Stream.PassThrough
import TinyLlb.Stream.TokenScan

/-! # What a usage object is charged on the two paths

The retry path counts the usage frames from the terminal frame on, by their JSON.
The plain path counts what it finds behind the bytes of the key. The two agree
where the usage frame is not ahead of the terminal one and its number can be read
from the chunk that completes the key.
-/

namespace TinyLlb

open RetryTask

section

variable {fromSlice : Bytes → Option Json}

/-- The line has no usage object, as either reader takes it. -/
def UsageFree (fromSlice : Bytes → Option Json) (line : Bytes) : Prop :=
  ∀ value, fromSlice (trimAscii (stripDataPrefix line)) = some value ∨
    fromSlice (trimAscii (stripDataPrefixOr line)) = some value →
      ∀ members, value.get "usage" ≠ some (.object members)

/-- A data line with a usage object. -/
structure UsageLine (fromSlice : Bytes → Option Json) (line : Bytes) (tokens : Nat) : Prop where
  data : ascii "data:" <+: line
  unmarked : trimAscii (stripDataPrefix line) ≠ ascii "[DONE]"
  usage : ∃ value members, fromSlice (trimAscii (stripDataPrefix line)) = some value ∧
    value.get "usage" = some (.object members) ∧
    (Json.object members).get "completion_tokens" = some (.number (.posInt tokens)) ∧
    ∀ n, (Json.object members).get "total_tokens" = some (.number (.negInt n)) → n < 0

/-- Among the events, one has a usage object, on one of its lines. -/
structure UsageOnce (fromSlice : Bytes → Option Json) (before : List Bytes) (frame : Bytes)
    (after : List Bytes) (tokens : Nat) : Prop where
  others : ∀ other ∈ before ++ after, ∀ line ∈ other.splitOn lf, UsageFree fromSlice line
  here : ∃ above line below, frame.splitOn lf = above ++ line :: below ∧
    UsageLine fromSlice line tokens ∧ ∀ other ∈ above ++ below, UsageFree fromSlice other

/-- The line makes its event a usage frame. -/
def lineHasUsage (fromSlice : Bytes → Option Json) (line : Bytes) : Bool :=
  trimAscii (stripDataPrefix line) != ascii "[DONE]" &&
    (fromSlice (trimAscii (stripDataPrefix line))).any fun value =>
      (value.get "usage").any Json.isFilledObject

theorem hasUsage_foldl (lines : List Bytes) (cls : FrameClassification) :
    (lines.foldl (classifyLine fromSlice) cls).hasUsage =
      (cls.hasUsage || lines.any (lineHasUsage fromSlice)) := by
  induction lines generalizing cls with
  | nil => simp
  | cons line rest ih =>
      have one : (classifyLine fromSlice cls line).hasUsage =
          (cls.hasUsage || lineHasUsage fromSlice line) := by
        unfold classifyLine lineHasUsage
        dsimp only
        split
        · rename_i marker
          simp [marker]
        · rename_i unmarked
          have differs := bne_iff_ne.mpr unmarked
          cases fromSlice (trimAscii (stripDataPrefix line)) with
          | none => simp
          | some value => simp [classifyValue, differs]
      rw [List.foldl_cons, ih, one, List.any_cons, Bool.or_assoc]

theorem lineHasUsage_free {line : Bytes} (free : UsageFree fromSlice line) :
    lineHasUsage fromSlice line = false := by
  unfold lineHasUsage
  cases read : fromSlice (trimAscii (stripDataPrefix line)) with
  | none => simp
  | some value =>
      have none_ := free value (.inl read)
      cases usage : value.get "usage" with
      | none => simp [usage]
      | some member =>
          cases member with
          | object members => exact absurd usage (none_ members)
          | _ => simp [usage, Json.isFilledObject]

theorem lineHasUsage_usage {line : Bytes} {tokens : Nat} (usage : UsageLine fromSlice line tokens) :
    lineHasUsage fromSlice line = true := by
  obtain ⟨value, members, read, object, counted, -⟩ := usage.usage
  have filled : members.isEmpty = false := by
    cases members with
    | nil => cases counted
    | cons => rfl
  have differs := bne_iff_ne.mpr usage.unmarked
  simp [lineHasUsage, differs, read, object, Json.isFilledObject, filled]

theorem usageTokens_free {value : Json} (none_ : ∀ members, value.get "usage" ≠ some (.object members)) :
    usageTokens value = 0 := by
  unfold usageTokens
  cases usage : value.get "usage" with
  | none => rfl
  | some member =>
      cases member with
      | object members => exact absurd usage (none_ members)
      | _ => rfl

theorem completionTokensFromLines_free {above : List Bytes}
    (free : ∀ line ∈ above, UsageFree fromSlice line) (rest : List Bytes) :
    completionTokensFromLines fromSlice (above ++ rest) = completionTokensFromLines fromSlice rest := by
  induction above with
  | nil => rfl
  | cons line above ih =>
      have later := ih fun line member => free line (List.mem_cons_of_mem _ member)
      rw [List.cons_append, completionTokensFromLines]
      cases read : fromSlice (trimAscii (stripDataPrefixOr line)) with
      | none => exact later
      | some value =>
          have zero := usageTokens_free (free line List.mem_cons_self value (.inr read))
          simp [zero, later]

theorem stripDataPrefixOr_data {line : Bytes} (data : ascii "data:" <+: line) :
    stripDataPrefixOr line = stripDataPrefix line := by
  simp [stripDataPrefixOr, stripDataPrefix, data]

theorem usageTokens_object {value : Json} {members : List (String × Json)} {tokens : Nat}
    (object : value.get "usage" = some (.object members))
    (counted : (Json.object members).get "completion_tokens" = some (.number (.posInt tokens)))
    (negative : ∀ n, (Json.object members).get "total_tokens" = some (.number (.negInt n)) → n < 0) :
    ((tokens : Int) ≤ i64Max → usageTokens value = tokens) ∧
      (i64Max < (tokens : Int) → usageTokens value ≤ i64Max) := by
  constructor
  · intro fits
    have small : tokens ≤ 9223372036854775807 := by
      unfold i64Max at fits
      omega
    simp [usageTokens, object, counted, Json.asI64, JsonNumber.asI64, small]
  · intro large
    have over_ : ¬ tokens ≤ 9223372036854775807 := by
      unfold i64Max at large
      omega
    have total : usageTokens value =
        (((Json.object members).get "total_tokens").bind Json.asI64).getD 0 := by
      simp [usageTokens, object, counted, Json.asI64, JsonNumber.asI64, over_]
    rw [total]
    unfold i64Max
    cases found : (Json.object members).get "total_tokens" with
    | none => simp
    | some member =>
        cases member with
        | number n =>
            cases n with
            | posInt m =>
                simp only [Option.bind_some, Json.asI64, JsonNumber.asI64]
                split
                · simp only [Option.getD_some]
                  omega
                · simp
            | negInt n =>
                have below := negative n found
                simp only [Option.bind_some, Json.asI64, JsonNumber.asI64, Option.getD_some]
                omega
            | float => simp [Json.asI64, JsonNumber.asI64]
        | _ => simp [Json.asI64]

theorem completionTokens_once {before after : List Bytes} {frame : Bytes} {tokens : Nat}
    (once : UsageOnce fromSlice before frame after tokens) (positive : 0 < tokens) :
    ((tokens : Int) ≤ i64Max → completionTokensFromFrame fromSlice frame = tokens) ∧
      (i64Max < (tokens : Int) → completionTokensFromFrame fromSlice frame ≤ i64Max) := by
  obtain ⟨above, line, below, split, usage, free⟩ := once.here
  obtain ⟨value, members, read, object, counted, negative⟩ := usage.usage
  obtain ⟨fit, large⟩ := usageTokens_object object counted negative
  have rest : completionTokensFromLines fromSlice below = 0 := by
    have all := completionTokensFromLines_free
      (fun line member => free line (List.mem_append_right _ member)) []
    rwa [List.append_nil] at all
  have here : completionTokensFromFrame fromSlice frame =
      if usageTokens value > 0 then usageTokens value else 0 := by
    unfold completionTokensFromFrame
    rw [split, completionTokensFromLines_free
      fun line member => free line (List.mem_append_left _ member)]
    simp only [completionTokensFromLines, stripDataPrefixOr_data usage.data, read, rest]
  rw [here]
  constructor
  · intro fits
    rw [fit fits, if_pos (by omega)]
  · intro over_
    have bound := large over_
    split
    · exact bound
    · unfold i64Max
      omega

end

section

variable {cfg : RetryConfig} {s : RetryTask} {ts : List TaskTransition} {before after : List Bytes}
  {frame : Bytes} {tokens : Nat}

theorem usageTotal_append (cfg : RetryConfig) (left right : List Bytes) :
    usageTotal cfg (left ++ right) = usageTotal cfg left + usageTotal cfg right := by
  simp [usageTotal]

theorem hasUsage_free (free : ∀ line ∈ frame.splitOn lf, UsageFree cfg.fromSlice line) :
    (cfg.classify frame).hasUsage = false := by
  unfold RetryConfig.classify classifyFrame
  rw [hasUsage_foldl, Bool.or_eq_false_iff]
  refine ⟨rfl, ?_⟩
  rw [List.any_eq_false]
  intro line member
  simp [lineHasUsage_free (free line member)]

theorem usageTotal_free {frames : List Bytes}
    (free : ∀ other ∈ frames, ∀ line ∈ other.splitOn lf, UsageFree cfg.fromSlice line) :
    usageTotal cfg frames = 0 := by
  unfold usageTotal
  apply List.sum_eq_zero
  intro n member
  obtain ⟨other, inside, rfl⟩ := List.mem_map.mp member
  rw [if_neg (by simp [hasUsage_free (free other inside)])]

theorem usageTotal_once (once : UsageOnce cfg.fromSlice before frame after tokens) :
    usageTotal cfg [frame] = completionTokensFromFrame cfg.fromSlice frame := by
  have usage : (cfg.classify frame).hasUsage = true := by
    obtain ⟨above, line, below, split, usage, -⟩ := once.here
    unfold RetryConfig.classify classifyFrame
    rw [hasUsage_foldl, Bool.or_eq_true, List.any_eq_true]
    exact .inr ⟨line, by rw [split]; simp, lineHasUsage_usage usage⟩
  simp [usageTotal, usage]

/-- The terminal frame is the usage frame or comes before it. -/
def TerminalFirst (cfg : RetryConfig) (before : List Bytes) (frame : Bytes) : Prop :=
  ∃ other ∈ before ++ [frame], (cfg.classify other).finishReason.isSome = true

theorem fromTerminal_eq_nil {frames : List Bytes} :
    fromTerminal cfg frames = [] ↔
      ¬ ∃ other ∈ frames, (cfg.classify other).finishReason.isSome = true := by
  unfold fromTerminal
  simp [List.dropWhile_eq_nil_iff, Option.isSome_iff_ne_none]

/-- The usage frame counts unless it is ahead of the terminal frame. -/
theorem usageTotal_fromTerminal (once : UsageOnce cfg.fromSlice before frame after tokens) :
    (TerminalFirst cfg before frame → usageTotal cfg (fromTerminal cfg (before ++ frame :: after)) =
      completionTokensFromFrame cfg.fromSlice frame) ∧
    (¬ TerminalFirst cfg before frame →
      usageTotal cfg (fromTerminal cfg (before ++ frame :: after)) = 0) := by
  have free : ∀ {frames : List Bytes}, frames ⊆ before ++ after → usageTotal cfg frames = 0 := by
    intro frames inside
    exact usageTotal_free fun other member => once.others other (inside member)
  have split : fromTerminal cfg (before ++ frame :: after) =
      if fromTerminal cfg (before ++ [frame]) = [] then fromTerminal cfg after
      else fromTerminal cfg (before ++ [frame]) ++ after := by
    unfold fromTerminal
    rw [← List.singleton_append, ← List.append_assoc, List.dropWhile_append]
    simp only [List.isEmpty_iff]
  rw [split]
  constructor
  · intro first
    have some_ : fromTerminal cfg (before ++ [frame]) ≠ [] := by
      rw [ne_eq, fromTerminal_eq_nil, not_not]
      exact first
    have here : fromTerminal cfg (before ++ [frame]) = fromTerminal cfg before ++ [frame] := by
      rw [fromTerminal_snoc] at some_ ⊢
      split
      · rename_i none_
        rw [if_pos none_] at some_
        split
        · rename_i inner
          rw [if_pos inner] at some_
          exact absurd rfl some_
        · rw [none_, List.nil_append]
      · rfl
    have earlier : fromTerminal cfg before ⊆ before ++ after :=
      List.subset_append_of_subset_left _ (List.dropWhile_sublist _).subset
    rw [if_neg some_, here, usageTotal_append, usageTotal_append, usageTotal_once once, free earlier,
      free (List.subset_append_right _ _), Int.zero_add, Int.add_zero]
  · intro later
    rw [if_pos (fromTerminal_eq_nil.mpr later)]
    exact free (List.subset_append_of_subset_right _ (List.dropWhile_sublist _).subset)

/-- The retry path charges the tokens exactly if they fit and the usage frame is not
    ahead of the terminal frame. -/
theorem retry_charges_iff {flowId : FlowId} {estimatedCost : Int} {ending : Ending}
    (calm : Undisturbed cfg ts)
    (run : (retryStream cfg (.new flowId estimatedCost)).Exec
      (retryStream cfg (.new flowId estimatedCost)).start ts s)
    (over_ : s.pc = .finished ending) (accepted : s.accepted = true)
    (events : (SseFrameParser.cutter.extract (chunksRead ts).flatten).1 = before ++ frame :: after)
    (once : UsageOnce cfg.fromSlice before frame after tokens) (positive : 0 < tokens) :
    s.lifecycleGuard.deliveredTokens = tokens ↔
      (tokens : Int) ≤ i64Max ∧ TerminalFirst cfg before frame := by
  obtain ⟨ok, view⟩ := extract_chunks calm run over_ accepted
  simp only [view] at events
  have total := (counted_of_run calm.connected run).total (.inr ok)
  rw [events] at total
  obtain ⟨first, later⟩ := usageTotal_fromTerminal once
  obtain ⟨exact_, large⟩ := completionTokens_once once positive
  rw [total]
  by_cases terminal : TerminalFirst cfg before frame
  · simp only [first terminal, terminal, and_true]
    have nonneg := completionTokensFromFrame_nonneg cfg.fromSlice frame
    rcases Int.lt_or_le i64Max tokens with beyond | fits
    · have bound := large beyond
      rw [cfg.arith.store_of_inI64 ⟨by unfold i64Min; omega, bound⟩]
      omega
    · have count := exact_ fits
      rw [cfg.arith.store_of_inI64 ⟨by unfold i64Min; omega, by omega⟩]
      exact iff_of_true count fits
  · rw [later terminal, store_zero]
    refine iff_of_false (by omega) ?_
    exact fun both => terminal both.2

end

section

open TokenAccumulator MetricStream

/-- The key stands in the stream once, with the number behind it. -/
structure SpelledOnce (stream : Bytes) (tokens : Nat) (pre : Bytes) (t : NumberText) : Prop where
  whole : stream = pre ++ (key ++ t.text)
  lone : Needle.Lone key stream pre.length
  value : t.value = tokens

/-- The bytes of the key are that key and nothing else, wherever they stand. -/
def KeyOnly (stream : Bytes) (tokens : Nat) : Prop :=
  ∀ q, key <+: stream.drop q → ∃ pre t, SpelledOnce stream tokens pre t

/-- The number can be read from the chunk that completes the key: only blanks stand
    ahead of it, and no chunk ends between the key and the end of the number. -/
def Readable (chunks : List Bytes) (tokens : Nat) : Prop :=
  ∃ pre t, SpelledOnce chunks.flatten tokens pre t ∧ t.pad.all isBlank = true ∧
    KeptWhole chunks (pre.length + 19) (pre.length + 19 + t.size)

variable {arith : I64Arith} {metric : MetricStream} {chunks : List Bytes}
  {polls : List (Nat × ReadItem)} {tokens : Nat}

theorem delivered_pollAll (arith : I64Arith) (polled : metric.Polls chunks polls) :
    (metric.pollAll arith polls).1.lifecycleGuard.deliveredTokens =
      (chunks.foldl (count arith) metric).lifecycleGuard.deliveredTokens := by
  rw [pollAll_eq arith polled]
  rfl

theorem metric_charges (fresh : metric.accumulator = .new)
    (zero : metric.lifecycleGuard.deliveredTokens = 0) (positive : 0 < tokens)
    (fits : (tokens : Int) ≤ i64Max) (readable : Readable chunks tokens) :
    (chunks.foldl (count arith) metric).lifecycleGuard.deliveredTokens = tokens := by
  obtain ⟨pre, t, ⟨whole, lone, rfl⟩, blank, kept⟩ := readable
  exact (deliveredTokens_iff fresh zero whole lone positive fits).mpr ⟨blank, kept⟩

theorem readable_of_charged (fresh : metric.accumulator = .new)
    (zero : metric.lifecycleGuard.deliveredTokens = 0) (positive : 0 < tokens)
    (fits : (tokens : Int) ≤ i64Max) (only : KeyOnly chunks.flatten tokens)
    (charged : (chunks.foldl (count arith) metric).lifecycleGuard.deliveredTokens = tokens) :
    Readable chunks tokens := by
  by_cases spelled : ∃ q, key <+: chunks.flatten.drop q
  · obtain ⟨q, starts⟩ := spelled
    obtain ⟨pre, t, ⟨whole, lone, rfl⟩⟩ := only q starts
    obtain ⟨blank, kept⟩ := (deliveredTokens_iff fresh zero whole lone positive fits).mp charged
    exact ⟨pre, t, ⟨whole, lone, rfl⟩, blank, kept⟩
  · -- the key is escaped, and the scan never sees it
    have none_ : (chunks.foldl (count arith) metric).lifecycleGuard = metric.lifecycleGuard := by
      apply deliveredTokens_absent
      rw [fresh]
      exact not_exists.mp spelled
    rw [none_, zero] at charged
    omega

end

section

variable {cfg : RetryConfig} {s : RetryTask} {ts : List TaskTransition} {before after : List Bytes}
  {frame : Bytes} {tokens : Nat}

end

/-- What either reader makes of a line. -/
def valuesOf (fromSlice : Bytes → Option Json) (line : Bytes) : List Json :=
  (fromSlice (trimAscii (stripDataPrefix line))).toList ++
    (fromSlice (trimAscii (stripDataPrefixOr line))).toList

theorem usageFree_of_values {fromSlice : Bytes → Option Json} {line : Bytes}
    (checked : ∀ value ∈ valuesOf fromSlice line, (value.get "usage").isNone = true) :
    UsageFree fromSlice line := by
  intro value read members usage
  have member : value ∈ valuesOf fromSlice line := by simpa [valuesOf] using read
  simpa [usage] using checked value member

theorem keptWhole_of_inits {chunks : List Bytes} {start stop : Nat}
    (checked : ∀ front ∈ chunks.inits, start ≤ front.flatten.length → stop ≤ front.flatten.length) :
    MetricStream.KeptWhole chunks start stop := by
  intro front back split
  apply checked
  rw [List.mem_inits, split]
  exact List.prefix_append _ _

theorem usageLine_sampleUsage : UsageLine sampleReader (ascii ("data: " ++ sampleUsage)) 5 := by
  obtain ⟨data, text, unmarked⟩ : ascii "data:" <+: ascii ("data: " ++ sampleUsage) ∧
      trimAscii (stripDataPrefix (ascii ("data: " ++ sampleUsage))) = ascii sampleUsage ∧
      ascii sampleUsage ≠ ascii "[DONE]" := by
    decide +kernel
  refine ⟨data, by rwa [text], ?_⟩
  rw [text]
  exact ⟨_, _, rfl, rfl, rfl, fun n found => by cases found⟩

theorem usageOnce_sample {before after : List Bytes}
    (others : ∀ other ∈ before ++ after, other = sampleEvent sampleContent ∨
      other = sampleEvent sampleStop) :
    UsageOnce sampleReader before (sampleEvent sampleUsage) after 5 := by
  obtain ⟨content, stop, split, empty⟩ :
      (∀ line ∈ (sampleEvent sampleContent).splitOn lf, ∀ value ∈ valuesOf sampleReader line,
        (value.get "usage").isNone = true) ∧
      (∀ line ∈ (sampleEvent sampleStop).splitOn lf, ∀ value ∈ valuesOf sampleReader line,
        (value.get "usage").isNone = true) ∧
      (sampleEvent sampleUsage).splitOn lf = [] ++ ascii ("data: " ++ sampleUsage) :: [[], []] ∧
      ∀ value ∈ valuesOf sampleReader [], (value.get "usage").isNone = true := by
    decide +kernel
  constructor
  · intro other member line inside
    apply usageFree_of_values
    rcases others other member with rfl | rfl
    · exact content line inside
    · exact stop line inside
  · refine ⟨[], _, _, split, usageLine_sampleUsage, ?_⟩
    intro other member
    obtain rfl : other = [] := by simpa using member
    exact usageFree_of_values empty

/-- The number of the sample usage frame at the end of a stream. -/
def sampleNumber : NumberText :=
  { gap := []
    pad := []
    digits := [53]
    tail := ascii "\x7d\x7d\n\n"
    gapWs := rfl
    padWs := rfl
    filled := by decide
    numeric := by decide
    separated := ⟨[], 125, [125, 10, 10], by decide +kernel, rfl, .inr rfl⟩ }

/-- The stream of the turn up to the key. -/
def upToKey : Bytes :=
  sampleEvent sampleContent ++ sampleEvent sampleStop ++ ascii "data: \x7b\"usage\":\x7b"

end TinyLlb
