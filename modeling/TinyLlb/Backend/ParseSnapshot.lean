import TinyLlb.Backend.Prometheus

/-! # What `parse_snapshot` reads from a body

A sample is heeded when its labels or a space stand right behind its name, and the number
read for it is the last word of its line. A body therefore comes to the summary of these
readings, and that is the summary of its samples under a condition on the last ones.
-/

namespace TinyLlb

namespace Prometheus

open Exposition

/-- What is read for a sample, if it is heeded. -/
def reading (s : Sample) : Option Reading :=
  if s.heeded then some (String.ofList s.name.1, s.lastToken.number) else none

/-- The name and the value of a sample. -/
def truth (s : Sample) : Reading := (String.ofList s.name.1, s.value.number)

/-- The number tokens of a sample are read as their numbers. -/
def Reads (parse : Parser) (s : Sample) : Prop :=
  parse s.value.text = some s.value.number ∧
    ∀ stamp ∈ s.timestamp, parse stamp.2.text = some stamp.2.number

variable {parse : Parser} {s : Sample} {acc : ParseSnapshotResult}

theorem parse_lastToken (reads : Reads parse s) :
    parse s.lastToken.text = some s.lastToken.number := by
  obtain ⟨value, stamp⟩ := reads
  unfold Sample.lastToken
  cases found : s.timestamp with
  | none => exact value
  | some pair => exact stamp pair found

theorem core_head (s : Sample) : ∃ c rest, s.core = c :: rest ∧ isNameChar c = true := by
  obtain ⟨front, space, shape, -⟩ := s.core_eq
  obtain ⟨c, rest, name⟩ := List.exists_cons_of_ne_nil s.name.2.1
  exact ⟨c, rest ++ front ++ space :: s.lastToken.text, by simp [shape, name],
    s.name.2.2 c (by simp [name])⟩

theorem core_last (s : Sample) : ∀ c ∈ s.core.getLast?, isNumberChar c = true := by
  intro c last
  obtain ⟨front, space, shape, -⟩ := s.core_eq
  obtain ⟨init, d, token⟩ := List.eq_nil_or_concat s.lastToken.text |>.resolve_left s.lastToken.nonempty
  have ends : s.core = s.name.1 ++ front ++ space :: init ++ [d] := by simp [shape, token]
  rw [ends, List.getLast?_concat] at last
  obtain rfl := Option.some.inj last
  exact s.lastToken.chars d (by simp [token])

theorem trim_sample (s : Sample) : Text.trim (Line.sample s).text = s.core := by
  obtain ⟨c, rest, shape, named⟩ := core_head s
  apply Text.trim_append
  · exact fun c member => isWhitespace_of_isBlank (s.lead.2 c member)
  · exact fun c member => isWhitespace_of_isBlank (s.trail.2 c member)
  · intro d head
    rw [shape] at head
    obtain rfl := Option.some.inj head
    exact (ink_of_isNameChar named).1
  · exact fun d last => (ink_of_isNumberChar (core_last s d last)).1
  · rw [shape]
    simp

theorem stripCr_sample (s : Sample) : Text.stripCr (Line.sample s).text = (Line.sample s).text := by
  unfold Text.stripCr
  rw [if_neg]
  intro last
  rw [Line.text, List.getLast?_append] at last
  cases trailing : s.trail.1.getLast? with
  | some c =>
      rw [trailing, Option.some_or, Option.some.injEq] at last
      exact (ne_of_isBlank (s.trail.2 c (List.mem_of_getLast? trailing))).2.2 last
  | none =>
      obtain ⟨c, rest, shape, -⟩ := core_head s
      rw [trailing, Option.none_or, List.getLast?_append_of_ne_nil _ (by simp [shape])] at last
      exact (ne_newline_of_ink (ink_of_isNumberChar (core_last s _ last)).1).2.1 rfl

theorem splitWhitespace_core (s : Sample) :
    (Text.splitWhitespace s.core).getLast? = some s.lastToken.text := by
  obtain ⟨front, c, shape, blank⟩ := s.core_eq
  rw [shape]
  exact Text.getLast?_splitWhitespace s.lastToken.isWord (isWhitespace_of_isBlank blank)

theorem core_append (s : Sample) :
    s.core = s.name.1 ++ (s.labelsText ++ s.gap.1 ++ s.value.text ++ s.timestampText) := by
  simp [Sample.core]

theorem takeWhile_mark {front : List Char} {mark : Char} (outside : mark ∉ front)
    (rest : List Char) : (front ++ mark :: rest).takeWhile (· ≠ mark) = front := by
  have inside : ∀ c ∈ front, decide (c ≠ mark) = true := by
    intro c member
    apply decide_eq_true
    rintro rfl
    exact outside member
  rw [List.takeWhile_append_of_pos inside]
  simp

theorem marks_notMem_name (name : Name) : '\x7b' ∉ name.1 ∧ ' ' ∉ name.1 := by
  constructor
  · exact fun member => (ink_of_isNameChar (name.2.2 _ member)).2.1 rfl
  · exact fun member => (ne_newline_of_ink (ink_of_isNameChar (name.2.2 _ member)).1).2.2 rfl

theorem brace_notMem (bare : s.labels = none) : '\x7b' ∉ s.core := by
  have gap : ∀ g : Gap, '\x7b' ∉ g.1 := fun g member => (ne_of_isBlank (g.2.2 _ member)).2.1 rfl
  have token : ∀ t : NumberToken, '\x7b' ∉ t.text := fun t member =>
    (ink_of_isNumberChar (t.chars _ member)).2.1 rfl
  have stamp : '\x7b' ∉ s.timestampText := by
    unfold Sample.timestampText
    cases s.timestamp <;> simp [gap, token]
  simp [Sample.core, Sample.labelsText, bare, marks_notMem_name, gap, token, stamp]

theorem metricName_of_labels {set : LabelSet} (labels : s.labels = some set) :
    metricName s.core = some (s.name.1 ++ set.before.1) := by
  have shape : ∃ rest, s.core = (s.name.1 ++ set.before.1) ++ '\x7b' :: rest := ⟨_, by
    rw [core_append, Sample.labelsText, labels]
    simp only [LabelSet.text, List.append_assoc, List.cons_append]
    rfl⟩
  obtain ⟨rest, shape⟩ := shape
  have outside : '\x7b' ∉ s.name.1 ++ set.before.1 := by
    rw [List.mem_append, not_or]
    exact ⟨(marks_notMem_name s.name).1, fun member => (ne_of_isBlank (set.before.2 _ member)).2.1 rfl⟩
  rw [metricName, if_pos (by simp [shape]), shape, takeWhile_mark outside]

theorem metricName_of_heeded (heeded : s.heeded = true) : metricName s.core = some s.name.1 := by
  unfold Sample.heeded at heeded
  split at heeded
  · rename_i set labels
    rw [metricName_of_labels labels, List.isEmpty_iff.mp heeded, List.append_nil]
  · rename_i labels
    obtain ⟨blanks, gap⟩ := List.head?_eq_some_iff.mp (of_decide_eq_true heeded)
    have shape : s.core = s.name.1 ++ ' ' :: (blanks ++ s.value.text ++ s.timestampText) := by
      simp [core_append, Sample.labelsText, labels, gap]
    rw [metricName, if_neg (brace_notMem labels), if_pos (by simp [shape]), shape,
      takeWhile_mark (marks_notMem_name s.name).2]

/-- With a blank before the brace, or a tab behind a bare name, a blank is read as part of
    the name. -/
theorem metricName_of_unheeded (unheeded : s.heeded = false) {name : List Char}
    (found : metricName s.core = some name) : ∃ c ∈ name, isBlank c = true := by
  unfold Sample.heeded at unheeded
  split at unheeded
  · rename_i set labels
    rw [metricName_of_labels labels] at found
    obtain rfl := Option.some.inj found
    obtain ⟨c, blanks, before⟩ := List.exists_cons_of_ne_nil (List.isEmpty_eq_false_iff.mp unheeded)
    exact ⟨c, by simp [before], set.before.2 c (by simp [before])⟩
  · rename_i labels
    obtain ⟨c, blanks, gap⟩ := List.exists_cons_of_ne_nil s.gap.2.1
    have blank := s.gap.2.2 c (by simp [gap])
    have other : c ≠ ' ' := by simpa [gap] using unheeded
    have shape : s.core = (s.name.1 ++ [c]) ++ (blanks ++ s.value.text ++ s.timestampText) := by
      simp [core_append, Sample.labelsText, labels, gap]
    have inside : ∀ d ∈ s.name.1 ++ [c], decide (d ≠ ' ') = true := by
      intro d member
      apply decide_eq_true
      rintro rfl
      rcases List.mem_append.mp member with named | last
      · exact (marks_notMem_name s.name).2 named
      · exact other (List.mem_singleton.mp last).symm
    rw [metricName, if_neg (brace_notMem labels)] at found
    split at found
    · rw [shape, List.takeWhile_append_of_pos inside] at found
      obtain rfl := Option.some.inj found
      exact ⟨c, by simp, blank⟩
    · cases found

theorem parsePrometheusLine_sample (reads : Reads parse s) :
    parsePrometheusLine parse (Line.sample s).text =
      (metricName s.core).map fun name => (name, s.lastToken.number) := by
  obtain ⟨c, rest, shape, named⟩ := core_head s
  have filled : s.core.isEmpty = false := by simp [shape]
  have open_ : s.core.head? ≠ some '#' := by
    rw [shape]
    simpa using (ink_of_isNameChar named).2.2
  unfold parsePrometheusLine
  simp only [trim_sample, filled, open_, Bool.false_or, decide_false, Bool.false_eq_true, if_false,
    splitWhitespace_core, Option.bind_some, parse_lastToken reads]
  cases metricName s.core <;> rfl

theorem parsePrometheusLine_empty (blanks : Blanks) :
    parsePrometheusLine parse (Text.stripCr (Line.empty blanks).text) = none := by
  have same : Text.stripCr (Line.empty blanks).text = blanks.1 := by
    unfold Text.stripCr
    rw [if_neg]
    · rfl
    · intro last
      exact (ne_of_isBlank (blanks.2 _ (List.mem_of_getLast? last))).2.2 rfl
  have nothing : Text.trim blanks.1 = [] :=
    Text.trim_blank fun c member => isWhitespace_of_isBlank (blanks.2 c member)
  simp [parsePrometheusLine, same, nothing]

theorem parsePrometheusLine_comment (lead : Blanks) (text : { text : List Char // '\n' ∉ text }) :
    parsePrometheusLine parse (Text.stripCr (Line.comment lead text).text) = none := by
  have shape : ∃ rest, Text.stripCr (Line.comment lead text).text = lead.1 ++ '#' :: rest := by
    unfold Text.stripCr
    split
    · rename_i last
      cases filled : text.1 with
      | nil => simp [Line.text, filled] at last
      | cons c rest =>
          refine ⟨(c :: rest).dropLast, ?_⟩
          rw [Line.text, filled, List.dropLast_append_of_ne_nil (by simp),
            List.dropLast_cons_of_ne_nil (by simp)]
    · exact ⟨text.1, rfl⟩
  obtain ⟨rest, shape⟩ := shape
  have marked : (Text.trim (lead.1 ++ '#' :: rest)).head? = some '#' :=
    Text.head?_trim (fun c member => isWhitespace_of_isBlank (lead.2 c member)) (by decide)
  simp [parsePrometheusLine, shape, marked]

theorem record_of_blank {name : List Char} (blank : ∃ c ∈ name, isBlank c = true) (value : F64) :
    record acc (String.ofList name) value = acc := by
  apply record_unknown
  intro field member
  have clean : ∀ known ∈ field.names, known.toList.any isBlank = false := by
    cases field <;> decide +kernel
  obtain ⟨c, inside, blank⟩ := blank
  exact List.any_eq_false.mp (clean _ member) c (by simpa using inside) blank

theorem parseStep_sample (reads : Reads parse s) :
    parseStep parse acc (Text.stripCr (Line.sample s).text) =
      (reading s).elim acc fun r => record acc r.1 r.2 := by
  unfold parseStep reading
  rw [stripCr_sample, parsePrometheusLine_sample reads]
  cases heeded : s.heeded with
  | true =>
      rw [metricName_of_heeded heeded]
      rfl
  | false =>
      cases found : metricName s.core with
      | none => rfl
      | some name => exact record_of_blank (metricName_of_unheeded heeded found) _

theorem foldl_parseStep (lines : List Line) (reads : ∀ s ∈ samples lines, Reads parse s)
    (acc : ParseSnapshotResult) :
    ((lines.map Line.text).map Text.stripCr).foldl (parseStep parse) acc =
      ((samples lines).filterMap reading).foldl (fun acc r => record acc r.1 r.2) acc := by
  induction lines generalizing acc with
  | nil => rfl
  | cons line rest ih =>
      cases line with
      | empty blanks =>
          have skipped : parseStep parse acc (Text.stripCr (Line.empty blanks).text) = acc := by
            rw [parseStep, parsePrometheusLine_empty]
          rw [List.map_cons, List.map_cons, List.foldl_cons, skipped]
          exact ih reads acc
      | comment lead text =>
          have skipped : parseStep parse acc (Text.stripCr (Line.comment lead text).text) = acc := by
            rw [parseStep, parsePrometheusLine_comment]
          rw [List.map_cons, List.map_cons, List.foldl_cons, skipped]
          exact ih reads acc
      | sample s =>
          have here : Reads parse s := reads s (by simp [samples])
          have later : ∀ s ∈ samples rest, Reads parse s := by
            intro s' member
            exact reads s' (by simp_all [samples])
          have all : samples (Line.sample s :: rest) = s :: samples rest := rfl
          rw [List.map_cons, List.map_cons, List.foldl_cons, parseStep_sample here, ih later, all,
            List.filterMap_cons]
          cases reading s <;> rfl

theorem deriveFree_gathered (readings : List Reading) :
    deriveFree (gathered readings) = summary readings := by
  unfold deriveFree gathered summary
  simp only
  split <;> rfl

/-- A body comes to what its heeded samples are read as. -/
theorem parseSnapshot_text (lines : List Line) (reads : ∀ s ∈ samples lines, Reads parse s) :
    parseSnapshot parse (text lines) = summary ((samples lines).filterMap reading) := by
  have single : ∀ line ∈ lines.map Line.text, '\n' ∉ line := by
    intro line member
    obtain ⟨source, -, rfl⟩ := List.mem_map.mp member
    exact newline_notMem_line source
  rw [parseSnapshot, text, Text.lines_unlines single, foldl_parseStep lines reads, foldl_record,
    deriveFree_gathered]

/-- The last samples of each field are read as what they say: for the gauges of the cache
    also whether there are any, and for the other fields the default may stand for none. -/
structure Legible (all : List Sample) : Prop where
  gauges : ∀ field, field = .kvUsage ∨ field = .kvFree →
    lastOf (all.filterMap reading) field = lastOf (all.map truth) field
  preemptions : ((lastOf (all.filterMap reading) .preemptions).map F64.asU64).getD 0 =
    ((lastOf (all.map truth) .preemptions).map F64.asU64).getD 0
  counters : ∀ field, field ≠ .kvUsage → field ≠ .kvFree → field ≠ .preemptions →
    (lastOf (all.filterMap reading) field).getD (.fin 0) = (lastOf (all.map truth) field).getD (.fin 0)
  family : (∃ s ∈ all, String.ofList s.name.1 ∈ llamacppNames) →
    ∃ s ∈ all, s.heeded = true ∧ String.ofList s.name.1 ∈ llamacppNames

/-- Where every sample is heeded and there are no timestamps, every body is legible. -/
theorem legible_of_plain {all : List Sample}
    (plain : ∀ s ∈ all, s.heeded = true ∧ s.timestamp = none) : Legible all := by
  have same : all.filterMap reading = all.map truth := by
    rw [← List.filterMap_eq_map]
    apply List.filterMap_congr
    intro s member
    obtain ⟨heeded, bare⟩ := plain s member
    simp [reading, truth, heeded, Sample.lastToken, bare]
  refine ⟨?_, ?_, ?_, ?_⟩
  · intros
    rw [same]
  · rw [same]
  · intros
    rw [same]
  · rintro ⟨s, member, named⟩
    exact ⟨s, member, (plain s member).1, named⟩

theorem isSome_lastOf (readings : List Reading) (field : Field) :
    (lastOf readings field).isSome = readings.any fun r => r.1 ∈ field.names := by
  rw [Bool.eq_iff_iff]
  simp [lastOf]

theorem option_ext_getD {α : Type*} {o o' : Option α} {d : α} (there : o.isSome = o'.isSome)
    (same : o.getD d = o'.getD d) : o = o' := by
  cases o <;> cases o' <;> simp_all

theorem any_llamacpp_reading (all : List Sample) :
    ((all.filterMap reading).any fun r => r.1 ∈ llamacppNames) = true ↔
      ∃ s ∈ all, s.heeded = true ∧ String.ofList s.name.1 ∈ llamacppNames := by
  simp only [List.any_eq_true, List.mem_filterMap, decide_eq_true_eq]
  constructor
  · rintro ⟨r, ⟨s, member, read⟩, named⟩
    unfold reading at read
    split at read
    · rename_i heeded
      obtain rfl := Option.some.inj read
      exact ⟨s, member, heeded, named⟩
    · cases read
  · rintro ⟨s, member, heeded, named⟩
    exact ⟨_, ⟨s, member, by rw [reading, if_pos heeded]⟩, named⟩

theorem any_llamacpp_truth (all : List Sample) :
    ((all.map truth).any fun r => r.1 ∈ llamacppNames) = true ↔
      ∃ s ∈ all, String.ofList s.name.1 ∈ llamacppNames := by
  simp only [List.any_eq_true, List.mem_map, decide_eq_true_eq]
  constructor
  · rintro ⟨r, ⟨s, member, rfl⟩, named⟩
    exact ⟨s, member, named⟩
  · rintro ⟨s, member, named⟩
    exact ⟨_, ⟨s, member, rfl⟩, named⟩

theorem legible_of_summary {all : List Sample}
    (same : summary (all.filterMap reading) = summary (all.map truth)) : Legible all := by
  have foundUsage : (lastOf (all.filterMap reading) .kvUsage).isSome =
      (lastOf (all.map truth) .kvUsage).isSome := by
    rw [isSome_lastOf, isSome_lastOf]
    exact congrArg ParseSnapshotResult.foundUsage same
  have foundFree : (lastOf (all.filterMap reading) .kvFree).isSome =
      (lastOf (all.map truth) .kvFree).isSome := by
    rw [isSome_lastOf, isSome_lastOf]
    exact congrArg ParseSnapshotResult.foundFree same
  have snapshot := congrArg ParseSnapshotResult.snapshot same
  refine ⟨?_, ?_, ?_, ?_⟩
  · rintro field (rfl | rfl)
    · exact option_ext_getD foundUsage (congrArg BackendSnapshot.kvUsage snapshot)
    · have free := congrArg BackendSnapshot.kvFree snapshot
      simp only [summary, ← isSome_lastOf] at free
      cases there : (lastOf (all.map truth) .kvFree).isSome with
      | true =>
          rw [there] at foundFree
          simp only [foundFree, there, Bool.not_true, Bool.and_false, Bool.false_and,
            Bool.false_eq_true, if_false] at free
          exact option_ext_getD (foundFree.trans there.symm) free
      | false =>
          rw [there] at foundFree
          rw [Option.isSome_eq_false_iff, Option.isNone_iff_eq_none] at there foundFree
          rw [there, foundFree]
  · exact congrArg BackendSnapshot.preemptions snapshot
  · intro field notUsage notFree notPreemptions
    cases field with
    | kvUsage => exact absurd rfl notUsage
    | kvFree => exact absurd rfl notFree
    | preemptions => exact absurd rfl notPreemptions
    | generationTokens => exact congrArg BackendSnapshot.generationTokens snapshot
    | promptTokens => exact congrArg BackendSnapshot.promptTokens snapshot
    | requestsRunning => exact congrArg BackendSnapshot.requestsRunning snapshot
    | requestsWaiting => exact congrArg BackendSnapshot.requestsWaiting snapshot
    | cachedPromptTokens => exact congrArg BackendSnapshot.cachedPromptTokens snapshot
    | decodeCalls => exact congrArg BackendSnapshot.decodeCalls snapshot
  · intro named
    have family := congrArg ParseSnapshotResult.foundLlamacpp same
    exact (any_llamacpp_reading all).mp (family.trans ((any_llamacpp_truth all).mpr named))

theorem summary_of_legible {all : List Sample} (legible : Legible all) :
    summary (all.filterMap reading) = summary (all.map truth) := by
  have usage := legible.gauges .kvUsage (.inl rfl)
  have free := legible.gauges .kvFree (.inr rfl)
  have counter := legible.counters
  have family : ((all.filterMap reading).any fun r => r.1 ∈ llamacppNames) =
      (all.map truth).any fun r => r.1 ∈ llamacppNames := by
    rw [Bool.eq_iff_iff, any_llamacpp_reading, any_llamacpp_truth]
    exact ⟨fun ⟨s, member, _, named⟩ => ⟨s, member, named⟩, legible.family⟩
  simp only [summary, ← isSome_lastOf, usage, free, legible.preemptions,
    counter .generationTokens (by simp) (by simp) (by simp),
    counter .promptTokens (by simp) (by simp) (by simp),
    counter .requestsRunning (by simp) (by simp) (by simp),
    counter .requestsWaiting (by simp) (by simp) (by simp),
    counter .cachedPromptTokens (by simp) (by simp) (by simp),
    counter .decodeCalls (by simp) (by simp) (by simp), family]

/-- A body comes to the summary of its samples, names and values, exactly when its last
    samples are legible. -/
theorem parse_snapshot_iff (parse : Parser) (lines : List Line)
    (reads : ∀ s ∈ samples lines, Reads parse s) :
    parseSnapshot parse (text lines) = summary ((samples lines).map truth) ↔
      Legible (samples lines) := by
  rw [parseSnapshot_text lines reads]
  exact ⟨legible_of_summary, summary_of_legible⟩

def noBlanks : Blanks := ⟨[], by simp⟩

def oneSpace : Gap := ⟨[' '], by simp, by simp [isBlank]⟩

def oneTab : Gap := ⟨['\t'], by simp, by simp [isBlank]⟩

def half : NumberToken :=
  ⟨"0.5".toList, .fin (1 / 2), by decide, List.all_eq_true.mp (by decide)⟩

def seven : NumberToken := ⟨"7".toList, .fin 7, by decide, List.all_eq_true.mp (by decide)⟩

/-- Milliseconds since the epoch. -/
def stamp : NumberToken :=
  ⟨"1700000000000".toList, .fin 1700000000000, by decide, List.all_eq_true.mp (by decide)⟩

/-- The numbers of the bodies below. -/
def tokenParser : Parser := fun word =>
  ([half, seven, stamp].find? fun token => token.text = word).map NumberToken.number

def modelName : Name := ⟨"model".toList, by decide, List.all_eq_true.mp (by decide)⟩

def usageName : Name :=
  ⟨metricKvUsageV1.toList, by decide +kernel, List.all_eq_true.mp (by decide +kernel)⟩

def decodeName : Name :=
  ⟨metricLlamacppDecodeCalls.toList, by decide +kernel, List.all_eq_true.mp (by decide +kernel)⟩

/-- `vllm:kv_cache_usage_perc 0.5`, with labels, a gap and a timestamp of choice. -/
def usageSample (labels : Option LabelSet) (gap : Gap) (timestamp : Option (Gap × NumberToken)) :
    Sample := ⟨noBlanks, usageName, labels, gap, half, timestamp, noBlanks⟩

/-- A label value with a space, a brace and quotes. -/
def trickyLabel : Label :=
  ⟨noBlanks, modelName, noBlanks, noBlanks, "a \x7b \"b\"".toList, noBlanks⟩

def trickyLabels : LabelSet := ⟨noBlanks, [trickyLabel], true, noBlanks⟩

theorem reads_tokenParser {s : Sample} (value : s.value = half ∨ s.value = seven)
    (timestamp : ∀ pair ∈ s.timestamp, pair.2 = stamp) : Reads tokenParser s := by
  constructor
  · rcases value with same | same <;> rw [same] <;> decide +kernel
  · intro pair there
    rw [timestamp pair there]
    decide +kernel

theorem parse_snapshot_labels :
    (parseSnapshot tokenParser (text [.comment noBlanks ⟨" HELP".toList, by decide⟩,
      .sample (usageSample (some trickyLabels) oneTab none),
      .sample ⟨noBlanks, decodeName, none, oneSpace, seven, none, noBlanks⟩])).snapshot.kvFree =
        .fin (1 / 2) := by
  have law := parse_snapshot_iff tokenParser [.comment noBlanks ⟨" HELP".toList, by decide⟩,
    .sample (usageSample (some trickyLabels) oneTab none),
    .sample ⟨noBlanks, decodeName, none, oneSpace, seven, none, noBlanks⟩]
    (by
      intro s member
      simp only [samples, List.filterMap_cons, List.filterMap_nil, List.mem_cons,
        List.not_mem_nil, or_false] at member
      rcases member with rfl | rfl
      · exact reads_tokenParser (.inl rfl) (by simp [usageSample])
      · exact reads_tokenParser (.inr rfl) (by simp))
  rw [law.mpr]
  · decide +kernel
  · apply legible_of_plain
    intro s member
    simp only [samples, List.filterMap_cons, List.filterMap_nil, List.mem_cons,
      List.not_mem_nil, or_false] at member
    rcases member with rfl | rfl <;> exact ⟨by decide, rfl⟩

/-- A timestamp is taken for the usage. -/
theorem timestamp_read_as_usage :
    ¬ ∀ (parse : Parser) (lines : List Line), (∀ s ∈ samples lines, Reads parse s) →
      parseSnapshot parse (text lines) = summary ((samples lines).map truth) := by
  intro always
  have same := always tokenParser [.sample (usageSample none oneSpace (some (oneSpace, stamp)))]
    (by
      intro s member
      obtain rfl : s = usageSample none oneSpace (some (oneSpace, stamp)) := by
        simpa [samples] using member
      exact reads_tokenParser (.inl rfl) (by simp [usageSample]))
  have usage := congrArg (fun result => result.snapshot.kvUsage) same
  revert usage
  decide +kernel

/-- Behind a tab the usage is not found at all. -/
example : (parseSnapshot tokenParser (text [.sample (usageSample none oneTab none)])).foundUsage =
    false := by decide +kernel

end Prometheus

end TinyLlb
