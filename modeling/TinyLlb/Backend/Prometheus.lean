import TinyLlb.Backend.Exposition
import TinyLlb.Backend.Watchdog

/-! # Reading the backend's metrics

`parse_snapshot` reads a body line by line. The name of a sample is what stands before
the first brace or, without one, before the first space; its value is the last word of
the line. How a single word is read as a number is left open.
-/

namespace TinyLlb

def metricKvUsage : String := "vllm:gpu_cache_usage_perc"

def metricKvUsageV1 : String := "vllm:kv_cache_usage_perc"

def metricKvFree : String := "vllm:gpu_cache_free_perc"

def metricNumPreemption : String := "vllm:num_preemptions_total"

def metricGenerationTokens : String := "vllm:generation_tokens_total"

def metricPromptTokens : String := "vllm:prompt_tokens_total"

def metricRequestsRunning : String := "vllm:num_requests_running"

def metricRequestsWaiting : String := "vllm:num_requests_waiting"

def metricLlamacppRequestsProcessing : String := "llamacpp:requests_processing"

def metricLlamacppRequestsDeferred : String := "llamacpp:requests_deferred"

def metricLlamacppPromptTokens : String := "llamacpp:prompt_tokens_total"

def metricLlamacppPredictedTokens : String := "llamacpp:tokens_predicted_total"

def metricLlamacppCachedTokens : String := "llamacpp:prompt_tokens_cached_total"

def metricLlamacppDecodeCalls : String := "llamacpp:n_decode_total"

def u64Max : Int := 18446744073709551615

namespace F64

/-- The cast `x as u64`: truncation toward zero, saturating, and 0 for a NaN. -/
def asU64 : F64 → Nat
  | nan => 0
  | negInf => 0
  | posInf => u64Max.toNat
  | fin q => (max 0 (min u64Max (q.num.tdiv q.den))).toNat

/-- `x < 1.0`. -/
def isBelowOne : F64 → Bool
  | nan => false
  | negInf => true
  | posInf => false
  | fin q => decide (q < 1)

/-- `1.0 - x`. -/
def oneMinus : F64 → F64
  | nan => nan
  | negInf => posInf
  | posInf => negInf
  | fin q => fin (1 - q)

end F64

namespace Prometheus

/-- `str::parse::<f64>`. -/
abbrev Parser := List Char → Option F64

/-- What stands before the first brace or, in a line without one, before the first space. -/
def metricName (line : List Char) : Option (List Char) :=
  if '\x7b' ∈ line then some (line.takeWhile (· ≠ '\x7b'))
  else if ' ' ∈ line then some (line.takeWhile (· ≠ ' '))
  else none

def parsePrometheusLine (parse : Parser) (line : List Char) : Option (List Char × F64) :=
  let line := Text.trim line
  if line.isEmpty || line.head? = some '#' then none
  else
    match metricName line with
    | none => none
    | some name =>
        match (Text.splitWhitespace line).getLast?.bind parse with
        | some value => some (name, value)
        | none => none

/-- One arm of `parse_snapshot` for each of the names. -/
def record (acc : ParseSnapshotResult) (name : String) (value : F64) : ParseSnapshotResult :=
  if name = metricKvUsage ∨ name = metricKvUsageV1 then
    { acc with snapshot := { acc.snapshot with kvUsage := value }, foundUsage := true }
  else if name = metricKvFree then
    { acc with snapshot := { acc.snapshot with kvFree := value }, foundFree := true }
  else if name = metricNumPreemption then
    { acc with snapshot := { acc.snapshot with preemptions := value.asU64 } }
  else if name = metricGenerationTokens then
    { acc with snapshot := { acc.snapshot with generationTokens := value } }
  else if name = metricPromptTokens then
    { acc with snapshot := { acc.snapshot with promptTokens := value } }
  else if name = metricRequestsRunning then
    { acc with snapshot := { acc.snapshot with requestsRunning := value } }
  else if name = metricRequestsWaiting then
    { acc with snapshot := { acc.snapshot with requestsWaiting := value } }
  else if name = metricLlamacppRequestsProcessing then
    { acc with snapshot := { acc.snapshot with requestsRunning := value }, foundLlamacpp := true }
  else if name = metricLlamacppRequestsDeferred then
    { acc with snapshot := { acc.snapshot with requestsWaiting := value }, foundLlamacpp := true }
  else if name = metricLlamacppPromptTokens then
    { acc with snapshot := { acc.snapshot with promptTokens := value }, foundLlamacpp := true }
  else if name = metricLlamacppPredictedTokens then
    { acc with snapshot := { acc.snapshot with generationTokens := value }, foundLlamacpp := true }
  else if name = metricLlamacppCachedTokens then
    { acc with snapshot := { acc.snapshot with cachedPromptTokens := value }, foundLlamacpp := true }
  else if name = metricLlamacppDecodeCalls then
    { acc with snapshot := { acc.snapshot with decodeCalls := value }, foundLlamacpp := true }
  else acc

/-- The free share follows from the usage when only the usage was found. -/
def deriveFree (acc : ParseSnapshotResult) : ParseSnapshotResult :=
  if acc.foundUsage && !acc.foundFree && acc.snapshot.kvUsage.isBelowOne then
    { acc with snapshot := { acc.snapshot with kvFree := acc.snapshot.kvUsage.oneMinus } }
  else acc

def parseStep (parse : Parser) (acc : ParseSnapshotResult) (line : List Char) : ParseSnapshotResult :=
  match parsePrometheusLine parse line with
  | some (name, value) => record acc (String.ofList name) value
  | none => acc

def parseSnapshot (parse : Parser) (body : List Char) : ParseSnapshotResult :=
  deriveFree ((Text.lines body).foldl (parseStep parse) ⟨.default, false, false, false⟩)

/-- What a metric is read into. -/
inductive Field where
  | kvUsage | kvFree | preemptions | generationTokens | promptTokens
  | requestsRunning | requestsWaiting | cachedPromptTokens | decodeCalls
  deriving DecidableEq

/-- The names of each field, of either backend. -/
def Field.names : Field → List String
  | .kvUsage => [metricKvUsage, metricKvUsageV1]
  | .kvFree => [metricKvFree]
  | .preemptions => [metricNumPreemption]
  | .generationTokens => [metricGenerationTokens, metricLlamacppPredictedTokens]
  | .promptTokens => [metricPromptTokens, metricLlamacppPromptTokens]
  | .requestsRunning => [metricRequestsRunning, metricLlamacppRequestsProcessing]
  | .requestsWaiting => [metricRequestsWaiting, metricLlamacppRequestsDeferred]
  | .cachedPromptTokens => [metricLlamacppCachedTokens]
  | .decodeCalls => [metricLlamacppDecodeCalls]

def llamacppNames : List String :=
  [metricLlamacppRequestsProcessing, metricLlamacppRequestsDeferred,
    metricLlamacppPromptTokens, metricLlamacppPredictedTokens,
    metricLlamacppCachedTokens, metricLlamacppDecodeCalls]

/-- A name and the number read for it. -/
abbrev Reading := String × F64

/-- The last number read for a field. -/
def lastOf (readings : List Reading) (field : Field) : Option F64 :=
  ((readings.filter fun reading => reading.1 ∈ field.names).getLast?).map Prod.snd

/-- What a list of readings comes to: the last number of each field, or its default, and
    which families were there. -/
def summary (readings : List Reading) : ParseSnapshotResult :=
  let value (field : Field) (start : F64) := (lastOf readings field).getD start
  let usage := value .kvUsage (.fin 0)
  let foundUsage := readings.any fun reading => reading.1 ∈ Field.kvUsage.names
  let foundFree := readings.any fun reading => reading.1 ∈ Field.kvFree.names
  { snapshot :=
      { kvUsage := usage
        kvFree :=
          if foundUsage && !foundFree && usage.isBelowOne then usage.oneMinus
          else value .kvFree (.fin 1)
        slotCount := none
        preemptions := ((lastOf readings .preemptions).map F64.asU64).getD 0
        generationTokens := value .generationTokens (.fin 0)
        promptTokens := value .promptTokens (.fin 0)
        requestsRunning := value .requestsRunning (.fin 0)
        requestsWaiting := value .requestsWaiting (.fin 0)
        cachedPromptTokens := value .cachedPromptTokens (.fin 0)
        decodeCalls := value .decodeCalls (.fin 0) }
    foundUsage
    foundFree
    foundLlamacpp := readings.any fun reading => reading.1 ∈ llamacppNames }

variable {readings : List Reading} {acc : ParseSnapshotResult} {name : String} {value : F64}
  {field : Field}

/-- The field of a snapshot is set. -/
def Field.write (value : F64) (snapshot : BackendSnapshot) : Field → BackendSnapshot
  | .kvUsage => { snapshot with kvUsage := value }
  | .kvFree => { snapshot with kvFree := value }
  | .preemptions => { snapshot with preemptions := value.asU64 }
  | .generationTokens => { snapshot with generationTokens := value }
  | .promptTokens => { snapshot with promptTokens := value }
  | .requestsRunning => { snapshot with requestsRunning := value }
  | .requestsWaiting => { snapshot with requestsWaiting := value }
  | .cachedPromptTokens => { snapshot with cachedPromptTokens := value }
  | .decodeCalls => { snapshot with decodeCalls := value }

theorem Field.names_disjoint : ∀ f g : Field, ∀ name ∈ f.names, name ∈ g.names → f = g := by
  intro f g
  cases f <;> cases g <;> decide +kernel

theorem record_known (member : name ∈ field.names) :
    record acc name value =
      { snapshot := field.write value acc.snapshot
        foundUsage := acc.foundUsage || decide (name ∈ Field.kvUsage.names)
        foundFree := acc.foundFree || decide (name ∈ Field.kvFree.names)
        foundLlamacpp := acc.foundLlamacpp || decide (name ∈ llamacppNames) } := by
  cases field <;> simp only [Field.names, List.mem_cons, List.not_mem_nil, or_false] at member
  all_goals rcases member with rfl | rfl
  all_goals simp [record, Field.names, Field.write, llamacppNames, metricKvUsage, metricKvUsageV1,
    metricKvFree, metricNumPreemption, metricGenerationTokens, metricPromptTokens,
    metricRequestsRunning, metricRequestsWaiting, metricLlamacppRequestsProcessing,
    metricLlamacppRequestsDeferred, metricLlamacppPromptTokens, metricLlamacppPredictedTokens,
    metricLlamacppCachedTokens, metricLlamacppDecodeCalls]

/-- Every name that is matched belongs to a field. -/
theorem record_unknown (unknown : ∀ field : Field, name ∉ field.names) :
    record acc name value = acc := by
  have usage := unknown .kvUsage
  have free := unknown .kvFree
  have preemptions := unknown .preemptions
  have generation := unknown .generationTokens
  have prompt := unknown .promptTokens
  have running := unknown .requestsRunning
  have waiting := unknown .requestsWaiting
  have cached := unknown .cachedPromptTokens
  have decodes := unknown .decodeCalls
  simp only [Field.names, List.mem_cons, List.not_mem_nil, or_false, not_or]
    at usage free preemptions generation prompt running waiting cached decodes
  simp only [record, usage, free, preemptions, generation, prompt, running, waiting, cached,
    decodes, or_self, if_false]

theorem not_llamacpp (unknown : ∀ field : Field, name ∉ field.names) : name ∉ llamacppNames := by
  intro member
  simp only [llamacppNames, List.mem_cons, List.not_mem_nil, or_false] at member
  rcases member with rfl | rfl | rfl | rfl | rfl | rfl
  · exact unknown .requestsRunning (by simp [Field.names])
  · exact unknown .requestsWaiting (by simp [Field.names])
  · exact unknown .promptTokens (by simp [Field.names])
  · exact unknown .generationTokens (by simp [Field.names])
  · exact unknown .cachedPromptTokens (by simp [Field.names])
  · exact unknown .decodeCalls (by simp [Field.names])

theorem lastOf_snoc (readings : List Reading) (reading : Reading) (field : Field) :
    lastOf (readings ++ [reading]) field =
      if reading.1 ∈ field.names then some reading.2 else lastOf readings field := by
  unfold lastOf
  rw [List.filter_append]
  by_cases member : reading.1 ∈ field.names <;> simp [member]

/-- What is accumulated before the free share is derived. -/
def gathered (readings : List Reading) : ParseSnapshotResult :=
  { summary readings with
    snapshot := { (summary readings).snapshot with
      kvFree := (lastOf readings .kvFree).getD (.fin 1) } }

theorem gathered_snoc (readings : List Reading) (reading : Reading) :
    gathered (readings ++ [reading]) = record (gathered readings) reading.1 reading.2 := by
  obtain ⟨name, value⟩ := reading
  by_cases known : ∃ field : Field, name ∈ field.names
  · obtain ⟨field, member⟩ := known
    have others : ∀ g : Field, name ∈ g.names ↔ field = g :=
      fun g => ⟨Field.names_disjoint field g name member, fun same => same ▸ member⟩
    rw [record_known member]
    simp only [gathered, summary, lastOf_snoc, others, List.any_append, List.any_cons, List.any_nil,
      Bool.or_false]
    cases field <;> simp [Field.write]
  · have unknown : ∀ field : Field, name ∉ field.names := fun field member => known ⟨field, member⟩
    have outside := not_llamacpp unknown
    rw [record_unknown unknown]
    simp [gathered, summary, lastOf_snoc, unknown, outside]

theorem foldl_record (readings : List Reading) :
    readings.foldl (fun acc reading => record acc reading.1 reading.2)
      ⟨.default, false, false, false⟩ = gathered readings := by
  induction readings using List.reverseRecOn with
  | nil => rfl
  | append_singleton readings reading ih =>
      rw [List.foldl_append, List.foldl_cons, List.foldl_nil, ih, gathered_snoc]

end Prometheus

end TinyLlb
