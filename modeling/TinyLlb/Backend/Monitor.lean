import TinyLlb.Backend.ParseSnapshot
import TinyLlb.Library.Edges
import TinyLlb.Library.Json
import TinyLlb.Stream.Sse

/-! # The backend monitor

One pass of the poll loop reads `/metrics` and, where that shows a llama.cpp backend,
`/slots`; publishes what was read; and lets the stall watchdog look at it. A pass that
cannot read the metrics, or finds none that it knows, changes nothing.

Bytes are turned into values by a reader that is left open, and so is the reading of a
number in the metrics. A usage is the exact quotient that the division rounds.
-/

namespace TinyLlb

structure SlotKv where
  nCtx : Nat
  nPromptTokens : Nat

/-- An entry of `/slots` as it is read: the context may be missing. -/
structure SlotWire where
  nCtx : Option Nat
  nPromptTokens : Nat

namespace SlotWire

/-- As `u64`: floats and negative numbers are none. -/
def u64 : Json → Option Nat
  | .number (.posInt value) => some value
  | _ => none

/-- As `Option<u64>`. -/
def optionU64 : Json → Option (Option Nat)
  | .null => some none
  | value => (u64 value).map some

/-- The derived reader of an object: a field that is there twice is an error, one that is
    missing is the default. -/
def field {α : Type} (members : List (String × Json)) (name : String) (default : α)
    (read : Json → Option α) : Option α :=
  match members.filter fun member => member.1 == name with
  | [] => some default
  | [member] => read member.2
  | _ => none

/-- The derived reader, which takes the fields from an object or, in order, from an array. -/
def ofJson : Json → Option SlotWire
  | .object members => do
      let nCtx ← field members "n_ctx" none optionU64
      let nPromptTokens ← field members "n_prompt_tokens" 0 u64
      some ⟨nCtx, nPromptTokens⟩
  | .array [nCtx] => (optionU64 nCtx).map fun nCtx => ⟨nCtx, 0⟩
  | .array [nCtx, nPromptTokens] => do
      let nCtx ← optionU64 nCtx
      let nPromptTokens ← u64 nPromptTokens
      some ⟨nCtx, nPromptTokens⟩
  | _ => none

end SlotWire

def parseSlots (fromStr : Bytes → Option Json) (body : Bytes) : Option (List SlotKv) := do
  let value ← fromStr body
  let items ← value.asArray
  let wire ← items.mapM SlotWire.ofJson
  if wire.isEmpty then none
  else some (wire.filterMap fun slot => slot.nCtx.map fun nCtx => ⟨nCtx, slot.nPromptTokens⟩)

/-- A sum of `u64` in a release build. -/
def sumU64 (values : List Nat) : Nat :=
  values.foldl (fun sum value => (sum + value) % 18446744073709551616) 0

def slotsKvUsage (slots : List SlotKv) (kvUnified : Bool) : Option ℚ :=
  let used := sumU64 (slots.map SlotKv.nPromptTokens)
  let pool :=
    if kvUnified then slots.head?.map SlotKv.nCtx else some (sumU64 (slots.map SlotKv.nCtx))
  pool.bind fun pool => if pool = 0 then none else some (max 0 (min 1 ((used : ℚ) / pool)))

structure MonitorConfig where
  stallTimeout : Duration
  kvUnified : Bool
  parse : Prometheus.Parser
  fromStr : Bytes → Option Json

/-- One pass of the loop: what `/metrics` and `/slots` answer, where they do, and when. -/
structure Tick where
  metrics : Option (List Char)
  slots : Option Bytes
  now : Instant

/-- The name by which the log calls a backend. -/
inductive Flavor where
  | vllm
  | llamaCpp
  | unknown
  deriving DecidableEq

inductive MonitorLog where
  | slotsLost
  | slotsRecovered
  | flavor (flavor : Flavor)
  | stallDetected
  | stallCleared
  deriving DecidableEq

structure Monitor where
  /-- The value in the watch channel. -/
  snapshot : BackendSnapshot
  poll : PollState
  lastFlavor : Option Flavor
  /-- Nothing until the first `/slots` that could be read. -/
  lastSlotsOk : Option Bool
  vllmKvCacheUsage : F64
  vllmKvCacheFree : F64
  llmBackendKvPressure : F64
  llmBackendStalled : Bool
  backendStallEventsTotal : Nat
  log : List MonitorLog

namespace Monitor

def new (started : Instant) : Monitor :=
  { snapshot := .default, poll := .new started, lastFlavor := none, lastSlotsOk := none
    vllmKvCacheUsage := .fin 0, vllmKvCacheFree := .fin 0, llmBackendKvPressure := .fin 0
    llmBackendStalled := false, backendStallEventsTotal := 0, log := [] }

end Monitor

def ParseSnapshotResult.flavor (result : ParseSnapshotResult) : Flavor :=
  if result.foundUsage then .vllm else if result.foundLlamacpp then .llamaCpp else .unknown

/-- What the answer of `/slots` adds to a scrape. -/
def ParseSnapshotResult.withSlots (result : ParseSnapshotResult) (kvUnified : Bool) :
    Option (List SlotKv) → ParseSnapshotResult
  | none => { result with snapshot := { result.snapshot with slotCount := none } }
  | some slots =>
      let counted := { result.snapshot with slotCount := some (slots.length % 4294967296) }
      match slotsKvUsage slots kvUnified with
      | some kvUsage =>
          { result with
            snapshot := { counted with kvUsage := .fin kvUsage, kvFree := .fin (1 - kvUsage) } }
      | none => { result with snapshot := counted }

namespace MonitorConfig

variable (config : MonitorConfig)

/-- The slots, which only a llama.cpp backend is asked for. -/
def slots (tick : Tick) : Option (List SlotKv) := tick.slots.bind (parseSlots config.fromStr)

def scraped (tick : Tick) : Option ParseSnapshotResult :=
  tick.metrics.map (Prometheus.parseSnapshot config.parse)

/-- A scrape with the slots, where it is one of a llama.cpp backend. -/
def complete (tick : Tick) (raw : ParseSnapshotResult) : ParseSnapshotResult :=
  if raw.foundLlamacpp then raw.withSlots config.kvUnified (config.slots tick) else raw

/-- What the watchdog is shown of a pass. -/
def scrape (tick : Tick) : Scrape := ⟨(config.scraped tick).map (config.complete tick), tick.now⟩

/-- Whether a pass over a llama.cpp backend could read the slots. -/
def slotsOk (tick : Tick) : Option Bool :=
  match config.scraped tick with
  | some raw => if raw.foundLlamacpp then some (config.slots tick).isSome else none
  | none => none

end MonitorConfig

namespace Monitor

/-- Only the loss of slots that worked before is worth a warning. -/
def noteSlots (m : Monitor) (ok : Bool) : Monitor :=
  match m.lastSlotsOk, ok with
  | some true, false => { m with lastSlotsOk := some false, log := m.log ++ [.slotsLost] }
  | some false, true => { m with lastSlotsOk := some true, log := m.log ++ [.slotsRecovered] }
  | none, true => { m with lastSlotsOk := some true }
  | _, _ => m

def noteFlavor (m : Monitor) (flavor : Flavor) : Monitor :=
  if m.lastFlavor = some flavor then m
  else { m with lastFlavor := some flavor, log := m.log ++ [.flavor flavor] }

def publish (m : Monitor) (snapshot : BackendSnapshot) : Monitor :=
  { m with snapshot, llmBackendKvPressure := snapshot.kvUsage }

/-- The watchdog, with what it counts and logs on an edge. -/
def watchdog (m : Monitor) (stallTimeout : Duration) (p : Published) : Monitor :=
  let poll := m.poll.watchdog stallTimeout p
  let rises := poll.stalled && !m.poll.stalled
  let falls := !poll.stalled && m.poll.stalled
  { m with
    poll
    llmBackendStalled := poll.stalled
    backendStallEventsTotal := m.backendStallEventsTotal + rises.toNat
    log := m.log ++ (if rises then [.stallDetected] else if falls then [.stallCleared] else []) }

def setGauges (m : Monitor) (raw : ParseSnapshotResult) : Monitor :=
  if raw.foundUsage then
    { m with vllmKvCacheUsage := raw.snapshot.kvUsage, vllmKvCacheFree := raw.snapshot.kvFree }
  else m

def step (config : MonitorConfig) (m : Monitor) (tick : Tick) : Monitor :=
  match config.scraped tick with
  | none => m
  | some raw =>
      let m := m.setGauges raw
      let m := if raw.foundLlamacpp then m.noteSlots (config.slots tick).isSome else m
      let result := config.complete tick raw
      if result.foundUsage || result.foundLlamacpp then
        let m := (m.publish result.snapshot).noteFlavor result.flavor
        if config.stallTimeout = 0 then m
        else m.watchdog config.stallTimeout ⟨result.snapshot, tick.now⟩
      else m

def run (config : MonitorConfig) (started : Instant) (ticks : List Tick) : Monitor :=
  ticks.foldl (step config) (new started)

section

variable {m : Monitor} {config : MonitorConfig} {tick : Tick}

/-- What the health of `/slots` comes to with a reading of it, where there is one. -/
def slotsAfter (was : Option Bool) : Option Bool → Option Bool
  | some ok => if was.isSome || ok then some ok else none
  | none => was

def slotsLog (was : Option Bool) : Option Bool → List MonitorLog
  | some false => if was = some true then [.slotsLost] else []
  | some true => if was = some false then [.slotsRecovered] else []
  | none => []

def flavorLog (was : Option Flavor) (flavor : Flavor) : List MonitorLog :=
  if was = some flavor then [] else [.flavor flavor]

def stallLog (was stalled : Bool) : List MonitorLog :=
  if stalled && !was then [.stallDetected] else if !stalled && was then [.stallCleared] else []

theorem noteSlots_eq (m : Monitor) (ok : Bool) :
    m.noteSlots ok = { m with
      lastSlotsOk := slotsAfter m.lastSlotsOk (some ok)
      log := m.log ++ slotsLog m.lastSlotsOk (some ok) } := by
  obtain ⟨_, _, _, lastSlotsOk, _, _, _, _, _, _⟩ := m
  cases lastSlotsOk with
  | none => cases ok <;> simp [noteSlots, slotsAfter, slotsLog]
  | some was => cases was <;> cases ok <;> simp [noteSlots, slotsAfter, slotsLog]

theorem noteFlavor_eq (m : Monitor) (flavor : Flavor) :
    m.noteFlavor flavor = { m with
      lastFlavor := some flavor
      log := m.log ++ flavorLog m.lastFlavor flavor } := by
  unfold noteFlavor flavorLog
  split
  · rename_i same
    rw [← same, List.append_nil]
  · rfl

theorem complete_found (config : MonitorConfig) (tick : Tick) (raw : ParseSnapshotResult) :
    (config.complete tick raw).foundUsage = raw.foundUsage ∧
      (config.complete tick raw).foundFree = raw.foundFree ∧
      (config.complete tick raw).foundLlamacpp = raw.foundLlamacpp := by
  unfold MonitorConfig.complete
  split
  · unfold ParseSnapshotResult.withSlots
    split
    · exact ⟨rfl, rfl, rfl⟩
    · simp only
      split <;> exact ⟨rfl, rfl, rfl⟩
  · exact ⟨rfl, rfl, rfl⟩

/-- A pass that is published, a pass over metrics that nobody knows, and a pass without
    metrics. -/
theorem step_cases (config : MonitorConfig) (m : Monitor) (tick : Tick) :
    (∃ raw, config.scraped tick = some raw ∧ (raw.foundUsage || raw.foundLlamacpp) = true ∧
      (config.scrape tick).published = some ⟨(config.complete tick raw).snapshot, tick.now⟩) ∨
    ((config.scrape tick).published = none ∧ config.slotsOk tick = none ∧
      (∀ raw, config.scraped tick = some raw → raw.foundUsage = false) ∧ m.step config tick = m) := by
  unfold Scrape.published MonitorConfig.scrape MonitorConfig.slotsOk step
  cases scraped : config.scraped tick with
  | none => exact .inr ⟨rfl, rfl, by simp, rfl⟩
  | some raw =>
      obtain ⟨usage, -, llamacpp⟩ := complete_found config tick raw
      simp only [Option.map_some, usage, llamacpp]
      cases known : raw.foundUsage || raw.foundLlamacpp with
      | true => exact .inl ⟨raw, rfl, known, rfl⟩
      | false =>
          obtain ⟨noUsage, noLlamacpp⟩ := Bool.or_eq_false_iff.mp known
          right
          simp [setGauges, noUsage, noLlamacpp]

/-- A published pass, field by field. -/
structure Advance (config : MonitorConfig) (m : Monitor) (tick : Tick) (raw : ParseSnapshotResult)
    (m' : Monitor) : Prop where
  published : (config.scrape tick).published = some ⟨m'.snapshot, tick.now⟩
  snapshot : m'.snapshot = (config.complete tick raw).snapshot
  pressure : m'.llmBackendKvPressure = m'.snapshot.kvUsage
  gauges : (m'.vllmKvCacheUsage, m'.vllmKvCacheFree) =
    if raw.foundUsage then (raw.snapshot.kvUsage, raw.snapshot.kvFree)
    else (m.vllmKvCacheUsage, m.vllmKvCacheFree)
  poll : m'.poll = m.poll.step config.stallTimeout (config.scrape tick)
  stalled : m.llmBackendStalled = m.poll.stalled → m'.llmBackendStalled = m'.poll.stalled
  events : m'.backendStallEventsTotal =
    m.backendStallEventsTotal + (!m.poll.stalled && m'.poll.stalled).toNat
  lastSlotsOk : m'.lastSlotsOk = slotsAfter m.lastSlotsOk (config.slotsOk tick)
  lastFlavor : m'.lastFlavor = some raw.flavor
  log : m'.log = m.log ++ slotsLog m.lastSlotsOk (config.slotsOk tick) ++
    flavorLog m.lastFlavor raw.flavor ++ stallLog m.poll.stalled m'.poll.stalled

theorem flavor_complete (config : MonitorConfig) (tick : Tick) (raw : ParseSnapshotResult) :
    (config.complete tick raw).flavor = raw.flavor := by
  obtain ⟨usage, -, llamacpp⟩ := complete_found config tick raw
  simp only [ParseSnapshotResult.flavor, usage, llamacpp]

theorem advance {raw : ParseSnapshotResult} (scraped : config.scraped tick = some raw)
    (known : (raw.foundUsage || raw.foundLlamacpp) = true) :
    Advance config m tick raw (m.step config tick) := by
  obtain ⟨usage, -, llamacpp⟩ := complete_found config tick raw
  have published : (config.scrape tick).published =
      some ⟨(config.complete tick raw).snapshot, tick.now⟩ := by
    simp only [Scrape.published, MonitorConfig.scrape, scraped, Option.map_some, usage, llamacpp,
      known, if_true]
  have slotsOk : config.slotsOk tick =
      if raw.foundLlamacpp then some (config.slots tick).isSome else none := by
    simp only [MonitorConfig.slotsOk, scraped]
  have stepped : m.poll.step config.stallTimeout (config.scrape tick) =
      if config.stallTimeout = 0 then m.poll
      else m.poll.watchdog config.stallTimeout ⟨(config.complete tick raw).snapshot, tick.now⟩ := by
    simp only [PollState.step, published]
  -- The pass as one update.
  have whole : m.step config tick =
      let m1 := m.setGauges raw
      let m2 := if raw.foundLlamacpp then m1.noteSlots (config.slots tick).isSome else m1
      let m3 := (m2.publish (config.complete tick raw).snapshot).noteFlavor raw.flavor
      if config.stallTimeout = 0 then m3
      else m3.watchdog config.stallTimeout ⟨(config.complete tick raw).snapshot, tick.now⟩ := by
    simp only [step, scraped, usage, llamacpp, known, if_true, flavor_complete]
  have m1 : m.setGauges raw = { m with
      vllmKvCacheUsage := if raw.foundUsage then raw.snapshot.kvUsage else m.vllmKvCacheUsage
      vllmKvCacheFree := if raw.foundUsage then raw.snapshot.kvFree else m.vllmKvCacheFree } := by
    unfold setGauges
    split <;> rfl
  have m2 : (if raw.foundLlamacpp then (m.setGauges raw).noteSlots (config.slots tick).isSome
      else m.setGauges raw) = { m.setGauges raw with
        lastSlotsOk := slotsAfter m.lastSlotsOk (config.slotsOk tick)
        log := m.log ++ slotsLog m.lastSlotsOk (config.slotsOk tick) } := by
    rw [slotsOk, noteSlots_eq, m1]
    split
    · rfl
    · simp [slotsAfter, slotsLog]
  simp only [m2] at whole
  simp only [m1, noteFlavor_eq, publish] at whole
  rw [whole]
  by_cases off : config.stallTimeout = 0
  · rw [if_pos off] at stepped ⊢
    refine ⟨published, rfl, rfl, ?_, stepped.symm, id, ?_, rfl, rfl, ?_⟩
    · split <;> rfl
    · simp
    · simp [stallLog]
  · rw [if_neg off] at stepped ⊢
    refine ⟨published, rfl, rfl, ?_, stepped.symm, fun _ => rfl, ?_, rfl, rfl, ?_⟩
    · simp only [watchdog]
      split <;> rfl
    · simp only [watchdog, Bool.and_comm]
    · simp only [watchdog, stallLog, List.append_assoc]

end

end Monitor

namespace Prometheus

/-- The numbers of a body, line by line. -/
def readings (parse : Parser) (body : List Char) : List Reading :=
  (Text.lines body).filterMap fun line =>
    (parsePrometheusLine parse line).map fun reading => (String.ofList reading.1, reading.2)

theorem parseSnapshot_eq (parse : Parser) (body : List Char) :
    parseSnapshot parse body = summary (readings parse body) := by
  have folded : ∀ (lines : List (List Char)) (acc : ParseSnapshotResult),
      lines.foldl (parseStep parse) acc =
        (lines.filterMap fun line => (parsePrometheusLine parse line).map fun reading =>
          (String.ofList reading.1, reading.2)).foldl (fun acc r => record acc r.1 r.2) acc := by
    intro lines
    induction lines with
    | nil => exact fun _ => rfl
    | cons line rest ih =>
        intro acc
        rw [List.foldl_cons, ih, List.filterMap_cons]
        cases read : parsePrometheusLine parse line with
        | none => simp [parseStep, read]
        | some reading => simp [parseStep, read]
  rw [parseSnapshot, folded, ← deriveFree_gathered, ← foldl_record]
  rfl

theorem lastOf_eq_none {readings : List Reading} {field : Field}
    (absent : (readings.any fun reading => reading.1 ∈ field.names) = false) :
    lastOf readings field = none := by
  have none_ : (readings.filter fun reading => reading.1 ∈ field.names) = [] := by
    rw [List.filter_eq_nil_iff]
    intro reading member named
    exact List.any_eq_false.mp absent reading member named
  rw [lastOf, none_]
  rfl

theorem parseSnapshot_absent (parse : Parser) (body : List Char) :
    ((parseSnapshot parse body).foundUsage = false →
      (parseSnapshot parse body).snapshot.kvUsage = .fin 0) ∧
    ((parseSnapshot parse body).foundUsage = false → (parseSnapshot parse body).foundFree = false →
      (parseSnapshot parse body).snapshot.kvFree = .fin 1) := by
  rw [parseSnapshot_eq]
  constructor
  · intro usage
    simp only [summary] at usage ⊢
    rw [lastOf_eq_none usage]
    rfl
  · intro usage free
    simp only [summary] at usage free ⊢
    rw [usage, Bool.false_and, Bool.false_and, if_neg (by simp), lastOf_eq_none free]
    rfl

end Prometheus

theorem slotsKvUsage_mem {slots : List SlotKv} {kvUnified : Bool} {kvUsage : ℚ}
    (usage : slotsKvUsage slots kvUnified = some kvUsage) : 0 ≤ kvUsage ∧ kvUsage ≤ 1 := by
  obtain ⟨pool, -, quotient⟩ := Option.bind_eq_some_iff.mp usage
  split at quotient
  · cases quotient
  · obtain rfl := Option.some.inj quotient
    exact ⟨le_max_left _ _, max_le zero_le_one (min_le_left _ _)⟩

/-- The usage is a share, and the free share is what is left of it. -/
def BackendSnapshot.IsShare (snapshot : BackendSnapshot) : Prop :=
  ∃ kvUsage : ℚ, 0 ≤ kvUsage ∧ kvUsage ≤ 1 ∧ snapshot.kvUsage = .fin kvUsage ∧
    snapshot.kvFree = .fin (1 - kvUsage)

theorem isShare_complete {config : MonitorConfig} {tick : Tick} {raw : ParseSnapshotResult}
    (scraped : config.scraped tick = some raw) (noUsage : raw.foundUsage = false)
    (noFree : raw.foundFree = false) : (config.complete tick raw).snapshot.IsShare := by
  obtain ⟨body, -, rfl⟩ := Option.map_eq_some_iff.mp scraped
  obtain ⟨usage, free⟩ := Prometheus.parseSnapshot_absent config.parse body
  have plain : (Prometheus.parseSnapshot config.parse body).snapshot.IsShare :=
    ⟨0, le_rfl, zero_le_one, usage noUsage, by rw [free noUsage noFree, sub_zero]⟩
  unfold MonitorConfig.complete ParseSnapshotResult.withSlots
  split
  · split
    · exact plain
    · rename_i slots _
      cases quotient : slotsKvUsage slots config.kvUnified with
      | none => exact plain
      | some kvUsage =>
          obtain ⟨nonneg, atMost⟩ := slotsKvUsage_mem quotient
          exact ⟨kvUsage, nonneg, atMost, rfl, rfl⟩
  · exact plain

namespace PollState

/-- The signal after each scrape. -/
def signals (stallTimeout : Duration) : PollState → List Scrape → List Bool
  | _, [] => []
  | s, scrape :: rest =>
      (s.step stallTimeout scrape).signal :: signals stallTimeout (s.step stallTimeout scrape) rest

variable {stallTimeout : Duration} {s : PollState} {scrape : Scrape} {scrapes : List Scrape}

theorem signals_concat : signals stallTimeout s (scrapes ++ [scrape]) =
    signals stallTimeout s scrapes ++
      [((scrapes.foldl (step stallTimeout) s).step stallTimeout scrape).signal] := by
  induction scrapes generalizing s with
  | nil => rfl
  | cons first rest ih => simp only [List.cons_append, signals, ih, List.foldl_cons]

theorem last_signals (stallTimeout : Duration) (s : PollState) (scrapes : List Scrape) :
    Edges.last s.signal (signals stallTimeout s scrapes) =
      (scrapes.foldl (step stallTimeout) s).signal := by
  induction scrapes using List.reverseRecOn with
  | nil => rfl
  | append_singleton scrapes scrape _ =>
      rw [signals_concat, Edges.last_concat, List.foldl_append, List.foldl_cons, List.foldl_nil]

theorem step_stalled (agree : s.stalled = s.signal) :
    (s.step stallTimeout scrape).stalled = (s.step stallTimeout scrape).signal := by
  unfold step
  split
  · split
    · exact agree
    · rfl
  · exact agree

theorem run_concat (started : Instant) :
    run stallTimeout started (scrapes ++ [scrape]) =
      (run stallTimeout started scrapes).step stallTimeout scrape := by
  rw [run, List.foldl_append, List.foldl_cons, List.foldl_nil]
  rfl

end PollState

namespace MonitorConfig

variable (config : MonitorConfig)

def published (ticks : List Tick) : List Published :=
  ticks.filterMap fun tick => (config.scrape tick).published

/-- The signal after each pass. -/
def signals (started : Instant) (ticks : List Tick) : List Bool :=
  PollState.signals config.stallTimeout (.new started) (ticks.map config.scrape)

/-- The readings of `/slots` since the first that worked. -/
def slotsHeard (ticks : List Tick) : List Bool := (ticks.filterMap config.slotsOk).dropWhile (!·)

/-- The passes that show a vLLM backend. -/
def vllmScrapes (ticks : List Tick) : List ParseSnapshotResult :=
  (ticks.filterMap config.scraped).filter ParseSnapshotResult.foundUsage

end MonitorConfig

def MonitorLog.flavor? : MonitorLog → Option Flavor
  | .flavor seen => some seen
  | _ => none

/-- What the monitor shows of the passes it has made. -/
structure Monitor.Follows (config : MonitorConfig) (started : Instant) (ticks : List Tick)
    (m : Monitor) : Prop where
  snapshot : m.snapshot = ((config.published ticks).getLast?.map Published.snapshot).getD .default
  pressure : m.llmBackendKvPressure = m.snapshot.kvUsage
  gauges : (m.vllmKvCacheUsage, m.vllmKvCacheFree) =
    ((config.vllmScrapes ticks).getLast?.map fun raw =>
      (raw.snapshot.kvUsage, raw.snapshot.kvFree)).getD (.fin 0, .fin 0)
  poll : m.poll = PollState.run config.stallTimeout started (ticks.map config.scrape)
  agree : m.poll.stalled = m.poll.signal
  stalled : m.llmBackendStalled = m.poll.stalled
  events : m.backendStallEventsTotal = Edges.rises false (config.signals started ticks)
  detected : m.log.count .stallDetected = Edges.rises false (config.signals started ticks)
  cleared : m.log.count .stallCleared = Edges.falls false (config.signals started ticks)
  lastSlotsOk : m.lastSlotsOk = (config.slotsHeard ticks).getLast?
  lost : m.log.count .slotsLost = Edges.falls true (config.slotsHeard ticks)
  recovered : m.log.count .slotsRecovered = Edges.rises true (config.slotsHeard ticks)
  lastFlavor : m.lastFlavor = (m.log.filterMap MonitorLog.flavor?).getLast?
  flavors : (m.log.filterMap MonitorLog.flavor?).IsChain (· ≠ ·)

namespace Monitor

section

variable {m : Monitor} {config : MonitorConfig} {tick : Tick} {ticks : List Tick} {started : Instant}

/-- What is heard of one more reading: nothing before the first good one. -/
def heard (before : List Bool) : Option Bool → List Bool
  | some ok => if ok || !before.isEmpty then [ok] else []
  | none => []

theorem slotsHeard_concat (ticks : List Tick) (tick : Tick) :
    config.slotsHeard (ticks ++ [tick]) =
      config.slotsHeard ticks ++ heard (config.slotsHeard ticks) (config.slotsOk tick) := by
  unfold MonitorConfig.slotsHeard
  rw [List.filterMap_append]
  cases slotsOk : config.slotsOk tick with
  | none => simp [slotsOk, heard]
  | some ok =>
      have single : [tick].filterMap config.slotsOk = [ok] := by simp [slotsOk]
      rw [single, List.dropWhile_append]
      cases (List.dropWhile (!·) (ticks.filterMap config.slotsOk)) with
      | nil => cases ok <;> simp [heard]
      | cons x rest => simp [heard]

theorem lastSlotsOk_heard (before : List Bool) (ok : Option Bool) :
    slotsAfter before.getLast? ok = (before ++ heard before ok).getLast? := by
  cases ok with
  | none => simp [slotsAfter, heard]
  | some ok =>
      cases before with
      | nil => cases ok <;> simp [slotsAfter, heard]
      | cons x rest => simp [slotsAfter, heard, List.getLast?_cons]

/-- A loss is logged at a fall, and a recovery at a rise. -/
theorem slotsLog_heard (before : List Bool) (ok : Option Bool) :
    Edges.falls true (before ++ heard before ok) =
        Edges.falls true before + (slotsLog before.getLast? ok).count .slotsLost ∧
      Edges.rises true (before ++ heard before ok) =
        Edges.rises true before + (slotsLog before.getLast? ok).count .slotsRecovered := by
  cases ok with
  | none => simp [slotsLog, heard]
  | some ok =>
      rcases List.eq_nil_or_concat before with rfl | ⟨rest, x, rfl⟩
      · cases ok <;> simp [slotsLog, heard, Edges.rises, Edges.falls]
      · have more : heard (rest.concat x) (some ok) = [ok] := by simp [heard]
        rw [more, Edges.falls_concat, Edges.rises_concat]
        cases x <;> cases ok <;> simp [slotsLog]

theorem signals_concat :
    config.signals started (ticks ++ [tick]) = config.signals started ticks ++
      [((PollState.run config.stallTimeout started (ticks.map config.scrape)).step
        config.stallTimeout (config.scrape tick)).signal] := by
  rw [MonitorConfig.signals, List.map_append, List.map_cons, List.map_nil, PollState.signals_concat]
  rfl

theorem last_signals : Edges.last false (config.signals started ticks) =
    (PollState.run config.stallTimeout started (ticks.map config.scrape)).signal :=
  PollState.last_signals config.stallTimeout (.new started) (ticks.map config.scrape)

theorem slotsLog_others (was ok : Option Bool) :
    (slotsLog was ok).count .stallDetected = 0 ∧ (slotsLog was ok).count .stallCleared = 0 ∧
      (slotsLog was ok).filterMap MonitorLog.flavor? = [] := by
  unfold slotsLog
  split
  · split <;> simp [MonitorLog.flavor?]
  · split <;> simp [MonitorLog.flavor?]
  · simp

theorem flavorLog_others (was : Option Flavor) (flavor : Flavor) {entry : MonitorLog}
    (other : entry.flavor? = none) : (flavorLog was flavor).count entry = 0 := by
  unfold flavorLog
  split
  · rfl
  · rw [List.count_eq_zero, List.mem_singleton]
    rintro rfl
    cases other

theorem stallLog_counts (was stalled : Bool) :
    (stallLog was stalled).count .stallDetected = (!was && stalled).toNat ∧
      (stallLog was stalled).count .stallCleared = (was && !stalled).toNat ∧
      (stallLog was stalled).count .slotsLost = 0 ∧ (stallLog was stalled).count .slotsRecovered = 0 ∧
      (stallLog was stalled).filterMap MonitorLog.flavor? = [] := by
  cases was <;> cases stalled <;> decide

theorem count_log {m m' : Monitor} {slots : Option Bool} {ok : Option Bool} {was : Option Flavor}
    {flavor : Flavor} {before after : Bool}
    (log : m'.log = m.log ++ slotsLog slots ok ++ flavorLog was flavor ++ stallLog before after) :
    m'.log.count .stallDetected = m.log.count .stallDetected + (!before && after).toNat ∧
      m'.log.count .stallCleared = m.log.count .stallCleared + (before && !after).toNat ∧
      m'.log.count .slotsLost = m.log.count .slotsLost + (slotsLog slots ok).count .slotsLost ∧
      m'.log.count .slotsRecovered =
        m.log.count .slotsRecovered + (slotsLog slots ok).count .slotsRecovered ∧
      m'.log.filterMap MonitorLog.flavor? = m.log.filterMap MonitorLog.flavor? ++
        (flavorLog was flavor).filterMap MonitorLog.flavor? := by
  obtain ⟨noDetected, noCleared, noFlavor⟩ := slotsLog_others slots ok
  obtain ⟨detected, cleared, noLost, noRecovered, noFlavor'⟩ := stallLog_counts before after
  have others : ∀ entry : MonitorLog, entry.flavor? = none →
      (flavorLog was flavor).count entry = 0 := fun _ => flavorLog_others was flavor
  simp only [log, List.count_append, List.filterMap_append, noDetected, noCleared, noFlavor, detected,
    cleared, noLost, noRecovered, noFlavor', others .stallDetected rfl, others .stallCleared rfl,
    others .slotsLost rfl, others .slotsRecovered rfl, Nat.add_zero, List.append_nil, and_self]

theorem Follows.advance (follows : Follows config started ticks m) {raw : ParseSnapshotResult}
    (scraped : config.scraped tick = some raw) (known : (raw.foundUsage || raw.foundLlamacpp) = true) :
    Follows config started (ticks ++ [tick]) (m.step config tick) := by
  have advance := Monitor.advance (m := m) scraped known
  have published : config.published (ticks ++ [tick]) =
      config.published ticks ++ [⟨(m.step config tick).snapshot, tick.now⟩] := by
    rw [MonitorConfig.published, List.filterMap_append, List.filterMap_cons, advance.published]
    rfl
  obtain ⟨detected, cleared, lost, recovered, flavors⟩ := count_log advance.log
  obtain ⟨falls, rises⟩ := slotsLog_heard (config.slotsHeard ticks) (config.slotsOk tick)
  have moved : (m.step config tick).poll.signal = ((PollState.run config.stallTimeout started
      (ticks.map config.scrape)).step config.stallTimeout (config.scrape tick)).signal := by
    rw [advance.poll, follows.poll]
  have agree : (m.step config tick).poll.stalled = (m.step config tick).poll.signal := by
    rw [advance.poll]
    exact PollState.step_stalled follows.agree
  have was : Edges.last false (config.signals started ticks) = m.poll.stalled := by
    rw [last_signals, ← follows.poll, follows.agree]
  have signals : config.signals started (ticks ++ [tick]) =
      config.signals started ticks ++ [(m.step config tick).poll.stalled] := by
    rw [signals_concat, agree, moved]
  refine
    { snapshot := ?_, pressure := advance.pressure, gauges := ?_, poll := ?_, agree
      stalled := advance.stalled follows.stalled, events := ?_, detected := ?_, cleared := ?_
      lastSlotsOk := ?_, lost := ?_, recovered := ?_, lastFlavor := ?_, flavors := ?_ }
  · rw [published, List.getLast?_concat]
    rfl
  · have scrapes : config.vllmScrapes (ticks ++ [tick]) =
        config.vllmScrapes ticks ++ (if raw.foundUsage then [raw] else []) := by
      simp only [MonitorConfig.vllmScrapes, List.filterMap_append, List.filterMap_cons, scraped,
        List.filterMap_nil, List.filter_append, List.filter_cons, List.filter_nil]
    rw [advance.gauges, scrapes]
    split
    · rw [List.getLast?_concat]
      rfl
    · rw [List.append_nil, follows.gauges]
  · rw [advance.poll, follows.poll, List.map_append, List.map_cons, List.map_nil,
      PollState.run_concat]
  · rw [advance.events, follows.events, signals, Edges.rises_concat, was]
  · rw [detected, follows.detected, signals, Edges.rises_concat, was]
  · rw [cleared, follows.cleared, signals, Edges.falls_concat, was]
  · rw [advance.lastSlotsOk, follows.lastSlotsOk, slotsHeard_concat, lastSlotsOk_heard]
  · rw [lost, follows.lost, follows.lastSlotsOk, slotsHeard_concat, falls]
  · rw [recovered, follows.recovered, follows.lastSlotsOk, slotsHeard_concat, rises]
  · rw [advance.lastFlavor, flavors, flavorLog, follows.lastFlavor]
    split
    · rename_i same
      rw [List.filterMap_nil, List.append_nil, same]
    · simp [MonitorLog.flavor?]
  · rw [flavors, flavorLog, follows.lastFlavor]
    split
    · rw [List.filterMap_nil, List.append_nil]
      exact follows.flavors
    · rename_i other
      refine follows.flavors.append (.singleton _) ?_
      rintro seen last next head rfl
      obtain rfl : raw.flavor = seen := Option.some.inj head
      exact other last

theorem Follows.skip (follows : Follows config started ticks m)
    (unpublished : (config.scrape tick).published = none) (silent : config.slotsOk tick = none)
    (raw : ∀ raw, config.scraped tick = some raw → raw.foundUsage = false) :
    Follows config started (ticks ++ [tick]) m := by
  have published : config.published (ticks ++ [tick]) = config.published ticks := by
    simp [MonitorConfig.published, unpublished]
  have scrapes : config.vllmScrapes (ticks ++ [tick]) = config.vllmScrapes ticks := by
    simp only [MonitorConfig.vllmScrapes, List.filterMap_append, List.filter_append]
    cases scraped : config.scraped tick with
    | none => simp [scraped]
    | some result => simp [scraped, raw result scraped]
  have heard : config.slotsHeard (ticks ++ [tick]) = config.slotsHeard ticks := by
    rw [slotsHeard_concat, silent]
    simp [heard]
  have still : (PollState.run config.stallTimeout started (ticks.map config.scrape)).step
      config.stallTimeout (config.scrape tick) =
        PollState.run config.stallTimeout started (ticks.map config.scrape) := by
    simp only [PollState.step, unpublished]
  have same : Edges.last false (config.signals started ticks) = m.poll.signal := by
    rw [last_signals, follows.poll]
  have signals : config.signals started (ticks ++ [tick]) =
      config.signals started ticks ++ [m.poll.signal] := by
    rw [signals_concat, still, follows.poll]
  refine
    { follows with
      snapshot := by rw [published]; exact follows.snapshot
      gauges := by rw [scrapes]; exact follows.gauges
      poll := ?_
      events := ?_
      detected := ?_
      cleared := ?_
      lastSlotsOk := by rw [heard]; exact follows.lastSlotsOk
      lost := by rw [heard]; exact follows.lost
      recovered := by rw [heard]; exact follows.recovered }
  · rw [follows.poll, List.map_append, List.map_cons, List.map_nil, PollState.run_concat, still]
  · rw [follows.events, signals, Edges.rises_concat, same]
    simp
  · rw [follows.detected, signals, Edges.rises_concat, same]
    simp
  · rw [follows.cleared, signals, Edges.falls_concat, same]
    simp

theorem Follows.start (config : MonitorConfig) (started : Instant) :
    Follows config started [] (new started) where
  snapshot := rfl
  pressure := rfl
  gauges := rfl
  poll := rfl
  agree := rfl
  stalled := rfl
  events := rfl
  detected := rfl
  cleared := rfl
  lastSlotsOk := rfl
  lost := rfl
  recovered := rfl
  lastFlavor := rfl
  flavors := .nil

theorem follows_run (config : MonitorConfig) (started : Instant) (ticks : List Tick) :
    Follows config started ticks (run config started ticks) := by
  induction ticks using List.reverseRecOn with
  | nil => exact .start config started
  | append_singleton ticks tick ih =>
      rw [run, List.foldl_append, List.foldl_cons, List.foldl_nil]
      rcases step_cases config (run config started ticks) tick with
        ⟨raw, scraped, known, -⟩ | ⟨unpublished, silent, noUsage, same⟩
      · exact ih.advance scraped known
      · change Follows config started (ticks ++ [tick]) (step config (run config started ticks) tick)
        rw [same]
        exact ih.skip unpublished silent noUsage

end

end Monitor

/-- Whatever the backend answers and whenever: what the monitor shows is that of the last
    pass that was published, passes that fail change nothing, the watchdog sees the same
    passes, its events are the rises of the signal, losses of the slots are logged at the
    falls of their readings, and one flavor is logged after another. What is detected and
    not cleared yet is the stall that it shows. Unless a vLLM gauge is read, the usage it
    shows is a share. -/
theorem monitor_follows_scrapes (config : MonitorConfig) (started : Instant) (ticks : List Tick) :
    Monitor.Follows config started ticks (Monitor.run config started ticks) ∧
      (Monitor.run config started ticks).log.count .stallDetected =
        (Monitor.run config started ticks).log.count .stallCleared +
          (Monitor.run config started ticks).llmBackendStalled.toNat ∧
      ((∀ tick ∈ ticks, ∀ raw, config.scraped tick = some raw →
          raw.foundUsage = false ∧ raw.foundFree = false) →
        (Monitor.run config started ticks).snapshot.IsShare) := by
  have follows := Monitor.follows_run config started ticks
  refine ⟨follows, ?_, ?_⟩
  · have balance := Edges.balance false (config.signals started ticks)
    rw [Monitor.last_signals, ← follows.poll, ← follows.agree, ← follows.stalled,
      ← follows.detected, ← follows.cleared] at balance
    simpa using balance
  intro plain
  rw [follows.snapshot]
  cases last : (config.published ticks).getLast? with
  | none => exact ⟨0, le_rfl, zero_le_one, rfl, by simp [BackendSnapshot.default]⟩
  | some p =>
      obtain ⟨tick, member, published⟩ := List.mem_filterMap.mp (List.mem_of_getLast? last)
      rcases Monitor.step_cases config (Monitor.new started) tick with
        ⟨raw, scraped, -, shown⟩ | ⟨unpublished, -⟩
      · obtain rfl := Option.some.inj (shown.symm.trans published)
        obtain ⟨noUsage, noFree⟩ := plain tick member raw scraped
        exact isShare_complete scraped noUsage noFree
      · rw [unpublished] at published
        cases published

end TinyLlb
