import Mathlib.Data.List.Induction
import TinyLlb.Flow

/-! # The stall watchdog

The poll loop scrapes the backend and raises a signal when it has been busy without
any of its counters moving for the whole timeout. It remembers the time of the last
progress, and an idle scrape counts as progress. The first busy scrape after it does
not, so what lies between the two is taken for a part of the stall.

Nothing is awaited between the readings of the clock in one pass of the loop; they
are one reading here. The gauges, the slots endpoint and log lines are left out.
-/

namespace TinyLlb

/-- `==` of floats. -/
def F64.ieeeEq : F64 → F64 → Bool
  | nan, _ => false
  | a, b => decide (a = b)

/-- `x > 0.0`. -/
def F64.isPositive : F64 → Bool
  | nan => false
  | negInf => false
  | posInf => true
  | fin q => decide (0 < q)

structure BackendSnapshot where
  kvUsage : F64
  kvFree : F64
  slotCount : Option Nat
  preemptions : Nat
  generationTokens : F64
  promptTokens : F64
  requestsRunning : F64
  requestsWaiting : F64
  cachedPromptTokens : F64
  decodeCalls : F64

namespace BackendSnapshot

def default : BackendSnapshot :=
  { kvUsage := .fin 0, kvFree := .fin 1, slotCount := none, preemptions := 0
    generationTokens := .fin 0, promptTokens := .fin 0, requestsRunning := .fin 0
    requestsWaiting := .fin 0, cachedPromptTokens := .fin 0, decodeCalls := .fin 0 }

def isBusy (snapshot : BackendSnapshot) : Bool :=
  snapshot.requestsRunning.isPositive || snapshot.requestsWaiting.isPositive

end BackendSnapshot

structure ParseSnapshotResult where
  snapshot : BackendSnapshot
  foundUsage : Bool
  foundFree : Bool
  foundLlamacpp : Bool

/-- One pass of the poll loop: what the scrape came to, nothing if it failed, and when. -/
structure Scrape where
  result : Option ParseSnapshotResult
  now : Instant

/-- A snapshot that was published, and when. -/
structure Published where
  snapshot : BackendSnapshot
  now : Instant

/-- Only a scrape with metrics of a known backend is published. -/
def Scrape.published (scrape : Scrape) : Option Published :=
  match scrape.result with
  | some result =>
      if result.foundUsage || result.foundLlamacpp then some ⟨result.snapshot, scrape.now⟩ else none
  | none => none

/-- The counters that the watchdog compares. -/
structure ProgressCounters where
  promptTokens : F64
  generationTokens : F64
  cachedTokens : F64
  decodeCalls : F64

namespace ProgressCounters

def zero : ProgressCounters := ⟨.fin 0, .fin 0, .fin 0, .fin 0⟩

def unchanged (a b : ProgressCounters) : Bool :=
  a.promptTokens.ieeeEq b.promptTokens && a.generationTokens.ieeeEq b.generationTokens &&
    a.cachedTokens.ieeeEq b.cachedTokens && a.decodeCalls.ieeeEq b.decodeCalls

end ProgressCounters

namespace Published

def counters (p : Published) : ProgressCounters :=
  ⟨p.snapshot.promptTokens, p.snapshot.generationTokens, p.snapshot.cachedPromptTokens,
    p.snapshot.decodeCalls⟩

def isBusy (p : Published) : Bool := p.snapshot.isBusy

end Published

/-- The watchdog's part of the poll loop's state, and the signal. -/
structure PollState where
  last : ProgressCounters
  lastProgress : Instant
  stalled : Bool
  signal : Bool

namespace PollState

def new (started : Instant) : PollState :=
  { last := .zero, lastProgress := started, stalled := false, signal := false }

def watchdog (stallTimeout : Duration) (s : PollState) (p : Published) : PollState :=
  let lastProgress := if p.isBusy = false then p.now else s.lastProgress
  let progressed := !p.counters.unchanged s.last
  let lastProgress := if progressed then p.now else lastProgress
  let nowStalled := p.isBusy && decide (p.now.durationSince lastProgress ≥ stallTimeout)
  let stalled :=
    if nowStalled && !s.stalled then true
    else if !nowStalled && s.stalled then false
    else s.stalled
  { last := p.counters, lastProgress, stalled, signal := stalled }

def step (stallTimeout : Duration) (s : PollState) (scrape : Scrape) : PollState :=
  match scrape.published with
  | some p => if stallTimeout = 0 then s else s.watchdog stallTimeout p
  | none => s

/-- The poll loop over these scrapes. -/
def run (stallTimeout : Duration) (started : Instant) (scrapes : List Scrape) : PollState :=
  scrapes.foldl (step stallTimeout) (new started)

end PollState

theorem F64.ieeeEq_iff {a b : F64} : a.ieeeEq b = true ↔ a = b ∧ a ≠ .nan := by
  cases a <;> simp [F64.ieeeEq]

namespace ProgressCounters

variable {a b c : ProgressCounters}

theorem unchanged_iff : a.unchanged b = true ↔ a = b ∧ a.unchanged a = true := by
  obtain ⟨a1, a2, a3, a4⟩ := a
  obtain ⟨b1, b2, b3, b4⟩ := b
  simp only [unchanged, Bool.and_eq_true, F64.ieeeEq_iff, mk.injEq]
  tauto

end ProgressCounters

/-- Busy, with these counters. -/
def Published.Quiet (counters : ProgressCounters) (p : Published) : Prop :=
  p.isBusy = true ∧ p.counters.unchanged counters = true

/-- An idle stretch ends here: the last scrape before a busy one is idle, or there is
    none yet. With its time and its counters. -/
inductive Opens (started : Instant) : List Published → Instant → ProgressCounters → Prop where
  | start : Opens started [] started .zero
  | idle {earlier : List Published} {r : Published} (idle : r.isBusy = false) :
      Opens started (earlier ++ [r]) r.now r.counters

namespace PollState

variable {stallTimeout : Duration} {started : Instant} {s : PollState} {p : Published}

def runPublished (stallTimeout : Duration) (started : Instant) (ps : List Published) : PollState :=
  ps.foldl (watchdog stallTimeout) (new started)

theorem runPublished_snoc (stallTimeout : Duration) (started : Instant) (ps : List Published)
    (p : Published) :
    runPublished stallTimeout started (ps ++ [p]) =
      (runPublished stallTimeout started ps).watchdog stallTimeout p := by
  simp [runPublished]

/-- Scrapes that are not published change nothing. -/
theorem run_eq (enabled : stallTimeout ≠ 0) (scrapes : List Scrape) :
    run stallTimeout started scrapes =
      runPublished stallTimeout started (scrapes.filterMap Scrape.published) := by
  induction scrapes using List.reverseRecOn with
  | nil => rfl
  | append_singleton scrapes scrape ih =>
      rw [List.filterMap_append]
      simp only [run, List.foldl_append, List.foldl_cons, List.foldl_nil] at ih ⊢
      rw [ih]
      cases published : scrape.published with
      | none => simp [step, published]
      | some p => simp [step, published, enabled, runPublished]

/-- The signal is up exactly after a busy scrape that lies the timeout behind. -/
theorem watchdog_signal (s : PollState) (p : Published) :
    (s.watchdog stallTimeout p).signal =
      (p.isBusy &&
        decide (p.now.durationSince (s.watchdog stallTimeout p).lastProgress ≥ stallTimeout)) := by
  unfold watchdog
  simp only
  generalize (p.isBusy && decide (p.now.durationSince
    (if (!p.counters.unchanged s.last) = true then p.now
      else if p.isBusy = false then p.now else s.lastProgress) ≥ stallTimeout)) = nowStalled
  cases nowStalled <;> cases s.stalled <;> rfl

theorem watchdog_quiet (stallTimeout : Duration) (quiet : p.Quiet s.last) :
    (s.watchdog stallTimeout p).lastProgress = s.lastProgress ∧
      (s.watchdog stallTimeout p).last = s.last := by
  refine ⟨by simp [watchdog, quiet.1, quiet.2], ?_⟩
  exact (ProgressCounters.unchanged_iff.mp quiet.2).1

theorem watchdog_moved (moved : ¬ p.Quiet s.last) : (s.watchdog stallTimeout p).lastProgress = p.now := by
  unfold watchdog
  cases busy : p.isBusy with
  | false => simp
  | true =>
      have changed : p.counters.unchanged s.last = false := by
        cases same : p.counters.unchanged s.last with
        | false => rfl
        | true => exact absurd ⟨busy, same⟩ moved
      simp [changed]

/-- The last progress is an idle scrape, the start of the loop or a busy scrape whose
    counters moved; after it all are busy with those counters. -/
theorem lastProgress_cases (stallTimeout : Duration) (started : Instant) (ps : List Published) :
    let s := runPublished stallTimeout started ps
    ∃ prior between, ps = prior ++ between ∧ (∀ q ∈ between, q.Quiet s.last) ∧
      (Opens started prior s.lastProgress s.last ∨
        ∃ earlier r, prior = earlier ++ [r] ∧ r.isBusy = true ∧ r.counters = s.last ∧
          r.now = s.lastProgress) := by
  induction ps using List.reverseRecOn with
  | nil => exact ⟨[], [], rfl, by simp, .inl .start⟩
  | append_singleton ps p ih =>
      rw [runPublished_snoc]
      generalize runPublished stallTimeout started ps = s at ih
      by_cases quiet : p.Quiet s.last
      · obtain ⟨prior, between, rfl, all, opening⟩ := ih
        obtain ⟨sameProgress, sameLast⟩ := watchdog_quiet stallTimeout quiet
        simp only [sameProgress, sameLast]
        refine ⟨prior, between ++ [p], by simp, ?_, opening⟩
        intro q member
        rcases List.mem_append.mp member with earlier | last
        · exact all q earlier
        · obtain rfl := List.mem_singleton.mp last
          exact quiet
      · refine ⟨ps ++ [p], [], by simp, by simp, ?_⟩
        have last : (s.watchdog stallTimeout p).last = p.counters := rfl
        simp only [watchdog_moved quiet, last]
        cases busy : p.isBusy with
        | false => exact .inl (.idle busy)
        | true => exact .inr ⟨ps, p, rfl, busy, rfl, rfl⟩

theorem run_opened (stallTimeout : Duration) {prior between : List Published} {since : Instant}
    {counters : ProgressCounters} (opening : Opens started prior since counters)
    (quiet : ∀ q ∈ between, q.Quiet counters) :
    (runPublished stallTimeout started (prior ++ between)).lastProgress = since ∧
      (runPublished stallTimeout started (prior ++ between)).last = counters := by
  induction between using List.reverseRecOn with
  | nil =>
      rw [List.append_nil]
      cases opening with
      | start => exact ⟨rfl, rfl⟩
      | @idle earlier r idle =>
          rw [runPublished_snoc]
          exact ⟨watchdog_moved fun busy => (by cases idle.symm.trans busy.1), rfl⟩
  | append_singleton between q ih =>
      obtain ⟨progress, last⟩ := ih fun other member => quiet other (by simp [member])
      rw [← List.append_assoc, runPublished_snoc]
      have here := quiet q (by simp)
      rw [← last] at here
      obtain ⟨sameProgress, sameLast⟩ := watchdog_quiet stallTimeout here
      exact ⟨sameProgress.trans progress, sameLast.trans last⟩

theorem signal_opened (stallTimeout : Duration) {prior : List Published}
    {since : Instant} {counters : ProgressCounters}
    (opening : Opens started prior since counters) :
    (runPublished stallTimeout started prior).signal = false := by
  cases opening with
  | start => rfl
  | @idle earlier r idle =>
      rw [runPublished_snoc, watchdog_signal, idle]
      rfl

theorem signal_quiet (stallTimeout : Duration) {prior between : List Published} {since : Instant}
    {counters : ProgressCounters} {p : Published} (opening : Opens started prior since counters)
    (quiet : ∀ q ∈ between ++ [p], q.Quiet counters) :
    (runPublished stallTimeout started (prior ++ between ++ [p])).signal =
      decide (p.now.durationSince since ≥ stallTimeout) := by
  obtain ⟨progress, -⟩ := run_opened stallTimeout opening quiet
  rw [← List.append_assoc, runPublished_snoc] at progress
  rw [runPublished_snoc, watchdog_signal, progress, (quiet p (by simp)).1, Bool.true_and]

end PollState

/-- An earlier scrape lies the timeout back, and from it on all are busy with the same
    counters. -/
def SteadyStall (stallTimeout : Duration) (before : List Published) (p : Published) : Prop :=
  ∃ earlier m between, before = earlier ++ m :: between ∧
    stallTimeout ≤ p.now.durationSince m.now ∧ ∀ q ∈ m :: between ++ [p], q.Quiet m.counters

/-- All scrapes since an opening are busy with its counters; the opening lies the
    timeout back, and the first scrape after it does not, or is this one. -/
structure Inherits (stallTimeout : Duration) (started : Instant) (before : List Published)
    (p : Published) (prior between : List Published) (since : Instant) (counters : ProgressCounters) :
    Prop where
  enabled : stallTimeout ≠ 0
  split : before = prior ++ between
  opening : Opens started prior since counters
  quiet : ∀ q ∈ between ++ [p], q.Quiet counters
  due : stallTimeout ≤ p.now.durationSince since
  early : ∀ first ∈ between.head?, p.now.durationSince first.now < stallTimeout

section

open PollState

variable {stallTimeout : Duration} {started : Instant}

/-- The signal rises on a steady stall, or on an inherited gap. -/
theorem rises_cases {ps : List Published} {p : Published} (enabled : stallTimeout ≠ 0)
    (up : (runPublished stallTimeout started (ps ++ [p])).signal = true) :
    SteadyStall stallTimeout ps p ∨ ∃ prior between since counters,
      Inherits stallTimeout started ps p prior between since counters := by
  obtain ⟨prior, between, rfl, quiet, opening⟩ := lastProgress_cases stallTimeout started ps
  rw [runPublished_snoc, watchdog_signal] at up
  generalize runPublished stallTimeout started (prior ++ between) = s at quiet opening up
  obtain ⟨busy, due⟩ := (Bool.and_eq_true _ _).mp up
  have due := of_decide_eq_true due
  by_cases here : p.Quiet s.last
  · rw [(watchdog_quiet stallTimeout here).1] at due
    have all : ∀ q ∈ between ++ [p], q.Quiet s.last := by
      intro q member
      rcases List.mem_append.mp member with earlier | last
      · exact quiet q earlier
      · obtain rfl := List.mem_singleton.mp last
        exact here
    rcases opening with opening | ⟨earlier, r, rfl, rBusy, rCounters, rNow⟩
    · by_cases early : ∀ first ∈ between.head?, p.now.durationSince first.now < stallTimeout
      · exact .inr ⟨prior, between, s.lastProgress, s.last, enabled, rfl, opening, all, due, early⟩
      · left
        cases between with
        | nil => simp at early
        | cons m rest =>
            simp only [List.head?_cons, Option.mem_def, Option.some.injEq, forall_eq', not_lt] at early
            have same := (ProgressCounters.unchanged_iff.mp (all m (by simp)).2).1
            refine ⟨prior, m, rest, rfl, early, ?_⟩
            rw [same]
            exact all
    · left
      refine ⟨earlier, r, between, by simp, rNow ▸ due, ?_⟩
      rw [rCounters]
      intro q member
      rcases List.mem_cons.mp member with rfl | later
      · refine ⟨rBusy, ?_⟩
        have self := (ProgressCounters.unchanged_iff.mp here.2)
        rw [rCounters, ← self.1]
        exact self.2
      · exact all q later
  · rw [watchdog_moved here] at due
    simp only [Instant.durationSince, Nat.sub_self, ge_iff_le, Nat.le_zero] at due
    exact absurd due enabled

theorem Inherits.not_steady {prior between : List Published} {since : Instant}
    {counters : ProgressCounters} {p : Published}
    (gap : Inherits stallTimeout started (prior ++ between) p prior between since counters)
    (clock : (prior ++ between ++ [p]).Pairwise fun a b => a.now ≤ b.now) :
    ¬ SteadyStall stallTimeout (prior ++ between) p := by
  rintro ⟨earlier, m, later, split, old, quiet⟩
  have inside : ∀ as, between = as ++ m :: later → False := by
    intro as same
    cases as with
    | nil =>
        have young := gap.early m (by simp [same])
        exact Nat.not_le.mpr young old
    | cons first rest =>
        have young := gap.early first (by simp [same])
        have sorted : first.now ≤ m.now := by
          rw [same] at clock
          simp only [List.append_assoc, List.cons_append] at clock
          have tail := (List.pairwise_append.mp clock).2.1
          exact (List.pairwise_cons.mp tail).1 m (by simp)
        exact Nat.not_le.mpr young (Nat.le_trans old (Nat.sub_le_sub_left sorted p.now))
  rcases List.append_eq_append_iff.mp split with ⟨as, -, same⟩ | ⟨bs, same, split'⟩
  · exact inside as same
  · cases bs with
    | nil => exact inside [] split'.symm
    | cons b bs =>
        obtain rfl : m = b := (List.cons.inj split').1
        obtain rfl : later = bs ++ between := (List.cons.inj split').2
        have opening := gap.opening
        rw [same] at opening
        generalize whole : earlier ++ m :: bs = list at opening
        cases opening with
        | start => simp at whole
        | @idle _ r idle =>
            have member : r ∈ m :: bs := by
              have ends := congrArg List.getLast? whole
              rw [List.getLast?_append_of_ne_nil _ (by simp), List.getLast?_concat] at ends
              exact List.mem_of_getLast? ends
            have stretch : r ∈ m :: (bs ++ between) ++ [p] := by
              rw [← List.cons_append]
              exact List.mem_append_left _ (List.mem_append_left _ member)
            have busy := (quiet r stretch).1
            cases idle.symm.trans busy

/-- An inherited gap raises the signal without a steady stall, there or at a busy scrape
    before. -/
theorem rises_of_inherits {prior between : List Published} {since : Instant}
    {counters : ProgressCounters} {p : Published}
    (gap : Inherits stallTimeout started (prior ++ between) p prior between since counters)
    (clock : (prior ++ between ++ [p]).Pairwise fun a b => a.now ≤ b.now) :
    ∃ ps q rest, prior ++ between ++ [p] = ps ++ q :: rest ∧
      (runPublished stallTimeout started ps).signal = false ∧
        (runPublished stallTimeout started (ps ++ [q])).signal = true ∧
          ¬ SteadyStall stallTimeout ps q := by
  -- Induction on the busy scrapes since the opening: go back to the first that is due.
  induction between using List.reverseRecOn generalizing p with
  | nil =>
      have up := signal_quiet stallTimeout gap.opening gap.quiet
      rw [decide_eq_true gap.due] at up
      have down := signal_opened stallTimeout gap.opening
      have unsteady := gap.not_steady clock
      rw [List.append_nil] at up unsteady ⊢
      exact ⟨prior, p, [], rfl, down, up, unsteady⟩
  | append_singleton between y ih =>
      cases down : (runPublished stallTimeout started (prior ++ (between ++ [y]))).signal with
      | false =>
          have up := signal_quiet stallTimeout gap.opening gap.quiet
          rw [decide_eq_true gap.due] at up
          exact ⟨prior ++ (between ++ [y]), p, [], rfl, down, up, gap.not_steady clock⟩
      | true =>
          have before : ∀ q ∈ between ++ [y], q.Quiet counters :=
            fun q member => gap.quiet q (by simp only [List.mem_append] at member ⊢; tauto)
          have due := signal_quiet stallTimeout gap.opening before
          rw [List.append_assoc, down] at due
          have sorted := clock
          rw [← List.append_assoc, List.append_assoc _ [y] [p]] at sorted
          have ordered : y.now ≤ p.now := by
            have tail := (List.pairwise_append.mp sorted).2.1
            exact (List.pairwise_cons.mp tail).1 p (by simp)
          have smaller :
              Inherits stallTimeout started (prior ++ between) y prior between since counters :=
            { enabled := gap.enabled, split := rfl, opening := gap.opening, quiet := before
              due := of_decide_eq_true due.symm
              early := by
                intro first head
                have young := gap.early first (by
                  cases between with
                  | nil => simp at head
                  | cons b rest => simpa using head)
                exact Nat.lt_of_le_of_lt (Nat.sub_le_sub_right ordered first.now) young }
          have shorter : (prior ++ between ++ [y]).Pairwise fun a b => a.now ≤ b.now := by
            rw [← List.append_assoc] at clock
            exact (List.pairwise_append.mp clock).1
          obtain ⟨ps, q, rest, split, found⟩ := ih smaller shorter
          refine ⟨ps, q, rest ++ [p], ?_, found⟩
          rw [← List.append_assoc, split]
          simp

theorem published_now {scrape : Scrape} {p : Published} (published : scrape.published = some p) :
    p.now = scrape.now := by
  unfold Scrape.published at published
  split at published
  · split at published
    · cases published
      rfl
    · cases published
  · cases published

theorem signal_disabled (started : Instant) (scrapes : List Scrape) :
    (run 0 started scrapes).signal = false := by
  induction scrapes using List.reverseRecOn with
  | nil => rfl
  | append_singleton scrapes scrape ih =>
      simp only [run, List.foldl_append, List.foldl_cons, List.foldl_nil] at ih ⊢
      unfold step
      split
      · exact ih
      · exact ih

/-- Whenever the signal rises, it rises on a steady stall. -/
def GapFree (stallTimeout : Duration) (started : Instant) (scrapes : List Scrape) : Prop :=
  ∀ before scrape after, scrapes = before ++ scrape :: after →
    (run stallTimeout started before).signal = false →
      (run stallTimeout started (before ++ [scrape])).signal = true →
        ∃ p, scrape.published = some p ∧
          SteadyStall stallTimeout (before.filterMap Scrape.published) p

/-- For every sequence and timing of scrapes on a clock that does not run back: the
    signal rises on steady stalls only, exactly if no scrape of the sequence inherits a
    gap. -/
theorem gap_free_iff {scrapes : List Scrape} (clock : scrapes.Pairwise fun a b => a.now ≤ b.now)
    (stallTimeout : Duration) (started : Instant) :
    GapFree stallTimeout started scrapes ↔
      ¬ ∃ before scrape after p prior between since counters, scrapes = before ++ scrape :: after ∧
        scrape.published = some p ∧ Inherits stallTimeout started
          (before.filterMap Scrape.published) p prior between since counters := by
  constructor
  · rintro free ⟨before, scrape, after, p, prior, between, since, counters, rfl, published, gap⟩
    have enabled := gap.enabled
    have list : (before ++ [scrape]).filterMap Scrape.published = prior ++ between ++ [p] := by
      rw [List.filterMap_append, gap.split]
      simp [published]
    have sorted : (prior ++ between ++ [p]).Pairwise fun a b => a.now ≤ b.now := by
      rw [← list]
      apply List.Pairwise.filterMap Scrape.published
      · intro a b order p pa q qb
        rw [published_now pa, published_now qb]
        exact order
      · exact clock.sublist (by simp)
    rw [gap.split] at gap
    obtain ⟨ps, q, rest, split, down, up, unsteady⟩ := rises_of_inherits gap sorted
    rw [split, List.filterMap_eq_append_iff] at list
    obtain ⟨first, second, whole, rfl, list⟩ := list
    obtain ⟨skipped, found, last, rfl, unpublished, publishes, -⟩ := List.filterMap_eq_cons_iff.mp list
    have none_ : skipped.filterMap Scrape.published = [] := List.filterMap_eq_nil_iff.mpr unpublished
    obtain ⟨p', same, steady⟩ := free (first ++ skipped) found (last ++ after) (by
        have parts : before ++ scrape :: after = (before ++ [scrape]) ++ after := by simp
        rw [parts, whole]
        simp) (by
        rw [run_eq enabled, List.filterMap_append, none_, List.append_nil]
        exact down) (by
        rw [run_eq enabled]
        simpa [List.filterMap_append, none_, publishes] using up)
    obtain rfl := Option.some.inj (publishes.symm.trans same)
    rw [List.filterMap_append, none_, List.append_nil] at steady
    exact unsteady steady
  · intro never before scrape after split down up
    have enabled : stallTimeout ≠ 0 := by
      rintro rfl
      cases (signal_disabled started (before ++ [scrape])).symm.trans up
    cases published : scrape.published with
    | none =>
        rw [run_eq enabled, List.filterMap_append] at up
        simp only [List.filterMap_cons, published, List.filterMap_nil, List.append_nil] at up
        rw [run_eq enabled] at down
        cases down.symm.trans up
    | some p =>
        rw [run_eq enabled, List.filterMap_append] at up
        simp only [List.filterMap_cons, published, List.filterMap_nil] at up
        rcases rises_cases enabled up with steady | ⟨prior, between, since, counters, gap⟩
        · exact ⟨p, rfl, steady⟩
        · exact absurd ⟨before, scrape, after, p, prior, between, since, counters, split, published, gap⟩
            never

end

def second : Duration := 1000000000

/-- A scrape of a vLLM backend. -/
def sampleScrape (running prompt : ℚ) (seconds : Nat) : Scrape :=
  { result := some
      { snapshot := { BackendSnapshot.default with
          requestsRunning := .fin running, promptTokens := .fin prompt }
        foundUsage := true, foundFree := false, foundLlamacpp := false }
    now := seconds * second }

/-- Busy throughout, without progress since the first scrape. -/
def steadyScrapes : List Scrape := [sampleScrape 1 5 1, sampleScrape 1 5 20, sampleScrape 1 5 41]

theorem steadyScrapes_busy : ∀ scrape ∈ steadyScrapes, ∀ p, scrape.published = some p →
    p.isBusy = true ∧ p.counters.unchanged .zero = false := by
  intro scrape member p published
  have one : ∀ seconds, (sampleScrape 1 5 seconds).published = some p →
      p.isBusy = true ∧ p.counters.unchanged .zero = false := by
    intro seconds published
    cases published
    exact ⟨rfl, rfl⟩
  simp only [steadyScrapes, List.mem_cons, List.not_mem_nil, or_false] at member
  rcases member with rfl | rfl | rfl <;> exact one _ published

theorem gap_free_iff_steady : GapFree (30 * second) 0 steadyScrapes := by
  apply (gap_free_iff (by decide +kernel) (30 * second) 0).mpr
  rintro ⟨before, scrape, after, p, prior, between, since, counters, split, published, gap⟩
  have here : scrape ∈ steadyScrapes := by simp [split]
  cases gap.opening with
  | start =>
      have moved := (steadyScrapes_busy scrape here p published).2
      cases moved.symm.trans (gap.quiet p (by simp)).2
  | @idle earlier r idle =>
      have member : r ∈ before.filterMap Scrape.published := by simp [gap.split]
      obtain ⟨other, before_, published'⟩ := List.mem_filterMap.mp member
      have busy := (steadyScrapes_busy other (by simp [split, before_]) r published').1
      cases idle.symm.trans busy

/-- Idle, then unreachable, and busy when it is back. -/
def gapScrapes : List Scrape := [sampleScrape 0 0 1, ⟨none, 20 * second⟩, sampleScrape 1 0 41]

/-- The first busy scrape after the gap raises the signal. -/
theorem gap_inherited :
    ¬ GapFree (30 * second) 0 gapScrapes ∧ gapScrapes.Pairwise fun a b => a.now ≤ b.now := by
  refine ⟨?_, by decide +kernel⟩
  intro free
  obtain ⟨p, -, earlier, m, between, split, -, quiet⟩ :=
    free [sampleScrape 0 0 1, ⟨none, 20 * second⟩] (sampleScrape 1 0 41) [] rfl (by decide +kernel)
      (by decide +kernel)
  have only : m ∈ [sampleScrape 0 0 1, ⟨none, 20 * second⟩].filterMap Scrape.published := by
    simp [split]
  obtain ⟨scrape, member, published⟩ := List.mem_filterMap.mp only
  have busy := (quiet m (by simp)).1
  simp only [List.mem_cons, List.not_mem_nil, or_false] at member
  rcases member with rfl | rfl
  · cases published
    cases busy
  · cases published

end TinyLlb
