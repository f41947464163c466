import TinyLlb.Runtime.ReaperSteps

/-! # What a pass of the reaper removes

Whatever the handlers do meanwhile, a pass spares a flow that was seen within the time to
live, and leaves no slot without an entry. Of the flows that nobody touches it removes
those that are idle and overdue, provided that its scan comes across them, and no others.
-/

namespace TinyLlb

open FlowTable

namespace Reaper

/-- What the reaper has read of `f` so far is still so. -/
def Read (t : FlowTable) (f : FlowId) (x : Nat) : Reaper → Prop
  | depthRead _ _ g _ => g = f → t.depth x = 0
  | activeRead _ _ g _ => g = f → t.depth x = 0 ∧ t.active x = 0
  | _ => True

theorem Moves.read {clock : Nat} {t t' : FlowTable} {slots slots' : SlotAllocator}
    {reaper reaper' : Reaper} {action : ReapAction} {f : FlowId} {x : Nat}
    (moves : Moves clock t slots reaper action reaper' t' slots')
    (entry : t.entries.lookup f = some x) (examined : ∀ e ∈ reaper.examined, e.1 = f → e.2 = x)
    (read : reaper.Read t f x) : reaper'.Read t f x := by
  cases moves with
  | noDepth found zero =>
      rintro rfl
      obtain rfl := Option.some.inj (found.symm.trans entry)
      exact zero
  | @inactive cutoff toRemove g handle zero =>
      intro same
      obtain rfl : handle = x := examined (g, handle) rfl same
      exact ⟨read same, zero⟩
  | _ => trivial

/-- Before the scan comes to `f`, which is idle and overdue. -/
def Ahead (t : FlowTable) (f : FlowId) (x cutoff : Nat) (reaper : Reaper) : Prop :=
  ∀ c ∈ reaper.cutoff, c = cutoff ∧ t.entries.lookup f = some x ∧ t.Stale cutoff x

/-- After the scan has come to it. -/
def Doomed (t : FlowTable) (f : FlowId) (x cutoff : Nat) : Reaper → Prop
  | scanning c toRemove =>
      c = cutoff ∧ t.entries.lookup f = some x ∧ t.Stale cutoff x ∧ f ∈ toRemove
  | depthRead c toRemove g handle | activeRead c toRemove g handle =>
      c = cutoff ∧ t.entries.lookup f = some x ∧ t.Stale cutoff x ∧
        (f ∈ toRemove ∨ g = f ∧ handle = x)
  | removing toRemove | releasing _ toRemove => f ∈ toRemove ∨ f ∉ t.entries
  | sweeping _ _ | idle => f ∉ t.entries

theorem Moves.scan {clock : Nat} {t t' : FlowTable} {slots slots' : SlotAllocator}
    {reaper reaper' : Reaper} {action : ReapAction}
    (moves : Moves clock t slots reaper action reaper' t' slots') {c : Nat}
    (scans : c ∈ reaper'.cutoff) : t' = t := by
  cases moves with
  | removeEntry => cases scans
  | _ => rfl

theorem Moves.doom {clock : Nat} {t t' : FlowTable} {slots slots' : SlotAllocator}
    {reaper reaper' : Reaper} {f : FlowId} {x cutoff : Nat}
    (moves : Moves clock t slots reaper (.readDepth f) reaper' t' slots')
    (ahead : reaper.Ahead t f x cutoff) : reaper'.Doomed t' f x cutoff := by
  cases moves with
  | noDepth found zero =>
      obtain ⟨rfl, entry, stale⟩ := ahead _ rfl
      exact ⟨rfl, entry, stale, .inr ⟨rfl, Option.some.inj (found.symm.trans entry)⟩⟩
  | depth found positive =>
      obtain ⟨rfl, entry, stale⟩ := ahead _ rfl
      obtain rfl := Option.some.inj (found.symm.trans entry)
      exact absurd stale.1 positive

theorem Moves.doomed {clock : Nat} {t t' : FlowTable} {slots slots' : SlotAllocator}
    {reaper reaper' : Reaper} {action : ReapAction} {f : FlowId} {x cutoff : Nat}
    (moves : Moves clock t slots reaper action reaper' t' slots') (busy : reaper.isIdle = false)
    (doomed : reaper.Doomed t f x cutoff) : reaper'.Doomed t' f x cutoff := by
  cases moves with
  | reap => cases busy
  | noDepth =>
      obtain ⟨rfl, entry, stale, member⟩ := doomed
      exact ⟨rfl, entry, stale, .inl member⟩
  | depth | inactive | releaseSlot | registered | orphan | dropOrphans => exact doomed
  | active positive =>
      obtain ⟨rfl, entry, stale, member | ⟨rfl, rfl⟩⟩ := doomed
      · exact ⟨rfl, entry, stale, member⟩
      · exact absurd stale.2.1 positive
  | overdue =>
      obtain ⟨rfl, entry, stale, member | ⟨rfl, rfl⟩⟩ := doomed
      · exact ⟨rfl, entry, stale, List.mem_append_left _ member⟩
      · exact ⟨rfl, entry, stale, List.mem_append_right _ (List.mem_singleton_self _)⟩
  | seen late =>
      obtain ⟨rfl, entry, stale, member | ⟨rfl, rfl⟩⟩ := doomed
      · exact ⟨rfl, entry, stale, member⟩
      · exact absurd stale.2.2 late
  | collected => exact .inl doomed.2.2.2
  | @removeEntry g rest =>
      have gone : ∀ e, (t.remove g).entries.lookup e = if e = g then none else t.entries.lookup e :=
        Assoc.lookup_erase t.entries g
      by_cases same : f = g
      · refine .inr (Assoc.notMem_iff_lookup.mpr ?_)
        rw [gone, if_pos same]
      · rcases doomed with member | absent
        · exact .inl ((List.mem_cons.mp member).resolve_left same)
        · refine .inr (Assoc.notMem_iff_lookup.mpr ?_)
          rw [gone, if_neg same]
          exact Assoc.notMem_iff_lookup.mp absent
  | lockSlots =>
      rcases doomed with member | absent
      · cases member
      · exact absent

end Reaper

namespace ReapSystem

variable {s t : ReapSystem} {action : ReapAction} {event : Option Empty}

/-- During a sweep every slot is one of a flow that is still to be looked at, that was
    found missing, or that has an entry. -/
def Swept (s : ReapSystem) : Prop :=
  ∀ unchecked orphans, s.reaper = .sweeping unchecked orphans → ∀ f slot,
    s.slots.assignments.lookup f = some slot → f ∈ unchecked ∨ f ∈ orphans ∨ f ∈ s.table.entries

theorem Swept.step (swept : s.Swept) (step : s.Step action t) :
    t.Swept ∧ (t.reaper.isIdle = true → s.reaper.isIdle = false → ∀ f slot,
      t.slots.assignments.lookup f = some slot → f ∈ t.table.entries) := by
  rcases step with outside | ⟨-, -, moves⟩
  · refine ⟨?_, fun idle busy => ?_⟩
    · intro unchecked orphans pc f slot found
      rw [outside.reaper] at pc
      have same : t.slots = s.slots := by
        rcases outside.slots with same | ⟨-, -, -, -, -, -, unlocked, -⟩
        · exact same
        · simp [pc, Reaper.sweeps] at unlocked
      rw [same] at found
      rcases swept unchecked orphans pc f slot found with left | missing | there
      · exact .inl left
      · exact .inr (.inl missing)
      · obtain ⟨x, entry⟩ := Assoc.mem_iff_lookup.mp there
        exact .inr (.inr (Assoc.mem_iff_lookup.mpr ⟨x, outside.kept f x entry⟩))
    · rw [outside.reaper, busy] at idle
      cases idle
  · obtain ⟨clock, table, slots, handlers, reaper⟩ := s
    obtain ⟨clock', table', slots', handlers', reaper'⟩ := t
    dsimp only at moves
    cases moves with
    | lockSlots =>
        refine ⟨?_, nofun⟩
        rintro unchecked orphans pc f slot found
        obtain ⟨rfl, rfl⟩ := Reaper.sweeping.inj pc
        exact .inl (Assoc.mem_iff_lookup.mpr ⟨slot, found⟩)
    | @registered g rest missing there =>
        refine ⟨?_, nofun⟩
        rintro unchecked orphans pc f slot found
        obtain ⟨rfl, rfl⟩ := Reaper.sweeping.inj pc
        rcases swept (g :: rest) missing rfl f slot found with left | old
        · rcases List.mem_cons.mp left with rfl | later
          · exact .inr (.inr there)
          · exact .inl later
        · exact .inr old
    | @orphan g rest missing absent =>
        refine ⟨?_, nofun⟩
        rintro unchecked orphans pc f slot found
        obtain ⟨rfl, rfl⟩ := Reaper.sweeping.inj pc
        rcases swept (g :: rest) missing rfl f slot found with left | known | there
        · rcases List.mem_cons.mp left with rfl | later
          · exact .inr (.inl (List.mem_append_right _ (List.mem_singleton_self _)))
          · exact .inl later
        · exact .inr (.inl (List.mem_append_left _ known))
        · exact .inr (.inr there)
    | @dropOrphans missing =>
        refine ⟨nofun, fun _ _ f slot found => ?_⟩
        have kept : f ∉ missing := by
          intro gone
          have none_ : (slots.sweepMissing fun f => decide (f ∉ missing)).2.assignments.lookup f =
              none := slots.lookup_sweepMissing_missing (by simpa using gone)
          cases none_.symm.trans found
        rcases swept [] missing rfl f slot (SlotAllocator.lookup_of_sweepMissing found) with
          left | gone | there
        · cases left
        · exact absurd gone kept
        · exact there
    | _ => exact ⟨nofun, nofun⟩

/-- The reaper has not decided to drop `f`, and what it reads of `f` is the object `x`. -/
structure Stays (s : ReapSystem) (f : FlowId) (x : Nat) : Prop where
  entry : s.table.entries.lookup f = some x
  uncondemned : f ∉ s.reaper.condemned
  examined : ∀ e ∈ s.reaper.examined, e.1 = f → e.2 = x

variable {f : FlowId} {x cutoff : Nat}

/-- The last reading is what decides. -/
theorem Stays.step (stays : s.Stays f x) (step : s.Step action t)
    (spared : ∀ cutoff toRemove, s.reaper = .activeRead cutoff toRemove f x →
      ¬ s.table.lastSeen x < cutoff) : t.Stays f x := by
  rcases step with outside | ⟨-, -, moves⟩
  · constructor
    · exact outside.kept f x stays.entry
    · rw [outside.reaper]
      exact stays.uncondemned
    · rw [outside.reaper]
      exact stays.examined
  · obtain ⟨clock, table, slots, handlers, reaper⟩ := s
    obtain ⟨clock', table', slots', handlers', reaper'⟩ := t
    obtain ⟨entry, uncondemned, examined⟩ := stays
    dsimp only at moves entry uncondemned examined
    cases moves with
    | reap => exact ⟨entry, List.not_mem_nil, nofun⟩
    | @noDepth cutoff toRemove g handle found =>
        refine ⟨entry, uncondemned, ?_⟩
        rintro e is rfl
        obtain rfl := Option.some.inj is
        exact Option.some.inj (found.symm.trans entry)
    | depth | active | seen => exact ⟨entry, uncondemned, nofun⟩
    | inactive => exact ⟨entry, uncondemned, examined⟩
    | @overdue cutoff toRemove g handle overdue =>
        refine ⟨entry, fun member => ?_, nofun⟩
        rcases List.mem_append.mp member with before | last
        · exact uncondemned before
        · obtain rfl := List.mem_singleton.mp last
          obtain rfl : handle = x := examined (f, handle) rfl rfl
          exact spared cutoff toRemove rfl overdue
    | collected => exact ⟨entry, uncondemned, nofun⟩
    | @removeEntry g rest =>
        have other : f ≠ g := by
          rintro rfl
          exact uncondemned List.mem_cons_self
        refine ⟨?_, uncondemned, nofun⟩
        exact (Assoc.lookup_erase _ _ _).trans ((if_neg other).trans entry)
    | releaseSlot => exact ⟨entry, fun member => uncondemned (List.mem_cons_of_mem _ member), nofun⟩
    | lockSlots => exact ⟨entry, List.not_mem_nil, nofun⟩
    | registered => exact ⟨entry, uncondemned, nofun⟩
    | @orphan g rest orphans absent =>
        refine ⟨entry, fun member => ?_, nofun⟩
        rcases List.mem_append.mp member with before | last
        · exact uncondemned before
        · obtain rfl := List.mem_singleton.mp last
          exact absent (Assoc.mem_iff_lookup.mpr ⟨x, entry⟩)
    | dropOrphans => exact ⟨entry, List.not_mem_nil, nofun⟩

theorem Stays.slot (stays : s.Stays f x) (step : s.Step action t) {slot : UInt32}
    (own : ∀ i slotCount, action = .assignSlot i slotCount → s.flowOf i = some f → slot < slotCount)
    (found : s.slots.assignments.lookup f = some slot) :
    t.slots.assignments.lookup f = some slot := by
  rcases step with outside | ⟨-, -, moves⟩
  · rcases outside.slots with same | ⟨i, slotCount, g, rfl, who, -, -, assigned⟩
    · rw [same]
      exact found
    · rw [assigned, SlotAllocator.lookup_assign]
      split
      · subst g
        rw [SlotAllocator.assign_of_lt found (own i slotCount rfl who)]
      · exact found
  · obtain ⟨clock, table, slots, handlers, reaper⟩ := s
    obtain ⟨clock', table', slots', handlers', reaper'⟩ := t
    have uncondemned := stays.uncondemned
    dsimp only at moves uncondemned found ⊢
    cases moves with
    | releaseSlot =>
        rw [SlotAllocator.lookup_release, if_neg]
        · exact found
        · rintro rfl
          exact uncondemned List.mem_cons_self
    | @dropOrphans orphans =>
        rw [SlotAllocator.lookup_sweepMissing]
        · exact found
        · exact decide_eq_true uncondemned
    | _ => exact found

theorem Step.cutoff_kept (step : s.Step action t) (busy : s.reaper.isIdle = false) :
    ∀ c ∈ t.reaper.cutoff, c ∈ s.reaper.cutoff := by
  rcases step with outside | ⟨-, -, moves⟩
  · rw [outside.reaper]
    exact fun _ => id
  · obtain ⟨clock, table, slots, handlers, reaper⟩ := s
    obtain ⟨clock', table', slots', handlers', reaper'⟩ := t
    dsimp only at moves busy ⊢
    cases moves with
    | reap => cases busy
    | _ => first | exact fun _ => id | exact nofun

/-- A flow that was seen at the cutoff or after it. -/
structure Recent (s : ReapSystem) (f : FlowId) (x cutoff : Nat) : Prop where
  stays : s.Stays f x
  seen : cutoff ≤ s.table.lastSeen x
  clock : cutoff ≤ s.clock
  cutoff : ∀ c ∈ s.reaper.cutoff, c = cutoff

theorem Recent.step (recent : s.Recent f x cutoff) (step : s.Step action t)
    (busy : s.reaper.isIdle = false) : t.Recent f x cutoff where
  stays := by
    refine recent.stays.step step fun c toRemove pc => ?_
    obtain rfl := recent.cutoff c (by simp [pc, Reaper.cutoff])
    exact recent.seen.not_gt
  seen := by
    rcases step with outside | ⟨-, -, moves⟩
    · rcases outside.seen f x recent.stays.entry with same | now
      · exact same ▸ recent.seen
      · exact now ▸ recent.clock
    · have cells : t.table.cells[x]? = s.table.cells[x]? := by rw [moves.table.1]
      exact (readings_eq cells).2.2 ▸ recent.seen
  clock := by
    rcases step with outside | ⟨clock, -⟩
    · exact recent.clock.trans outside.clock
    · exact clock ▸ recent.clock
  cutoff := fun c member => recent.cutoff c (step.cutoff_kept busy c member)

theorem Step.cells (step : s.Step action t) (untouched : ¬ s.About f action)
    (entry : s.table.entries.lookup f = some x) : t.table.cells[x]? = s.table.cells[x]? := by
  rcases step with outside | ⟨-, -, moves⟩
  · exact (outside.others f untouched).2 x entry
  · rw [moves.table.1]

/-- An untouched flow that counts as busy or was seen at the cutoff or after it. -/
structure Intact (s : ReapSystem) (f : FlowId) (x cutoff : Nat) (cell : Option FlowCell) : Prop where
  stays : s.Stays f x
  cell : s.table.cells[x]? = cell
  busy : ¬ s.table.Stale cutoff x
  cutoff : ∀ c ∈ s.reaper.cutoff, c = cutoff
  read : s.reaper.Read s.table f x

theorem Intact.step {cell : Option FlowCell} (intact : s.Intact f x cutoff cell)
    (step : s.Step action t) (busy : s.reaper.isIdle = false) (untouched : ¬ s.About f action) :
    t.Intact f x cutoff cell := by
  have cells := step.cells untouched intact.stays.entry
  obtain ⟨depth, active, lastSeen⟩ := readings_eq cells
  refine ⟨intact.stays.step step ?_, cells.trans intact.cell, ?_,
    fun c member => intact.cutoff c (step.cutoff_kept busy c member), ?_⟩
  · intro c toRemove pc overdue
    obtain rfl := intact.cutoff c (by simp [pc, Reaper.cutoff])
    have read := intact.read
    rw [pc] at read
    obtain ⟨noDepth, inactive⟩ := read rfl
    exact intact.busy ⟨noDepth, inactive, overdue⟩
  · rw [Stale, depth, active, lastSeen]
    exact intact.busy
  · have read : t.reaper.Read s.table f x := by
      rcases step with outside | ⟨-, -, moves⟩
      · rw [outside.reaper]
        exact intact.read
      · exact moves.read intact.stays.entry intact.stays.examined intact.read
    revert read
    cases t.reaper <;> simp only [Reaper.Read, depth, active, imp_self]

theorem Step.ahead (step : s.Step action t) (busy : s.reaper.isIdle = false)
    (untouched : ¬ s.About f action) (ahead : s.reaper.Ahead s.table f x cutoff) :
    t.reaper.Ahead t.table f x cutoff := by
  intro c scans
  obtain ⟨rfl, entry, stale⟩ := ahead c (step.cutoff_kept busy c scans)
  obtain ⟨depth, active, lastSeen⟩ := readings_eq (step.cells untouched entry)
  refine ⟨rfl, ?_, ?_⟩
  · rcases step with outside | ⟨-, -, moves⟩
    · exact outside.kept f x entry
    · exact moves.scan scans ▸ entry
  · rw [Stale, depth, active, lastSeen]
    exact stale

theorem Step.doomed (step : s.Step action t) (busy : s.reaper.isIdle = false)
    (untouched : ¬ s.About f action) (doomed : s.reaper.Doomed s.table f x cutoff) :
    t.reaper.Doomed t.table f x cutoff := by
  rcases step with outside | ⟨-, -, moves⟩
  · obtain ⟨same, cells⟩ := outside.others f untouched
    have entries : f ∈ t.table.entries ↔ f ∈ s.table.entries := by
      rw [Assoc.mem_iff_lookup, Assoc.mem_iff_lookup, same]
    have stale : s.table.entries.lookup f = some x → s.table.Stale cutoff x →
        t.table.Stale cutoff x := by
      intro entry stale
      obtain ⟨depth, active, lastSeen⟩ := readings_eq (cells x entry)
      rw [Stale, depth, active, lastSeen]
      exact stale
    rw [outside.reaper]
    revert doomed
    cases s.reaper with
    | scanning | depthRead | activeRead =>
        rintro ⟨first, entry, old, rest⟩
        exact ⟨first, same.trans entry, stale entry old, rest⟩
    | removing | releasing => exact Or.imp_right (mt entries.mp)
    | sweeping | idle => exact mt entries.mp
  · exact moves.doomed busy doomed

end ReapSystem

/-- The steps from a `reap_idle` to its return. -/
structure ReapPass (defaultWeight : F64) (defaultPriority ttl : Nat) (s : ReapSystem)
    (ts : List (Transition ReapSystem ReapAction Empty)) (t : ReapSystem) : Prop where
  run : (reaping defaultWeight defaultPriority).Exec s ts t
  begins : ∃ tr rest, ts = tr :: rest ∧ tr.action = .reap ttl ∧
    ∀ later ∈ rest, later.pre.reaper.isIdle = false
  ends : t.reaper.isIdle = true

/-- Nothing is done about the flow. -/
def Untouched (f : FlowId) (ts : List (Transition ReapSystem ReapAction Empty)) : Prop :=
  ∀ tr ∈ ts, ¬ tr.pre.About f tr.action

instance (f : FlowId) (ts : List (Transition ReapSystem ReapAction Empty)) :
    Decidable (Untouched f ts) := inferInstanceAs (Decidable (∀ tr ∈ ts, _))

/-- The flow's own requests find its slot in range. -/
def InRange (f : FlowId) (slot : UInt32) (ts : List (Transition ReapSystem ReapAction Empty)) : Prop :=
  ∀ tr ∈ ts, ∀ i slotCount, tr.action = .assignSlot i slotCount → tr.pre.flowOf i = some f →
    slot < slotCount

/-- The flow keeps its entry, with the same object, and its slot. -/
structure Survives (s : ReapSystem) (ts : List (Transition ReapSystem ReapAction Empty))
    (t : ReapSystem) (f : FlowId) (x : Nat) : Prop where
  entry : t.table.entries.lookup f = some x
  slot : ∀ slot, s.slots.assignments.lookup f = some slot → InRange f slot ts →
    t.slots.assignments.lookup f = some slot

section

variable {defaultWeight : F64} {defaultPriority ttl : Nat} {s t u : ReapSystem}
  {ts : List (Transition ReapSystem ReapAction Empty)} {event : Option Empty}

theorem nextReap_reap (moved : nextReap s (.reap ttl) = some (t, event)) :
    s.reaper = .idle ∧ t = { s with reaper := .scanning (s.clock - ttl) [] } := by
  obtain ⟨⟨reaper, table, slots⟩, stepped, same⟩ := Option.map_eq_some_iff.mp moved
  simp only [Prod.mk.injEq] at same
  obtain ⟨rfl, -⟩ := same
  have moves := Reaper.moves_of_next stepped
  generalize s.reaper = before at moves
  cases moves with
  | reap => exact ⟨rfl, rfl⟩

theorem nextReap_readDepth {f : FlowId} (moved : nextReap s (.readDepth f) = some (t, event)) :
    Reaper.Moves s.clock s.table s.slots s.reaper (.readDepth f) t.reaper t.table t.slots := by
  obtain ⟨⟨reaper, table, slots⟩, stepped, same⟩ := Option.map_eq_some_iff.mp moved
  simp only [Prod.mk.injEq] at same
  obtain ⟨rfl, -⟩ := same
  exact Reaper.moves_of_next stepped

/-- What every step keeps that meets a condition. -/
theorem ReapSystem.Owned.run {I : ReapSystem → Prop}
    {C : Transition ReapSystem ReapAction Empty → Prop}
    (run : (reaping defaultWeight defaultPriority).Exec s ts t) (owned : s.Owned)
    (onTime : ∀ tr ∈ ts, tr.pre.OnTime tr.action) (within : ∀ tr ∈ ts, C tr) (initial : I s)
    (keeps : ∀ {v a e w}, I v → C ⟨v, a, e, w⟩ → v.Step a w → I w) : t.Owned ∧ I t := by
  refine run.invariant_within (I := fun v => v.Owned ∧ I v)
    (C := fun tr => tr.pre.OnTime tr.action ∧ C tr)
    (fun tr member => ⟨onTime tr member, within tr member⟩) ⟨owned, initial⟩ ?_
  rintro v a w e ⟨owned, held⟩ ⟨onTime, met⟩ moved
  obtain ⟨owned', step⟩ := owned.step moved
  exact ⟨owned', keeps held met (step onTime)⟩

theorem ReapSystem.Owned.of_run (run : (reaping defaultWeight defaultPriority).Exec
    (reaping defaultWeight defaultPriority).start ts t) : t.Owned :=
  run.invariant (.start defaultWeight defaultPriority) fun owned moved => (owned.step moved).1

/-- A pass after its first step. -/
structure Rest (defaultWeight : F64) (defaultPriority : Nat) (s : ReapSystem)
    (rest : List (Transition ReapSystem ReapAction Empty)) (t : ReapSystem) : Prop where
  run : (reaping defaultWeight defaultPriority).Exec s rest t
  owned : s.Owned
  onTime : ∀ tr ∈ rest, tr.pre.OnTime tr.action
  busy : ∀ tr ∈ rest, tr.pre.reaper.isIdle = false

theorem ReapPass.rest (pass : ReapPass defaultWeight defaultPriority ttl s ts t) (owned : s.Owned)
    (onTime : ∀ tr ∈ ts, tr.pre.OnTime tr.action) :
    ∃ tr rest, ts = tr :: rest ∧ tr.action = .reap ttl ∧
      Rest defaultWeight defaultPriority { s with reaper := .scanning (s.clock - ttl) [] } rest t := by
  obtain ⟨tr, rest, rfl, action, busy⟩ := pass.begins
  obtain ⟨first, step, second⟩ : (reaping defaultWeight defaultPriority).Exec s [] tr.pre ∧ _ ∧
    (reaping defaultWeight defaultPriority).Exec tr.post rest t := pass.run.split_at
  rw [first.of_nil, action] at step
  obtain ⟨-, post⟩ := nextReap_reap step
  rw [post] at second
  refine ⟨tr, rest, rfl, action, second, ?_,
    fun tr member => onTime tr (List.mem_cons_of_mem _ member), busy⟩
  exact owned.congr rfl (fun _ => .inl) fun _ _ found => found

theorem Rest.survives {f : FlowId} {x : Nat} (rest : Rest defaultWeight defaultPriority s ts t)
    {I : ReapSystem → Prop} {C : Transition ReapSystem ReapAction Empty → Prop}
    (within : ∀ tr ∈ ts, C tr) (initial : I s) (stays : ∀ {v}, I v → v.Stays f x)
    (keeps : ∀ {v a e w}, I v → v.reaper.isIdle = false → C ⟨v, a, e, w⟩ → v.Step a w → I w) :
    Survives s ts t f x ∧ I t := by
  have held : I t := (rest.owned.run rest.run rest.onTime
    (C := fun tr => tr.pre.reaper.isIdle = false ∧ C tr)
    (fun tr member => ⟨rest.busy tr member, within tr member⟩) initial
    fun held met step => keeps held met.1 met.2 step).2
  refine ⟨⟨(stays held).entry, fun slot found inRange => ?_⟩, held⟩
  refine (rest.owned.run rest.run rest.onTime
    (I := fun v => I v ∧ v.slots.assignments.lookup f = some slot)
    (C := fun tr => (tr.pre.reaper.isIdle = false ∧ C tr) ∧ ∀ i slotCount,
      tr.action = .assignSlot i slotCount → tr.pre.flowOf i = some f → slot < slotCount)
    (fun tr member => ⟨⟨rest.busy tr member, within tr member⟩, inRange tr member⟩)
    ⟨initial, found⟩ ?_).2.2
  rintro v a e w ⟨held, found⟩ ⟨⟨busy, met⟩, own⟩ step
  exact ⟨keeps held busy met step, (stays held).slot step own found⟩

theorem Rest.swept (rest : Rest defaultWeight defaultPriority s ts t) (swept : s.Swept)
    (begun : s.reaper.isIdle = false) (ends : t.reaper.isIdle = true) {f : FlowId} {slot : UInt32}
    (found : t.slots.assignments.lookup f = some slot) : f ∈ t.table.entries := by
  refine ((rest.owned.run rest.run rest.onTime
    (I := fun v => v.Swept ∧ (v.reaper.isIdle = true → ∀ f slot,
      v.slots.assignments.lookup f = some slot → f ∈ v.table.entries))
    rest.busy ⟨swept, ?_⟩ ?_).2).2 ends f slot found
  · intro idle
    rw [begun] at idle
    cases idle
  · intro v a e w held busy step
    obtain ⟨swept, clean⟩ := held.1.step step
    exact ⟨swept, fun idle => clean idle busy⟩

theorem Rest.removed {f : FlowId} {x cutoff : Nat} (rest : Rest defaultWeight defaultPriority s ts t)
    (untouched : Untouched f ts) (ahead : s.reaper.Ahead s.table f x cutoff)
    (ends : t.reaper.isIdle = true) (read : ∃ tr ∈ ts, tr.action = .readDepth f) :
    f ∉ t.table.entries := by
  obtain ⟨tr, member, action⟩ := read
  have within : ∀ tr ∈ ts, tr.pre.reaper.isIdle = false ∧ ¬ tr.pre.About f tr.action :=
    fun tr member => ⟨rest.busy tr member, untouched tr member⟩
  have moved := rest.run.step_of_mem member
  obtain ⟨before, after, rfl, first, second⟩ := rest.run.split_of_mem member
  obtain ⟨owned, still⟩ := rest.owned.run first
    (fun tr inside => rest.onTime tr (List.mem_append_left _ inside))
    (fun tr inside => within tr (List.mem_append_left _ inside)) ahead
    fun held met step => step.ahead met.1 met.2 held
  have owned' := (owned.step moved).1
  rw [action] at moved
  have doomed := (nextReap_readDepth moved).doom still
  have last := (owned'.run second
    (fun tr inside => rest.onTime tr (List.mem_append_right _ (List.mem_cons_of_mem _ inside)))
    (fun tr inside => within tr (List.mem_append_right _ (List.mem_cons_of_mem _ inside))) doomed
    fun held met step => step.doomed met.1 met.2 held).2
  revert last ends
  cases t.reaper with
  | idle => exact fun _ => id
  | _ => exact nofun

end

/-- In every run, whatever the handlers and the API do during a pass of the reaper, short of
    a late insert: every slot that is left is one of a flow with an entry; a flow that was
    seen within the time to live before the pass survives it; and of the flows that nobody
    touches meanwhile, those whose depth or active count is not zero survive as well, and the
    others are gone, with their slots, if the scan comes to them. -/
theorem reaper_passes {defaultWeight : F64} {defaultPriority ttl : Nat}
    {before ts : List (Transition ReapSystem ReapAction Empty)} {s t : ReapSystem}
    (run : (reaping defaultWeight defaultPriority).Exec
      (reaping defaultWeight defaultPriority).start before s)
    (pass : ReapPass defaultWeight defaultPriority ttl s ts t)
    (onTime : ∀ tr ∈ ts, tr.pre.OnTime tr.action) :
    (∀ f slot, t.slots.assignments.lookup f = some slot → f ∈ t.table.entries) ∧
      ∀ f x, s.table.entries.lookup f = some x →
        (s.clock - ttl ≤ s.table.lastSeen x → Survives s ts t f x) ∧
        (Untouched f ts → ¬ s.table.Stale (s.clock - ttl) x →
          Survives s ts t f x ∧ t.table.cells[x]? = s.table.cells[x]?) ∧
        (Untouched f ts → s.table.Stale (s.clock - ttl) x → (∃ tr ∈ ts, tr.action = .readDepth f) →
          f ∉ t.table.entries ∧ t.slots.assignments.lookup f = none) := by
  obtain ⟨tr, later, rfl, action, rest⟩ := pass.rest (.of_run run) onTime
  have clean : ∀ f slot, t.slots.assignments.lookup f = some slot → f ∈ t.table.entries :=
    fun f slot => rest.swept nofun rfl pass.ends
  refine ⟨clean, fun f x entry => ?_⟩
  have within : Untouched f (tr :: later) → ∀ tr ∈ later, ¬ tr.pre.About f tr.action :=
    fun untouched tr member => untouched tr (List.mem_cons_of_mem _ member)
  have survives : Survives { s with reaper := .scanning (s.clock - ttl) [] } later t f x →
      Survives s (tr :: later) t f x := fun later =>
    ⟨later.entry, fun slot found inRange => later.slot slot found fun tr member =>
      inRange tr (List.mem_cons_of_mem _ member)⟩
  have stays : ReapSystem.Stays { s with reaper := .scanning (s.clock - ttl) [] } f x :=
    ⟨entry, List.not_mem_nil, nofun⟩
  have cutoff : ∀ c ∈ (Reaper.scanning (s.clock - ttl) []).cutoff, c = s.clock - ttl :=
    fun c is => (Option.some.inj is).symm
  refine ⟨?_, ?_, ?_⟩
  · intro seen
    refine survives (rest.survives (C := fun _ => True) (fun _ _ => trivial)
      (I := fun v => v.Recent f x (s.clock - ttl)) ⟨stays, seen, Nat.sub_le _ _, cutoff⟩
      (fun recent => recent.stays) fun recent busy _ step => recent.step step busy).1
  · intro untouched busy
    obtain ⟨whole, last⟩ := rest.survives (C := fun tr => ¬ tr.pre.About f tr.action)
      (within untouched) (I := fun v => v.Intact f x (s.clock - ttl) s.table.cells[x]?)
      ⟨stays, rfl, busy, cutoff, trivial⟩ (fun intact => intact.stays)
      fun intact busy other step => intact.step step busy other
    exact ⟨survives whole, last.cell⟩
  · rintro untouched stale ⟨reading, member, is⟩
    have inside : reading ∈ later := by
      refine (List.mem_cons.mp member).resolve_left ?_
      rintro rfl
      cases action.symm.trans is
    have gone := rest.removed (within untouched) (fun c is => ⟨cutoff c is, entry, stale⟩) pass.ends
      ⟨reading, inside, is⟩
    refine ⟨gone, ?_⟩
    cases found : t.slots.assignments.lookup f with
    | none => rfl
    | some slot => exact absurd (clean f slot found) gone

deriving instance DecidableEq for HandlerStep, ReapAction

/-- A request of one flow is served, and much later another flow is seen. -/
def quietRun : List ReapAction :=
  [.receive ⟨"a"⟩, .assignSlot 0 8, .handle 0 (.override none), .handle 0 (.enterGates none),
    .handle 0 .passGates, .handle 0 .createGuard, .handle 0 .select, .handle 0 .consume,
    .handle 0 .incActive, .handle 0 .dropTicket, .tick 601, .access ⟨"b"⟩]

def quietPass : List ReapAction :=
  [.reap 600, .readDepth ⟨"b"⟩, .readActive, .readLastSeen, .readDepth ⟨"a"⟩, .readActive,
    .readLastSeen, .collected, .removeEntry, .receive ⟨"b"⟩, .releaseSlot, .lockSlots, .dropOrphans]

theorem reaper_passes_quiet :
    let s := (reaping (.fin 1) 50).after quietRun
    let t := (reaping (.fin 1) 50).afterFrom s quietPass
    (s.slots.assignments.lookup ⟨"a"⟩).isSome ∧ ⟨"a"⟩ ∉ t.table.entries ∧
      t.slots.assignments.lookup ⟨"a"⟩ = none ∧
      Survives s ((reaping (.fin 1) 50).traceFrom s quietPass) t ⟨"b"⟩ 1 := by
  have pass : ReapPass (.fin 1) 50 600 ((reaping (.fin 1) 50).after quietRun)
      ((reaping (.fin 1) 50).traceFrom ((reaping (.fin 1) 50).after quietRun) quietPass)
      ((reaping (.fin 1) 50).afterFrom ((reaping (.fin 1) 50).after quietRun) quietPass) :=
    { run := Machine.exec_afterFrom _ _ _
      begins := ⟨_, ((reaping (.fin 1) 50).traceFrom ((reaping (.fin 1) 50).after quietRun)
        quietPass).tail, (List.cons_head_tail (by decide +kernel)).symm, by decide +kernel,
        by decide +kernel⟩
      ends := by decide +kernel }
  obtain ⟨-, flows⟩ := reaper_passes (Machine.exec_after _ quietRun) pass (by decide +kernel)
  obtain ⟨-, -, gone⟩ := flows ⟨"a"⟩ 0 (by decide +kernel)
  obtain ⟨absent, free⟩ := gone (by decide +kernel) (by decide +kernel) (by decide +kernel)
  exact ⟨by decide +kernel, absent, free, (flows ⟨"b"⟩ 1 (by decide +kernel)).1 (by decide +kernel)⟩

end TinyLlb
