import TinyLlb.Runtime.Reaping

/-! # The steps beside the reaper and its own

A step of a handler, of the accounting or of the API is about one flow: it leaves the entry
and the object of every other flow alone. That needs no condition on the run, since a handle
of one flow never leads to another flow's entry. Its own entry stays as well, unless a
`POST /flows` that found none inserts late. The steps of the reaper are listed one by one.
-/

namespace TinyLlb

open FlowTable

namespace FlowTable

variable {t : FlowTable} {f : FlowId} {now handle x : Nat}

theorem cells_update (other : x ≠ handle) (write : Flow → Flow) :
    (t.update handle write).cells[x]? = t.cells[x]? := by
  have other' : ¬ handle = x := fun same => other same.symm
  rw [update, List.getElem?_modify]
  simp [other']

theorem cells_see (other : x ≠ handle) : (t.see handle now).cells[x]? = t.cells[x]? := by
  have other' : ¬ handle = x := fun same => other same.symm
  rw [see, List.getElem?_modify]
  simp [other']

theorem cells_insert (old : x < t.cells.length) (cell : FlowCell) :
    (t.insert f cell).cells[x]? = t.cells[x]? := List.getElem?_append_left old

theorem lookup_of_insert {cell : FlowCell} {g : FlowId}
    (found : (t.insert f cell).entries.lookup g = some x) :
    g = f ∧ x = t.cells.length ∨ t.entries.lookup g = some x := by
  rw [insert, Assoc.lookup_insert] at found
  split at found
  · exact .inl ⟨‹_›, (Option.some.inj found).symm⟩
  · exact .inr found

theorem getOrCreate_ne (old : x < t.cells.length) (other : t.entries.lookup f ≠ some x) (now : Nat) :
    x ≠ (t.getOrCreate f now).1 := by
  unfold getOrCreate
  split
  · rename_i found
    rintro rfl
    exact other found
  · exact old.ne

theorem cells_getOrCreate (old : x < t.cells.length) (other : t.entries.lookup f ≠ some x)
    (now : Nat) : (t.getOrCreate f now).2.cells[x]? = t.cells[x]? := by
  have apart := getOrCreate_ne old other now
  unfold getOrCreate at apart ⊢
  split
  · rename_i found
    rw [found] at apart
    exact cells_see apart
  · exact cells_insert old _

theorem cells_prioritize (old : x < t.cells.length) (other : t.entries.lookup f ≠ some x) (now : Nat)
    (priority : Option (Nat × Nat)) : (t.prioritize f now priority).cells[x]? = t.cells[x]? := by
  unfold prioritize
  split
  · rw [cells_update (getOrCreate_ne old other now)]
    exact cells_getOrCreate old other now
  · exact cells_getOrCreate old other now

theorem cells_register {r : FlowRegistration} (other : t.entries.lookup r.id ≠ some x)
    {t' : FlowTable} (updated : t.register r now = some t') : t'.cells[x]? = t.cells[x]? := by
  obtain ⟨handle, found, rfl⟩ := Option.map_eq_some_iff.mp updated
  have apart : x ≠ handle := by
    rintro rfl
    exact other found
  rw [cells_see apart]
  exact cells_update apart _

/-- What the filter of `reap_idle` asks of an object. -/
def Stale (t : FlowTable) (cutoff handle : Nat) : Prop :=
  t.depth handle = 0 ∧ t.active handle = 0 ∧ t.lastSeen handle < cutoff

instance (t : FlowTable) (cutoff handle : Nat) : Decidable (t.Stale cutoff handle) :=
  inferInstanceAs (Decidable (_ ∧ _ ∧ _))

theorem readings_eq {t' : FlowTable} (same : t'.cells[x]? = t.cells[x]?) :
    t'.depth x = t.depth x ∧ t'.active x = t.active x ∧ t'.lastSeen x = t.lastSeen x := by
  unfold depth active lastSeen
  rw [same]
  exact ⟨rfl, rfl, rfl⟩

end FlowTable

theorem handlerStep_others {t t' : FlowTable} {f : FlowId} {now : Nat} {before after : HandlerStage}
    {step : HandlerStep} (inRange : ∀ f x, t.entries.lookup f = some x → x < t.cells.length)
    (moved : handlerStep t now f before step = some (after, t')) :
    TableMove t t' f now ∧
      (∀ x ∈ after.handles, x ∈ before.handles ∨ t'.entries.lookup f = some x) ∧
      ∀ x, x < t.cells.length → t.entries.lookup f ≠ some x → x ∉ before.handles →
        t'.cells[x]? = t.cells[x]? := by
  unfold handlerStep at moved
  split at moved
  all_goals try simp only [Option.some.injEq, Prod.mk.injEq, reduceCtorEq] at moved
  all_goals try obtain ⟨rfl, rfl⟩ := moved
  case h_1 | h_2 | h_3 =>
    exact ⟨(Lookup.prioritize (inRange f) now _).move, by simp [HandlerStage.handles],
      fun x old other _ => cells_prioritize old other now _⟩
  case h_4 =>
    have look := lookup_getOrCreate (inRange f) now
    refine ⟨look.move, ?_, fun x old other _ => cells_getOrCreate old other now⟩
    intro x member
    obtain rfl := List.mem_singleton.mp member
    exact .inr look.found
  case h_5 handle =>
    refine ⟨.write (.refl t f now) handle _, fun x member => .inl member, ?_⟩
    intro x _ _ free
    exact cells_update (fun same => free (by simp [same, HandlerStage.handles])) _
  case h_6 handle =>
    have look := lookup_getOrCreate (inRange f) now
    refine ⟨look.move, ?_, fun x old other _ => cells_getOrCreate old other now⟩
    intro x member
    rcases List.mem_cons.mp member with rfl | last
    · exact .inl (List.mem_singleton_self _)
    · obtain rfl := List.mem_singleton.mp last
      exact .inr look.found
  case h_7 handle ticket | h_8 handle ticket =>
    refine ⟨.write (.refl t f now) handle _, fun x member => .inl member, ?_⟩
    intro x _ _ free
    exact cells_update (fun same => free (by simp [same, HandlerStage.handles])) _
  case h_9 handle ticket =>
    refine ⟨.write (.refl t f now) ticket _, by simp [HandlerStage.handles], ?_⟩
    intro x _ _ free
    exact cells_update (fun same => free (by simp [same, HandlerStage.handles])) _
  case h_10 | h_11 | h_12 | h_13 | h_14 =>
    exact ⟨.refl t f now, by simp [HandlerStage.handles], fun _ _ _ _ => rfl⟩
  case h_15 handle =>
    refine ⟨.write (.refl t f now) handle _, by simp [HandlerStage.handles], ?_⟩
    intro x _ _ free
    exact cells_update (fun same => free (by simp [same, HandlerStage.handles])) _
  case h_16 handle ticket =>
    refine ⟨.write (.write (.refl t f now) ticket _) handle _, by simp [HandlerStage.handles], ?_⟩
    intro x _ _ free
    rw [cells_update (fun same => free (by simp [same, HandlerStage.handles]))]
    exact cells_update (fun same => free (by simp [same, HandlerStage.handles])) _

namespace ReapSystem

/-- An object that a handler holds is no other flow's entry. -/
structure Owned (s : ReapSystem) : Prop where
  inRange : ∀ f x, s.table.entries.lookup f = some x → x < s.table.cells.length
  apart : ∀ f g x, s.table.entries.lookup f = some x → s.table.entries.lookup g = some x → f = g
  held : ∀ h ∈ s.handlers, ∀ x ∈ h.stage.handles, x < s.table.cells.length ∧
    ∀ f, s.table.entries.lookup f = some x → f = h.flowId

/-- The action is one of a request of `f`, or of the accounting or the API about `f`. -/
def About (s : ReapSystem) (f : FlowId) : ReapAction → Prop
  | .assignSlot i _ | .handle i _ => s.flowOf i = some f
  | .access g => g = f
  | .register r => r.id = f
  | .registerNew i => s.posts[i]?.map (·.registration.id) = some f
  | _ => False

instance (s : ReapSystem) (f : FlowId) (action : ReapAction) : Decidable (s.About f action) :=
  match action with
  | .assignSlot i _ | .handle i _ => inferInstanceAs (Decidable (s.flowOf i = some f))
  | .access g => inferInstanceAs (Decidable (g = f))
  | .register r => inferInstanceAs (Decidable (r.id = f))
  | .registerNew i => inferInstanceAs (Decidable (s.posts[i]?.map (·.registration.id) = some f))
  | .tick _ | .receive _ | .reap _ | .readDepth _ | .readActive | .readLastSeen | .collected
  | .removeEntry | .releaseSlot | .lockSlots | .checkEntry | .dropOrphans =>
      inferInstanceAs (Decidable False)

/-- A step that is not the reaper's. -/
structure Outside (s : ReapSystem) (action : ReapAction) (t : ReapSystem) : Prop where
  reaper : t.reaper = s.reaper
  clock : s.clock ≤ t.clock
  kept : ∀ f x, s.table.entries.lookup f = some x → t.table.entries.lookup f = some x
  seen : ∀ f x, s.table.entries.lookup f = some x →
    t.table.lastSeen x = s.table.lastSeen x ∨ t.table.lastSeen x = s.clock
  others : ∀ f, ¬ s.About f action → t.table.entries.lookup f = s.table.entries.lookup f ∧
    ∀ x, s.table.entries.lookup f = some x → t.table.cells[x]? = s.table.cells[x]?
  slots : t.slots = s.slots ∨ ∃ i slotCount f, action = .assignSlot i slotCount ∧
    s.flowOf i = some f ∧ slotCount ≠ 0 ∧ s.reaper.sweeps = false ∧
      t.slots = (s.slots.assign f slotCount).2

variable {s t : ReapSystem} {action : ReapAction} {event : Option Empty}

theorem Owned.move (owned : s.Owned) {t' : FlowTable} {f : FlowId} {now : Nat}
    (move : TableMove s.table t' f now) {handlers : List Handler}
    (holds : ∀ h ∈ handlers, h ∈ s.handlers ∨ h.flowId = f ∧ ∀ x ∈ h.stage.handles,
      (∃ g ∈ s.handlers, g.flowId = f ∧ x ∈ g.stage.handles) ∨ t'.entries.lookup f = some x) :
    Owned { s with table := t', handlers := handlers } where
  inRange := fun _ _ found => move.inRange owned.inRange found
  apart := fun _ _ _ first second => move.apart owned.inRange owned.apart first second
  held := by
    have before : ∀ g ∈ s.handlers, ∀ x ∈ g.stage.handles, x < t'.cells.length ∧
        ∀ e, t'.entries.lookup e = some x → e = g.flowId := by
      intro g member x holds
      obtain ⟨old, own⟩ := owned.held g member x holds
      refine ⟨old.trans_le move.grows, fun e found => ?_⟩
      rcases move.entry found with was | ⟨-, -, new, -⟩
      · exact own e was
      · omega
    intro h member x holding
    rcases holds h member with old | ⟨rfl, source⟩
    · exact before h old x holding
    · rcases source x holding with ⟨g, member', same, held⟩ | found
      · rw [← same]
        exact before g member' x held
      · refine ⟨move.inRange owned.inRange found, fun e found' => ?_⟩
        exact move.apart owned.inRange owned.apart found' found

theorem Owned.start (defaultWeight : F64) (defaultPriority : Nat) :
    (reaping defaultWeight defaultPriority).start.Owned where
  inRange := fun f x found => by
    have none_ : (none : Option Nat) = some x := found
    cases none_
  apart := fun f g x found => by
    have none_ : (none : Option Nat) = some x := found
    cases none_
  held := by simp [reaping]

theorem Owned.congr (owned : s.Owned) (cells : t.table.cells = s.table.cells)
    (handlers : ∀ h ∈ t.handlers, h ∈ s.handlers ∨ h.stage.handles = [])
    (entries : ∀ f x, t.table.entries.lookup f = some x → s.table.entries.lookup f = some x) :
    t.Owned where
  inRange := by
    intro f x found
    rw [cells]
    exact owned.inRange f x (entries f x found)
  apart := fun f g x first second => owned.apart f g x (entries f x first) (entries g x second)
  held := by
    intro h member x holds
    rcases handlers h member with old | none_
    · obtain ⟨bound, own⟩ := owned.held h old x holds
      rw [cells]
      exact ⟨bound, fun f found => own f (entries f x found)⟩
    · simp [none_] at holds

theorem Owned.insert (owned : s.Owned) (f : FlowId) (cell : FlowCell) :
    Owned { s with table := s.table.insert f cell } where
  inRange := by
    intro g x found
    have length : (s.table.insert f cell).cells.length = s.table.cells.length + 1 :=
      List.length_append
    rcases lookup_of_insert found with ⟨-, rfl⟩ | old
    · exact length ▸ Nat.lt_succ_self _
    · exact length ▸ Nat.lt_succ_of_lt (owned.inRange g x old)
  apart := by
    intro g h x first second
    rcases lookup_of_insert first with ⟨rfl, rfl⟩ | old
    · rcases lookup_of_insert second with ⟨rfl, -⟩ | old'
      · rfl
      · exact absurd (owned.inRange h _ old') (lt_irrefl _)
    · rcases lookup_of_insert second with ⟨-, rfl⟩ | old'
      · exact absurd (owned.inRange g _ old) (lt_irrefl _)
      · exact owned.apart g h x old old'
  held := by
    intro h member x holds
    obtain ⟨bound, own⟩ := owned.held h member x holds
    have length : (s.table.insert f cell).cells.length = s.table.cells.length + 1 :=
      List.length_append
    refine ⟨length ▸ Nat.lt_succ_of_lt bound, fun g found => ?_⟩
    rcases lookup_of_insert found with ⟨-, rfl⟩ | old
    · exact absurd bound (lt_irrefl _)
    · exact own g old

theorem Owned.elsewhere (owned : s.Owned) {f g : FlowId} (other : g ≠ f) {x : Nat}
    (found : s.table.entries.lookup g = some x) :
    x < s.table.cells.length ∧ s.table.entries.lookup f ≠ some x :=
  ⟨owned.inRange g x found, fun here => other (owned.apart g f x found here)⟩

theorem Outside.of_table (reaper : t.reaper = s.reaper) (clock : t.clock = s.clock)
    (slots : t.slots = s.slots) {f : FlowId} (move : TableMove s.table t.table f s.clock)
    (about : s.About f action)
    (cells : ∀ g x, g ≠ f → s.table.entries.lookup g = some x →
      t.table.cells[x]? = s.table.cells[x]?) : s.Outside action t where
  reaper := reaper
  clock := clock.ge
  kept := move.kept
  seen := move.seen
  others := by
    intro g other
    have apart : g ≠ f := by
      rintro rfl
      exact other about
    exact ⟨move.others g apart, fun x => cells g x apart⟩
  slots := .inl slots

end ReapSystem

namespace Reaper

def isIdle : Reaper → Bool
  | idle => true
  | _ => false

/-- The steps of `reap_idle`, one by one. -/
inductive Moves (clock : Nat) (t : FlowTable) (slots : SlotAllocator) :
    Reaper → ReapAction → Reaper → FlowTable → SlotAllocator → Prop where
  | reap (ttl) : Moves clock t slots .idle (.reap ttl) (.scanning (clock - ttl) []) t slots
  | noDepth {cutoff toRemove f handle} : t.entries.lookup f = some handle → t.depth handle = 0 →
      Moves clock t slots (.scanning cutoff toRemove) (.readDepth f)
        (.depthRead cutoff toRemove f handle) t slots
  | depth {cutoff toRemove f handle} : t.entries.lookup f = some handle → t.depth handle ≠ 0 →
      Moves clock t slots (.scanning cutoff toRemove) (.readDepth f) (.scanning cutoff toRemove) t
        slots
  | inactive {cutoff toRemove f handle} : t.active handle = 0 →
      Moves clock t slots (.depthRead cutoff toRemove f handle) .readActive
        (.activeRead cutoff toRemove f handle) t slots
  | active {cutoff toRemove f handle} : t.active handle ≠ 0 →
      Moves clock t slots (.depthRead cutoff toRemove f handle) .readActive
        (.scanning cutoff toRemove) t slots
  | overdue {cutoff toRemove f handle} : t.lastSeen handle < cutoff →
      Moves clock t slots (.activeRead cutoff toRemove f handle) .readLastSeen
        (.scanning cutoff (toRemove ++ [f])) t slots
  | seen {cutoff toRemove f handle} : ¬ t.lastSeen handle < cutoff →
      Moves clock t slots (.activeRead cutoff toRemove f handle) .readLastSeen
        (.scanning cutoff toRemove) t slots
  | collected {cutoff toRemove} :
      Moves clock t slots (.scanning cutoff toRemove) .collected (.removing toRemove) t slots
  | removeEntry {f rest} : Moves clock t slots (.removing (f :: rest)) .removeEntry
      (.releasing f rest) (t.remove f) slots
  | releaseSlot {f rest} : Moves clock t slots (.releasing f rest) .releaseSlot (.removing rest) t
      (slots.release f)
  | lockSlots : Moves clock t slots (.removing []) .lockSlots (.sweeping slots.assignments.keys []) t
      slots
  | registered {f rest orphans} : f ∈ t.entries → Moves clock t slots
      (.sweeping (f :: rest) orphans) .checkEntry (.sweeping rest orphans) t slots
  | orphan {f rest orphans} : f ∉ t.entries → Moves clock t slots
      (.sweeping (f :: rest) orphans) .checkEntry (.sweeping rest (orphans ++ [f])) t slots
  | dropOrphans {orphans} : Moves clock t slots (.sweeping [] orphans) .dropOrphans .idle t
      (slots.sweepMissing fun f => decide (f ∉ orphans)).2

theorem moves_of_next {clock : Nat} {t t' : FlowTable} {slots slots' : SlotAllocator}
    {reaper reaper' : Reaper} {action : ReapAction}
    (moved : reaper.next clock t slots action = some (reaper', t', slots')) :
    Moves clock t slots reaper action reaper' t' slots' := by
  unfold next at moved
  split at moved
  case h_1 ttl =>
    obtain ⟨rfl, rfl, rfl⟩ := by simpa using moved
    exact .reap ttl
  case h_2 cutoff toRemove f =>
    split at moved
    · rename_i handle found
      split at moved
      · rename_i zero
        obtain ⟨rfl, rfl, rfl⟩ := by simpa using moved
        exact .noDepth found zero
      · rename_i positive
        obtain ⟨rfl, rfl, rfl⟩ := by simpa using moved
        exact .depth found positive
    · cases moved
  case h_3 =>
    split at moved
    · rename_i zero
      obtain ⟨rfl, rfl, rfl⟩ := by simpa using moved
      exact .inactive zero
    · rename_i positive
      obtain ⟨rfl, rfl, rfl⟩ := by simpa using moved
      exact .active positive
  case h_4 =>
    split at moved
    · rename_i overdue
      obtain ⟨rfl, rfl, rfl⟩ := by simpa using moved
      exact .overdue overdue
    · rename_i seen
      obtain ⟨rfl, rfl, rfl⟩ := by simpa using moved
      exact .seen seen
  case h_9 =>
    split at moved
    · rename_i there
      obtain ⟨rfl, rfl, rfl⟩ := by simpa using moved
      exact .registered there
    · rename_i absent
      obtain ⟨rfl, rfl, rfl⟩ := by simpa using moved
      exact .orphan absent
  case h_11 => cases moved
  all_goals
    simp only [Option.some.injEq, Prod.mk.injEq] at moved
    obtain ⟨rfl, rfl, rfl⟩ := moved
    constructor

theorem Moves.table {clock : Nat} {t t' : FlowTable} {slots slots' : SlotAllocator}
    {reaper reaper' : Reaper} {action : ReapAction}
    (moves : Moves clock t slots reaper action reaper' t' slots') : t'.cells = t.cells ∧
      ∀ f x, t'.entries.lookup f = some x → t.entries.lookup f = some x := by
  cases moves with
  | removeEntry =>
      refine ⟨rfl, fun f x found => ?_⟩
      rw [FlowTable.remove, Assoc.lookup_erase] at found
      split at found
      · cases found
      · exact found
  | _ => exact ⟨rfl, fun _ _ found => found⟩

end Reaper

namespace ReapSystem

variable {s t : ReapSystem} {action : ReapAction} {event : Option Empty}

/-- A step of either kind. -/
def Step (s : ReapSystem) (action : ReapAction) (t : ReapSystem) : Prop :=
  s.Outside action t ∨ t.clock = s.clock ∧ t.handlers = s.handlers ∧
    Reaper.Moves s.clock s.table s.slots s.reaper action t.reaper t.table t.slots

/-- No `POST /flows` replaces the entry that a flow has got since its look-up. -/
def OnTime (s : ReapSystem) (action : ReapAction) : Prop :=
  ∀ i, action = .registerNew i → s.InsertsNew i

instance (s : ReapSystem) (action : ReapAction) : Decidable (s.OnTime action) :=
  match action with
  | .registerNew i => decidable_of_iff (s.InsertsNew i)
      ⟨fun met _ same => ReapAction.registerNew.inj same ▸ met, fun onTime => onTime i rfl⟩
  | .tick _ | .receive _ | .assignSlot .. | .handle .. | .access _ | .register _ | .reap _
  | .readDepth _ | .readActive | .readLastSeen | .collected | .removeEntry | .releaseSlot
  | .lockSlots | .checkEntry | .dropOrphans => isTrue nofun

/-- Every step on time is one of the reaper's or one of the others'. -/
theorem Owned.step (owned : s.Owned) (moved : nextReap s action = some (t, event)) :
    t.Owned ∧ (s.OnTime action → s.Step action t) := by
  cases action with
  | tick seconds =>
      simp only [nextReap, Option.some.injEq, Prod.mk.injEq] at moved
      obtain ⟨rfl, -⟩ := moved
      exact ⟨owned.congr rfl (fun _ => .inl) (fun _ _ => id), fun _ => .inl
        { reaper := rfl, clock := Nat.le_add_right _ _, kept := fun _ _ => id
          seen := fun _ _ _ => .inl rfl, others := fun _ _ => ⟨rfl, fun _ _ => rfl⟩, slots := .inl rfl }⟩
  | receive f =>
      simp only [nextReap, Option.some.injEq, Prod.mk.injEq] at moved
      obtain ⟨rfl, -⟩ := moved
      refine ⟨owned.congr rfl ?_ (fun _ _ => id), fun _ => .inl
        { reaper := rfl, clock := le_rfl, kept := fun _ _ => id
          seen := fun _ _ _ => .inl rfl, others := fun _ _ => ⟨rfl, fun _ _ => rfl⟩, slots := .inl rfl }⟩
      intro h member
      rcases List.mem_append.mp member with old | new
      · exact .inl old
      · obtain rfl := List.mem_singleton.mp new
        exact .inr rfl
  | assignSlot i slotCount =>
      simp only [nextReap] at moved
      split at moved
      · rename_i f here
        split at moved
        · cases moved
        · rename_i enabled
          simp only [Option.some.injEq, Prod.mk.injEq] at moved
          obtain ⟨rfl, -⟩ := moved
          push Not at enabled
          obtain ⟨some_, -, unlocked⟩ := enabled
          refine ⟨owned.congr rfl ?_ (fun _ _ => id), fun _ => .inl
            { reaper := rfl, clock := le_rfl, kept := fun _ _ => id
              seen := fun _ _ _ => .inl rfl, others := fun _ _ => ⟨rfl, fun _ _ => rfl⟩
              slots := .inr ⟨i, slotCount, f, rfl, by simp [flowOf, here], some_,
                by simpa using unlocked, rfl⟩ }⟩
          intro h member
          rcases List.mem_or_eq_of_mem_set member with old | rfl
          · exact .inl old
          · exact .inr rfl
      · cases moved
  | handle i step =>
      simp only [nextReap] at moved
      split at moved
      · rename_i h here
        obtain ⟨⟨after, t'⟩, stepped, same⟩ := Option.map_eq_some_iff.mp moved
        simp only [Prod.mk.injEq] at same
        obtain ⟨rfl, -⟩ := same
        have member := List.mem_of_getElem? here
        obtain ⟨move, handles, cells⟩ := handlerStep_others owned.inRange stepped
        refine ⟨owned.move move ?_, fun _ => .inl (.of_table rfl rfl rfl move ?_ ?_)⟩
        · intro g new
          rcases List.mem_or_eq_of_mem_set new with old | rfl
          · exact .inl old
          · refine .inr ⟨rfl, fun x holds => ?_⟩
            rcases handles x holds with before | found
            · exact .inl ⟨h, member, rfl, before⟩
            · exact .inr found
        · simp [About, flowOf, here]
        · intro g x other found
          obtain ⟨old, free⟩ := owned.elsewhere other found
          exact cells x old free fun holds => other ((owned.held h member x holds).2 g found)
      · cases moved
  | access f =>
      simp only [nextReap, Option.some.injEq, Prod.mk.injEq] at moved
      obtain ⟨rfl, -⟩ := moved
      have look := lookup_getOrCreate (owned.inRange f) s.clock
      refine ⟨owned.move look.move fun _ => .inl, fun _ =>
        .inl (.of_table rfl rfl rfl look.move rfl ?_)⟩
      intro g x other found
      obtain ⟨old, free⟩ := owned.elsewhere other found
      exact cells_getOrCreate old free s.clock
  | register r =>
      simp only [nextReap] at moved
      split at moved
      · rename_i table updated
        simp only [Option.some.injEq, Prod.mk.injEq] at moved
        obtain ⟨rfl, -⟩ := moved
        obtain ⟨handle, look⟩ := Lookup.register (owned.inRange r.id) updated
        refine ⟨owned.move look.move fun _ => .inl, fun _ =>
          .inl (.of_table rfl rfl rfl look.move rfl ?_)⟩
        intro g x other found
        exact cells_register (owned.elsewhere other found).2 updated
      · simp only [Option.some.injEq, Prod.mk.injEq] at moved
        obtain ⟨rfl, -⟩ := moved
        exact ⟨owned.congr rfl (fun _ => .inl) fun _ _ => id, fun _ => .inl
          (.of_table rfl rfl rfl (.refl s.table r.id s.clock) rfl fun _ _ _ _ => rfl)⟩
  | registerNew i =>
      obtain ⟨post, here, same⟩ := Option.map_eq_some_iff.mp moved
      simp only [Prod.mk.injEq] at same
      obtain ⟨rfl, -⟩ := same
      refine ⟨(owned.insert post.registration.id _).congr rfl (fun _ => .inl) fun _ _ => id,
        fun onTime => ?_⟩
      have move := TableMove.registerNew owned.inRange (onTime i rfl post here) post.now s.clock
      refine .inl (.of_table rfl rfl rfl move ?_ ?_)
      · simp [About, here]
      · intro g x other found
        exact cells_insert (owned.inRange g x found) _
  | reap | readDepth | readActive | readLastSeen | collected | removeEntry | releaseSlot | lockSlots
  | checkEntry | dropOrphans =>
      obtain ⟨⟨reaper, table, slots⟩, stepped, same⟩ := Option.map_eq_some_iff.mp moved
      simp only [Prod.mk.injEq] at same
      obtain ⟨rfl, -⟩ := same
      have moves := Reaper.moves_of_next stepped
      obtain ⟨cells, entries⟩ := moves.table
      exact ⟨owned.congr cells (fun _ => .inl) entries, fun _ => .inr ⟨rfl, rfl, moves⟩⟩

end ReapSystem

end TinyLlb
