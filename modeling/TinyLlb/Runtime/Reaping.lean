import TinyLlb.Runtime.Reaper

/-! # Live flows and the reaper

A flow is live while one of its requests stands between its slot or entry and the drop of
its ticket. The reaper judges by depth, active count and `last_seen`: a request that only
holds a slot, waits at the gates or has just given up its guard shows in none of the first
two. `Watched` says that the reaper never looks at such a moment, that no request starts
on a flow it has already judged and that no registration replaces an entry; then no live
flow loses its entry or its slot.
-/

namespace TinyLlb

open FlowTable

namespace ReapSystem

/-- Handlers that `read` finds on an object. -/
def count (s : ReapSystem) (read : HandlerStage → Option Nat) (handle : Nat) : Nat :=
  s.handlers.countP fun h => decide (read h.stage = some handle)

/-- A handler of `f` stands at a stage. -/
def Stands (s : ReapSystem) (f : FlowId) (at_ : HandlerStage → Bool) : Prop :=
  ∃ h ∈ s.handlers, h.flowId = f ∧ at_ h.stage = true

def Live (s : ReapSystem) (f : FlowId) : Prop := s.Stands f HandlerStage.live

def flowOf (s : ReapSystem) (i : Nat) : Option FlowId := s.handlers[i]?.map Handler.flowId

end ReapSystem

/-- A step leaves the entries and the slots of live flows alone. -/
structure Spared (s : ReapSystem) (action : ReapAction) (t : ReapSystem) : Prop where
  /-- The entry stays, with the object that holds its weight, priority and source. -/
  entry : ∀ f handle, s.Live f → s.table.entries.lookup f = some handle →
    t.table.entries.lookup f = some handle
  /-- The slot stays, unless a request of the flow itself finds it out of range. -/
  slot : ∀ f slot, s.Live f → s.slots.assignments.lookup f = some slot →
    t.slots.assignments.lookup f = some slot ∨
      ∃ i slotCount slot', action = .assignSlot i slotCount ∧ s.flowOf i = some f ∧
        ¬ slot < slotCount ∧ t.slots.assignments.lookup f = some slot'
  /-- Another flow gets the slot only if no slot is free. -/
  handed : ∀ f slot i slotCount g, s.slots.assignments.lookup f = some slot →
    action = .assignSlot i slotCount → s.flowOf i = some g → g ≠ f →
    s.slots.assignments.lookup g ≠ some slot → t.slots.assignments.lookup g = some slot →
    ∀ k < slotCount, s.slots.holders k ≠ 0

namespace ReapSystem

/-- The flow was last seen before the cutoff of the scan under way. -/
def Overdue (s : ReapSystem) (f : FlowId) : Prop :=
  ∃ cutoff ∈ s.reaper.cutoff, ∃ handle ∈ s.table.entries.lookup f, s.table.lastSeen handle < cutoff

/-- The request of a handler does not start on a flow that the reaper has condemned. -/
def StartsFresh (s : ReapSystem) (i : Nat) : Prop := ∀ f ∈ s.flowOf i, f ∉ s.reaper.condemned

/-- The flow that a `POST /flows` inserts has got no entry since the look-up. -/
def InsertsNew (s : ReapSystem) (i : Nat) : Prop :=
  ∀ post ∈ s.posts[i]?, s.table.entries.lookup post.registration.id = none

end ReapSystem

/-- The condition on a step, in the state before it. -/
def Watched (s : ReapSystem) : ReapAction → Prop
  | .assignSlot i _ => s.StartsFresh i ∧ s.slots.assignments.entries.length + 1 < 4294967296
  | .handle i (.override _) => s.StartsFresh i
  | .readDepth f => ∀ handle ∈ s.table.entries.lookup f, s.Overdue f →
      s.count HandlerStage.guardOn handle % 4294967296 = 0 →
        s.count HandlerStage.guardOn handle = 0 ∧ ¬ s.Stands f HandlerStage.unmarked
  | .readActive => ∀ e ∈ s.reaper.examined, s.Overdue e.1 →
      s.count HandlerStage.activeOn e.2 % 4294967296 = s.count HandlerStage.lostOn e.2 % 4294967296 →
        s.count HandlerStage.activeOn e.2 = 0
  | .readLastSeen => ∀ e ∈ s.reaper.examined, s.Overdue e.1 → ¬ s.Stands e.1 (· == .slotted)
  | .checkEntry => ∀ f ∈ s.reaper.sought, f ∉ s.table.entries → ¬ s.Stands f (· == .slotted)
  | .registerNew i => s.InsertsNew i
  | _ => True

instance (s : ReapSystem) (f : FlowId) (at_ : HandlerStage → Bool) : Decidable (s.Stands f at_) :=
  inferInstanceAs (Decidable (∃ h ∈ s.handlers, _))

instance (s : ReapSystem) (f : FlowId) : Decidable (s.Live f) :=
  inferInstanceAs (Decidable (s.Stands f _))

instance (s : ReapSystem) (f : FlowId) : Decidable (s.Overdue f) :=
  inferInstanceAs (Decidable (∃ cutoff ∈ s.reaper.cutoff, ∃ handle ∈ s.table.entries.lookup f, _))

instance (s : ReapSystem) (i : Nat) : Decidable (s.StartsFresh i) :=
  inferInstanceAs (Decidable (∀ f ∈ s.flowOf i, _))

instance (s : ReapSystem) (i : Nat) : Decidable (s.InsertsNew i) :=
  inferInstanceAs (Decidable (∀ post ∈ s.posts[i]?, _))

instance (s : ReapSystem) (action : ReapAction) : Decidable (Watched s action) :=
  match action with
  | .assignSlot .. => inferInstanceAs (Decidable (_ ∧ _))
  | .handle i (.override _) => inferInstanceAs (Decidable (s.StartsFresh i))
  | .readDepth f => inferInstanceAs (Decidable (∀ handle ∈ s.table.entries.lookup f, _))
  | .readActive | .readLastSeen => inferInstanceAs (Decidable (∀ e ∈ s.reaper.examined, _))
  | .checkEntry => inferInstanceAs (Decidable (∀ f ∈ s.reaper.sought, _))
  | .registerNew i => inferInstanceAs (Decidable (s.InsertsNew i))
  | .handle _ (.enterGates _) | .handle _ .passGates | .handle _ .createGuard | .handle _ .select
  | .handle _ .consume | .handle _ .incActive | .handle _ .dropTicket | .handle _ .cancel
  | .tick _ | .receive _ | .access _ | .register _ | .reap _ | .collected | .removeEntry
  | .releaseSlot | .lockSlots | .dropOrphans => inferInstanceAs (Decidable True)

namespace ReapSystem

variable {s : ReapSystem}

/-- What the reaper has read so far is still good enough: a flow that it has condemned
    is not live, and one that it is reading is overdue only if none of its requests shows
    on the cells already read. -/
def Judged (s : ReapSystem) : Reaper → Prop
  | .idle => True
  | .scanning cutoff toRemove => cutoff ≤ s.clock ∧ ∀ f ∈ toRemove, ¬ s.Live f
  | .depthRead cutoff toRemove f handle =>
      cutoff ≤ s.clock ∧ (∀ g ∈ toRemove, ¬ s.Live g) ∧
        s.table.entries.lookup f = some handle ∧
        (s.table.lastSeen handle < cutoff → ∀ h ∈ s.handlers, h.flowId = f →
          h.stage.live = true → h.stage = .slotted ∨ h.stage.activeOn.isSome)
  | .activeRead cutoff toRemove f handle =>
      cutoff ≤ s.clock ∧ (∀ g ∈ toRemove, ¬ s.Live g) ∧
        s.table.entries.lookup f = some handle ∧
        (s.table.lastSeen handle < cutoff → ∀ h ∈ s.handlers, h.flowId = f →
          h.stage.live = true → h.stage = .slotted)
  | .removing toRemove => ∀ f ∈ toRemove, ¬ s.Live f
  | .releasing f toRemove => ∀ g ∈ f :: toRemove, ¬ s.Live g
  | .sweeping _ orphans => ∀ f ∈ orphans, ¬ s.Live f

end ReapSystem

structure ReapInv (s : ReapSystem) : Prop where
  inRange : ∀ f handle, s.table.entries.lookup f = some handle → handle < s.table.cells.length
  apart : ∀ f g handle, s.table.entries.lookup f = some handle →
    s.table.entries.lookup g = some handle → f = g
  registered : ∀ h ∈ s.handlers, h.stage.registered = true →
    ∃ handle, s.table.entries.lookup h.flowId = some handle ∧ ∀ x ∈ h.stage.handles, x = handle
  depth : ∀ x, s.table.depth x = UInt32.ofNat (s.count HandlerStage.guardOn x)
  active : ∀ x, s.table.active x + UInt32.ofNat (s.count HandlerStage.lostOn x) =
    UInt32.ofNat (s.count HandlerStage.activeOn x)
  judged : s.Judged s.reaper
  slots : s.slots.Consistent

namespace ReapInv

variable {s : ReapSystem}

theorem start (defaultWeight : F64) (defaultPriority : Nat) :
    ReapInv (reaping defaultWeight defaultPriority).start where
  inRange := fun f handle found => by
    have none_ : (none : Option Nat) = some handle := found
    cases none_
  apart := fun f g handle found => by
    have none_ : (none : Option Nat) = some handle := found
    cases none_
  registered := by simp [reaping]
  depth := fun _ => rfl
  active := fun _ => rfl
  judged := trivial
  slots := SlotAllocator.Consistent.new

end ReapInv

namespace ReapSystem

variable {s t : ReapSystem} {reaper : Reaper}

/-- A live handler after a step is an old one; or its flow was live or uncondemned, and
    it holds no more than a slot, has just looked its flow up, or was unmarked before. -/
def Succeeds (s t : ReapSystem) (reaper : Reaper) (h : Handler) : Prop :=
  h ∈ s.handlers ∨
    (h.flowId ∈ reaper.condemned → s.Live h.flowId) ∧
      (h.stage = .slotted ∨
        (∀ handle, t.table.entries.lookup h.flowId = some handle →
          t.table.lastSeen handle = s.clock) ∨
        ∃ g ∈ s.handlers, g.flowId = h.flowId ∧ g.stage.live = true ∧ g.stage ≠ .slotted ∧
          g.stage.activeOn = none)

/-- The steps of others than the reaper do not spoil its judgement. -/
structure Undisturbing (s t : ReapSystem) (reaper : Reaper) : Prop where
  clock : s.clock ≤ t.clock
  kept : ∀ g handle, s.table.entries.lookup g = some handle →
    t.table.entries.lookup g = some handle
  seen : ∀ g handle, s.table.entries.lookup g = some handle →
    t.table.lastSeen handle = s.table.lastSeen handle ∨ t.table.lastSeen handle = s.clock
  handlers : ∀ h ∈ t.handlers, h.stage.live = true → s.Succeeds t reaper h

theorem Undisturbing.not_live (quiet : s.Undisturbing t reaper) {f : FlowId}
    (condemned : f ∈ reaper.condemned) (idle : ¬ s.Live f) : ¬ t.Live f := by
  rintro ⟨h, member, rfl, live⟩
  rcases quiet.handlers h member live with old | ⟨was, -⟩
  · exact idle ⟨h, old, rfl, live⟩
  · exact idle (was condemned)

theorem Undisturbing.examined (quiet : s.Undisturbing t reaper) {cutoff handle : Nat} {f : FlowId}
    {P : HandlerStage → Prop} (slotted : P .slotted)
    (weak : ∀ stage, P stage → stage = .slotted ∨ stage.activeOn.isSome = true)
    (past : cutoff ≤ s.clock) (entry : s.table.entries.lookup f = some handle)
    (held : s.table.lastSeen handle < cutoff → ∀ h ∈ s.handlers, h.flowId = f →
      h.stage.live = true → P h.stage) :
    t.table.lastSeen handle < cutoff → ∀ h ∈ t.handlers, h.flowId = f →
      h.stage.live = true → P h.stage := by
  rintro overdue h member rfl live
  have before : s.table.lastSeen handle < cutoff := by
    rcases quiet.seen _ handle entry with same | now
    · omega
    · omega
  rcases quiet.handlers h member live with
    old | ⟨-, new | looked | ⟨g, old, same, was, notSlotted, notActive⟩⟩
  · exact held before h old rfl live
  · rw [new]
    exact slotted
  · have now := looked handle (quiet.kept _ _ entry)
    omega
  · rcases weak _ (held before g old same was) with is | is
    · exact absurd is notSlotted
    · simp [notActive] at is

theorem Undisturbing.judged (quiet : s.Undisturbing t reaper) (held : s.Judged reaper) :
    t.Judged reaper := by
  have clear : ∀ f ∈ reaper.condemned, ¬ s.Live f → ¬ t.Live f :=
    fun f condemned => quiet.not_live condemned
  cases reaper with
  | idle => trivial
  | scanning cutoff toRemove =>
      exact ⟨held.1.trans quiet.clock, fun f member => clear f member (held.2 f member)⟩
  | depthRead cutoff toRemove f handle =>
      obtain ⟨past, idle, entry, shows⟩ := held
      refine ⟨past.trans quiet.clock, fun g member => clear g member (idle g member),
        quiet.kept f handle entry, ?_⟩
      exact quiet.examined (.inl rfl) (fun _ allowed => allowed) past entry shows
  | activeRead cutoff toRemove f handle =>
      obtain ⟨past, idle, entry, shows⟩ := held
      refine ⟨past.trans quiet.clock, fun g member => clear g member (idle g member),
        quiet.kept f handle entry, ?_⟩
      exact quiet.examined (P := fun stage => stage = .slotted) rfl (fun _ allowed => .inl allowed)
        past entry shows
  | removing toRemove => exact fun f member => clear f member (held f member)
  | releasing f toRemove => exact fun g member => clear g member (held g member)
  | sweeping unchecked orphans => exact fun f member => clear f member (held f member)

theorem count_set {i : Nat} {h : Handler} (here : s.handlers[i]? = some h) {after : HandlerStage}
    (set : t.handlers = s.handlers.set i ⟨h.flowId, after⟩) (read : HandlerStage → Option Nat)
    (x : Nat) :
    UInt32.ofNat (t.count read x) + shown (read h.stage) x =
      UInt32.ofNat (s.count read x) + shown (read after) x := by
  have one : ∀ stage : HandlerStage,
      shown (read stage) x = UInt32.ofNat (if decide (read stage = some x) then 1 else 0) := by
    intro stage
    unfold shown
    by_cases on : read stage = some x <;> simp [on]
  have moved := Slots.countP_set here ⟨h.flowId, after⟩ fun h => decide (read h.stage = some x)
  have cast := congrArg UInt32.ofNat moved
  rw [UInt32.ofNat_add, UInt32.ofNat_add] at cast
  rw [one, one, count, count, set]
  exact cast

end ReapSystem

namespace ReapInv

variable {s t : ReapSystem}

theorem congr (inv : ReapInv s) (table : t.table = s.table) (handlers : t.handlers = s.handlers)
    (slots : t.slots.Consistent) (judged : t.Judged t.reaper) : ReapInv t where
  inRange := by
    rw [table]
    exact inv.inRange
  apart := by
    rw [table]
    exact inv.apart
  registered := by
    rw [table, handlers]
    exact inv.registered
  depth := by
    intro x
    rw [table, ReapSystem.count, handlers]
    exact inv.depth x
  active := by
    intro x
    rw [table, ReapSystem.count, ReapSystem.count, handlers]
    exact inv.active x
  judged := judged
  slots := slots

theorem posted (inv : ReapInv s) (posts : List PostedFlow) : ReapInv { s with posts } :=
  inv.congr rfl rfl inv.slots inv.judged

theorem receive (inv : ReapInv s) (f : FlowId) :
    ReapInv { s with handlers := s.handlers ++ [⟨f, .received⟩] } := by
  have counts : ∀ read : HandlerStage → Option Nat, read .received = none →
      ∀ x, ReapSystem.count { s with handlers := s.handlers ++ [⟨f, .received⟩] } read x =
        s.count read x := by
    intro read none_ x
    simp [ReapSystem.count, none_]
  constructor
  · exact inv.inRange
  · exact inv.apart
  · intro h member registered
    rcases List.mem_append.mp member with old | new
    · exact inv.registered h old registered
    · obtain rfl := List.mem_singleton.mp new
      cases registered
  · intro x
    rw [counts HandlerStage.guardOn rfl]
    exact inv.depth x
  · intro x
    rw [counts HandlerStage.lostOn rfl, counts HandlerStage.activeOn rfl]
    exact inv.active x
  · apply ReapSystem.Undisturbing.judged _ inv.judged
    refine ⟨le_rfl, fun _ _ found => found, fun _ _ _ => .inl rfl, fun h member live => ?_⟩
    rcases List.mem_append.mp member with old | new
    · exact .inl old
    · obtain rfl := List.mem_singleton.mp new
      cases live
  · exact inv.slots

theorem look (inv : ReapInv s) {t' : FlowTable} {f : FlowId} (move : TableMove s.table t' f s.clock)
    (depth : ∀ x, t'.depth x = s.table.depth x) (active : ∀ x, t'.active x = s.table.active x) :
    ReapInv { s with table := t' } where
  inRange := fun _ _ found => move.inRange inv.inRange found
  apart := fun _ _ _ first second => move.apart inv.inRange inv.apart first second
  registered := by
    intro h member registered
    obtain ⟨x, found, same⟩ := inv.registered h member registered
    exact ⟨x, move.kept _ _ found, same⟩
  depth := fun x => (depth x).trans (inv.depth x)
  active := by
    intro x
    change t'.active x + _ = _
    rw [active]
    exact inv.active x
  judged := by
    apply ReapSystem.Undisturbing.judged _ inv.judged
    exact ⟨le_rfl, move.kept, move.seen, fun h member _ => .inl member⟩
  slots := inv.slots

theorem handled (inv : ReapInv s) {i : Nat} {h : Handler} (here : s.handlers[i]? = some h)
    {step : HandlerStep} {after : HandlerStage} {t' : FlowTable}
    (moved : handlerStep s.table s.clock h.flowId h.stage step = some (after, t'))
    (fresh : after.live = true → h.stage.live = true ∨ h.flowId ∉ s.reaper.condemned) :
    ReapInv { s with table := t', handlers := s.handlers.set i ⟨h.flowId, after⟩ } := by
  have member := List.mem_of_getElem? here
  have move := handlerStep_spec inv.inRange (inv.registered h member) moved
  constructor
  · exact fun _ _ found => move.table.inRange inv.inRange found
  · exact fun _ _ _ first second => move.table.apart inv.inRange inv.apart first second
  · intro g new registered
    rcases List.mem_or_eq_of_mem_set new with old | rfl
    · obtain ⟨x, found, same⟩ := inv.registered g old registered
      exact ⟨x, move.table.kept _ _ found, same⟩
    · exact move.registered registered
  · intro x
    have counted := ReapSystem.count_set (t := { s with
      table := t', handlers := s.handlers.set i ⟨h.flowId, after⟩ }) here rfl
      HandlerStage.guardOn x
    have shift := move.depth x
    rw [inv.depth x, ← counted] at shift
    grind
  · intro x
    have lost := ReapSystem.count_set (t := { s with
      table := t', handlers := s.handlers.set i ⟨h.flowId, after⟩ }) here rfl
      HandlerStage.lostOn x
    have running := ReapSystem.count_set (t := { s with
      table := t', handlers := s.handlers.set i ⟨h.flowId, after⟩ }) here rfl
      HandlerStage.activeOn x
    have shift := move.active x
    have before := inv.active x
    rw [move.final, shown_none, UInt32.add_zero] at lost
    grind
  · apply ReapSystem.Undisturbing.judged _ inv.judged
    refine ⟨le_rfl, move.table.kept, move.table.seen, ?_⟩
    intro g new live
    rcases List.mem_or_eq_of_mem_set new with old | rfl
    · exact .inl old
    · refine .inr ⟨fun condemned => ?_, .inr ?_⟩
      · rcases fresh live with was | free
        · exact ⟨h, member, rfl, was⟩
        · exact absurd condemned free
      · by_cases marked : h.stage.live = true → h.stage = .slotted ∨ h.stage.activeOn.isSome = true
        · exact .inl (move.looks live marked)
        · push Not at marked
          obtain ⟨was, notSlotted, notActive⟩ := marked
          refine .inr ⟨h, member, rfl, was, notSlotted, ?_⟩
          simpa using notActive
  · exact inv.slots

/-! The readings of the reaper. -/

/-- A depth of zero shows that no request of the flow has a guard. -/
theorem depth_read (inv : ReapInv s) {f : FlowId} {handle : Nat}
    (entry : s.table.entries.lookup f = some handle) (zero : s.table.depth handle = 0)
    (watched : s.count HandlerStage.guardOn handle % 4294967296 = 0 →
      s.count HandlerStage.guardOn handle = 0 ∧ ¬ s.Stands f HandlerStage.unmarked) :
    ∀ h ∈ s.handlers, h.flowId = f → h.stage.live = true →
      h.stage = .slotted ∨ h.stage.activeOn.isSome = true := by
  have wrapped : s.count HandlerStage.guardOn handle % 4294967296 = 0 := by
    have counted := (inv.depth handle).symm.trans zero
    simpa using congrArg UInt32.toNat counted
  obtain ⟨none_, marked⟩ := watched wrapped
  rintro h member rfl live
  have unguarded : h.stage.guardOn ≠ some handle := by
    intro on
    have positive : 0 < s.count HandlerStage.guardOn handle :=
      List.countP_pos_iff.mpr ⟨h, member, by simpa using on⟩
    omega
  have noneMarked : h.stage.unmarked ≠ true := fun is => marked ⟨h, member, rfl, is⟩
  have known : h.stage.registered = true → ∀ x ∈ h.stage.handles, x = handle := by
    intro registered x holds
    obtain ⟨y, found, same⟩ := inv.registered h member registered
    rw [same x holds]
    exact Option.some.inj (found.symm.trans entry)
  cases stage : h.stage <;>
    simp_all [HandlerStage.live, HandlerStage.registered, HandlerStage.unmarked,
      HandlerStage.handles, HandlerStage.guardOn, HandlerStage.activeOn]

/-- An active count of zero shows that no request of the flow executes. -/
theorem active_read (inv : ReapInv s) {f : FlowId} {handle : Nat}
    (entry : s.table.entries.lookup f = some handle) (zero : s.table.active handle = 0)
    (watched : s.count HandlerStage.activeOn handle % 4294967296 =
      s.count HandlerStage.lostOn handle % 4294967296 → s.count HandlerStage.activeOn handle = 0) :
    ∀ h ∈ s.handlers, h.flowId = f → h.stage.activeOn.isSome = false := by
  have balanced : s.count HandlerStage.activeOn handle % 4294967296 =
      s.count HandlerStage.lostOn handle % 4294967296 := by
    have counted := inv.active handle
    rw [zero, UInt32.zero_add] at counted
    simpa using (congrArg UInt32.toNat counted).symm
  have none_ := watched balanced
  rintro h member rfl
  cases stage : h.stage with
  | executing handle' ticket =>
      obtain ⟨y, found, same⟩ := inv.registered h member (by rw [stage]; rfl)
      have holds := same handle' (by rw [stage]; simp [HandlerStage.handles])
      have here : handle' = handle := holds.trans (Option.some.inj (found.symm.trans entry))
      have positive : 0 < s.count HandlerStage.activeOn handle :=
        List.countP_pos_iff.mpr ⟨h, member, by simp [stage, HandlerStage.activeOn, here]⟩
      omega
  | _ => rfl

theorem slotted_of_absent (inv : ReapInv s) {h : Handler} (member : h ∈ s.handlers)
    (live : h.stage.live = true) (absent : h.flowId ∉ s.table.entries) : h.stage = .slotted := by
  have unregistered : h.stage.registered ≠ true := by
    intro registered
    obtain ⟨handle, found, -⟩ := inv.registered h member registered
    exact absent (Assoc.mem_iff_lookup.mpr ⟨handle, found⟩)
  cases stage : h.stage <;> simp_all [HandlerStage.live, HandlerStage.registered]

/-! What the reaper concludes from a reading. -/

variable {cutoff handle : Nat} {f : FlowId} {toRemove rest orphans : List FlowId}

theorem judged_depthRead (inv : ReapInv s) (pc : s.reaper = .scanning cutoff toRemove)
    (entry : s.table.entries.lookup f = some handle) (zero : s.table.depth handle = 0)
    (watched : Watched s (.readDepth f)) : s.Judged (.depthRead cutoff toRemove f handle) := by
  have held := inv.judged
  rw [pc] at held
  refine ⟨held.1, held.2, entry, fun overdue => ?_⟩
  apply inv.depth_read entry zero
  exact watched handle entry ⟨cutoff, by simp [pc, Reaper.cutoff], handle, entry, overdue⟩

theorem judged_activeRead (inv : ReapInv s) (pc : s.reaper = .depthRead cutoff toRemove f handle)
    (zero : s.table.active handle = 0) (watched : Watched s .readActive) :
    s.Judged (.activeRead cutoff toRemove f handle) := by
  have held := inv.judged
  rw [pc] at held
  obtain ⟨past, idle, entry, shows⟩ := held
  refine ⟨past, idle, entry, fun overdue h member same live => ?_⟩
  have inactive := inv.active_read entry zero
    (watched (f, handle) (by simp [pc, Reaper.examined])
      ⟨cutoff, by simp [pc, Reaper.cutoff], handle, entry, overdue⟩) h member same
  rcases shows overdue h member same live with slotted | active
  · exact slotted
  · simp [inactive] at active

theorem judged_condemned (inv : ReapInv s) (pc : s.reaper = .activeRead cutoff toRemove f handle)
    (overdue : s.table.lastSeen handle < cutoff) (watched : Watched s .readLastSeen) :
    s.Judged (.scanning cutoff (toRemove ++ [f])) := by
  have held := inv.judged
  rw [pc] at held
  obtain ⟨past, idle, entry, shows⟩ := held
  refine ⟨past, fun g member => ?_⟩
  rcases List.mem_append.mp member with earlier | last
  · exact idle g earlier
  · obtain rfl := List.mem_singleton.mp last
    -- Whoever is live after the first two reads has only a slot.
    rintro ⟨h, listed, same, live⟩
    refine watched (g, handle) (by simp [pc, Reaper.examined])
      ⟨cutoff, by simp [pc, Reaper.cutoff], handle, entry, overdue⟩ ⟨h, listed, same, ?_⟩
    rw [shows overdue h listed same live]
    rfl

theorem judged_orphan (inv : ReapInv s) (pc : s.reaper = .sweeping (f :: rest) orphans)
    (absent : f ∉ s.table.entries) (watched : Watched s .checkEntry) :
    s.Judged (.sweeping rest (orphans ++ [f])) := by
  have held := inv.judged
  rw [pc] at held
  intro g member
  rcases List.mem_append.mp member with earlier | last
  · exact held g earlier
  · obtain rfl := List.mem_singleton.mp last
    rintro ⟨h, listed, rfl, live⟩
    refine watched h.flowId (by simp [pc, Reaper.sought]) absent ⟨h, listed, rfl, ?_⟩
    rw [inv.slotted_of_absent listed live absent]
    rfl

theorem remove (inv : ReapInv s) (idle : ¬ s.Live f) {reaper : Reaper}
    (judged : ({ s with table := s.table.remove f, reaper := reaper } : ReapSystem).Judged reaper) :
    ReapInv { s with table := s.table.remove f, reaper := reaper } := by
  have old : ∀ {g handle}, (s.table.remove f).entries.lookup g = some handle →
      s.table.entries.lookup g = some handle := by
    intro g handle found
    rw [FlowTable.remove, Assoc.lookup_erase] at found
    split at found
    · cases found
    · exact found
  constructor
  · exact fun g handle found => inv.inRange g handle (old found)
  · exact fun g h handle first second => inv.apart g h handle (old first) (old second)
  · intro h member registered
    have other : h.flowId ≠ f := by
      rintro rfl
      refine idle ⟨h, member, rfl, ?_⟩
      cases stage : h.stage <;> simp_all [HandlerStage.live, HandlerStage.registered]
    obtain ⟨handle, found, same⟩ := inv.registered h member registered
    exact ⟨handle, by rw [FlowTable.remove, Assoc.lookup_erase, if_neg other, found], same⟩
  · exact inv.depth
  · exact inv.active
  · exact judged
  · exact inv.slots

end ReapInv

theorem Spared.of_kept {s t : ReapSystem} {action : ReapAction}
    (entries : ∀ f handle, s.Live f → s.table.entries.lookup f = some handle →
      t.table.entries.lookup f = some handle)
    (slots : ∀ f slot, s.Live f → s.slots.assignments.lookup f = some slot →
      t.slots.assignments.lookup f = some slot)
    (other : ∀ i slotCount, action ≠ .assignSlot i slotCount) : Spared s action t where
  entry := entries
  slot := fun f slot live found => .inl (slots f slot live found)
  handed := fun _ _ i slotCount _ _ is => absurd is (other i slotCount)

theorem Spared.of_removed {s : ReapSystem} {action : ReapAction} {f : FlowId} (idle : ¬ s.Live f)
    (reaper : Reaper) (other : ∀ i slotCount, action ≠ .assignSlot i slotCount) :
    Spared s action { s with table := s.table.remove f, reaper := reaper } := by
  refine .of_kept ?_ (fun _ _ _ found => found) other
  intro g handle live found
  have apart : g ≠ f := by
    rintro rfl
    exact idle live
  rw [FlowTable.remove, Assoc.lookup_erase, if_neg apart]
  exact found

theorem Spared.of_released {s : ReapSystem} {action : ReapAction} {f : FlowId} (idle : ¬ s.Live f)
    (reaper : Reaper) (other : ∀ i slotCount, action ≠ .assignSlot i slotCount) :
    Spared s action { s with slots := s.slots.release f, reaper := reaper } := by
  refine .of_kept (fun _ _ _ found => found) ?_ other
  intro g slot live found
  have apart : g ≠ f := by
    rintro rfl
    exact idle live
  rw [SlotAllocator.lookup_release, if_neg apart]
  exact found

theorem ReapInv.reaped {s : ReapSystem} (inv : ReapInv s) {action : ReapAction}
    (watched : Watched s action) {reaper : Reaper} {table : FlowTable} {slots : SlotAllocator}
    (moved : s.reaper.next s.clock s.table s.slots action = some (reaper, table, slots)) :
    ReapInv { s with reaper := reaper, table := table, slots := slots } ∧
      Spared s action { s with reaper := reaper, table := table, slots := slots } := by
  have held := inv.judged
  have reading : ∀ reaper', s.Judged reaper' →
      (∀ i slotCount, action ≠ .assignSlot i slotCount) →
      ReapInv { s with reaper := reaper' } ∧ Spared s action { s with reaper := reaper' } := by
    intro reaper' judged other
    refine ⟨inv.congr rfl rfl inv.slots judged, ?_⟩
    exact .of_kept (fun _ _ _ found => found) (fun _ _ _ found => found) other
  cases pc : s.reaper with
  | idle =>
      rw [pc] at moved
      cases action <;>
        simp only [Reaper.next, reduceCtorEq, Option.some.injEq, Prod.mk.injEq] at moved
      obtain ⟨rfl, rfl, rfl⟩ := moved
      exact reading _ ⟨Nat.sub_le _ _, by simp⟩ nofun
  | scanning cutoff toRemove =>
      rw [pc] at moved held
      cases action <;>
        simp only [Reaper.next, reduceCtorEq, Option.some.injEq, Prod.mk.injEq] at moved
      case readDepth f =>
        split at moved
        · rename_i handle entry
          split at moved
          · rename_i zero
            obtain ⟨rfl, rfl, rfl⟩ := by simpa using moved
            exact reading _ (inv.judged_depthRead pc entry zero watched) nofun
          · obtain ⟨rfl, rfl, rfl⟩ := by simpa using moved
            exact reading _ held nofun
        · cases moved
      case collected =>
        obtain ⟨rfl, rfl, rfl⟩ := moved
        exact reading _ held.2 nofun
  | depthRead cutoff toRemove f handle =>
      rw [pc] at moved held
      cases action <;> simp only [Reaper.next, reduceCtorEq] at moved
      split at moved
      · rename_i zero
        obtain ⟨rfl, rfl, rfl⟩ := by simpa using moved
        exact reading _ (inv.judged_activeRead pc zero watched) nofun
      · obtain ⟨rfl, rfl, rfl⟩ := by simpa using moved
        exact reading _ ⟨held.1, held.2.1⟩ nofun
  | activeRead cutoff toRemove f handle =>
      rw [pc] at moved held
      cases action <;> simp only [Reaper.next, reduceCtorEq] at moved
      split at moved
      · rename_i overdue
        obtain ⟨rfl, rfl, rfl⟩ := by simpa using moved
        exact reading _ (inv.judged_condemned pc overdue watched) nofun
      · obtain ⟨rfl, rfl, rfl⟩ := by simpa using moved
        exact reading _ ⟨held.1, held.2.1⟩ nofun
  | removing toRemove =>
      rw [pc] at moved held
      cases toRemove with
      | nil =>
          cases action <;>
            simp only [Reaper.next, reduceCtorEq, Option.some.injEq, Prod.mk.injEq] at moved
          obtain ⟨rfl, rfl, rfl⟩ := moved
          exact reading _ (by simp [ReapSystem.Judged]) nofun
      | cons f rest =>
          cases action <;>
            simp only [Reaper.next, reduceCtorEq, Option.some.injEq, Prod.mk.injEq] at moved
          obtain ⟨rfl, rfl, rfl⟩ := moved
          have idle := held f List.mem_cons_self
          exact ⟨inv.remove idle held, .of_removed idle _ nofun⟩
  | releasing f toRemove =>
      rw [pc] at moved held
      cases action <;>
        simp only [Reaper.next, reduceCtorEq, Option.some.injEq, Prod.mk.injEq] at moved
      obtain ⟨rfl, rfl, rfl⟩ := moved
      have later : ∀ g ∈ toRemove, ¬ s.Live g :=
        fun g member => held g (List.mem_cons_of_mem _ member)
      exact ⟨inv.congr rfl rfl (inv.slots.release f) later,
        .of_released (held f List.mem_cons_self) _ nofun⟩
  | sweeping unchecked orphans =>
      rw [pc] at moved held
      cases unchecked with
      | nil =>
          cases action <;>
            simp only [Reaper.next, reduceCtorEq, Option.some.injEq, Prod.mk.injEq] at moved
          obtain ⟨rfl, rfl, rfl⟩ := moved
          obtain ⟨consistent, lookups, -⟩ := inv.slots.sweep fun f => decide (f ∉ orphans)
          refine ⟨inv.congr rfl rfl consistent trivial, .of_kept (fun _ _ _ found => found) ?_ nofun⟩
          intro g slot live found
          have kept : decide (g ∉ orphans) = true := by
            simpa using fun orphan => held g orphan live
          rw [lookups, if_pos kept]
          exact found
      | cons f rest =>
          cases action <;> simp only [Reaper.next, reduceCtorEq] at moved
          split at moved
          · obtain ⟨rfl, rfl, rfl⟩ := by simpa using moved
            exact reading _ held nofun
          · rename_i absent
            obtain ⟨rfl, rfl, rfl⟩ := by simpa using moved
            exact reading _ (inv.judged_orphan pc absent watched) nofun

theorem ReapInv.assigned {s : ReapSystem} (inv : ReapInv s) {i : Nat} {f : FlowId}
    {slotCount : UInt32} (here : s.handlers[i]? = some ⟨f, .received⟩) (some_ : slotCount ≠ 0)
    (watched : Watched s (.assignSlot i slotCount)) :
    let t := { s with
      slots := (s.slots.assign f slotCount).2, handlers := s.handlers.set i ⟨f, .slotted⟩ }
    ReapInv t ∧ Spared s (.assignSlot i slotCount) t := by
  intro t
  have flow : s.flowOf i = some f := by simp [ReapSystem.flowOf, here]
  obtain ⟨fresh, room⟩ := watched
  obtain ⟨consistent, assigned⟩ := inv.slots.assign f some_ fun slot =>
    ((s.slots.assign f slotCount).2.holders_le slot).trans_lt
      ((s.slots.length_assign_le f slotCount).trans_lt room)
  have counts : ∀ read : HandlerStage → Option Nat, read .received = none → read .slotted = none →
      ∀ x, UInt32.ofNat (t.count read x) = UInt32.ofNat (s.count read x) := by
    intro read before after x
    have moved := ReapSystem.count_set (s := s) (t := t) here rfl read x
    rwa [before, after, shown_none, UInt32.add_zero, UInt32.add_zero] at moved
  refine ⟨⟨inv.inRange, inv.apart, ?_, ?_, ?_, ?_, consistent⟩, ⟨fun _ _ _ found => found, ?_, ?_⟩⟩
  · intro h member registered
    rcases List.mem_or_eq_of_mem_set member with old | rfl
    · exact inv.registered h old registered
    · cases registered
  · intro x
    rw [counts HandlerStage.guardOn rfl rfl]
    exact inv.depth x
  · intro x
    rw [counts HandlerStage.lostOn rfl rfl, counts HandlerStage.activeOn rfl rfl]
    exact inv.active x
  · apply ReapSystem.Undisturbing.judged _ inv.judged
    refine ⟨le_rfl, fun _ _ found => found, fun _ _ _ => .inl rfl, fun h member live => ?_⟩
    rcases List.mem_or_eq_of_mem_set member with old | rfl
    · exact .inl old
    · exact .inr ⟨fun condemned => absurd condemned (fresh f flow), .inl rfl⟩
  · intro g slot _ found
    by_cases same : g = f
    · subst g
      by_cases inRange : slot < slotCount
      · obtain ⟨rfl, -⟩ := assigned.kept slot found inRange
        exact .inl assigned.recorded
      · exact .inr ⟨i, slotCount, _, rfl, flow, inRange, assigned.recorded⟩
    · exact .inl ((assigned.others g same).trans found)
  · intro g slot j count h taken is who other moved given
    obtain ⟨rfl, rfl⟩ := ReapAction.assignSlot.inj is
    obtain rfl := Option.some.inj (flow.symm.trans who)
    exact assigned.saturated inv.slots taken moved given

/-- Every step keeps the invariant and spares live flows. -/
theorem ReapInv.next {s t : ReapSystem} (inv : ReapInv s) {action : ReapAction}
    {event : Option Empty} (watched : Watched s action) (moved : nextReap s action = some (t, event)) :
    ReapInv t ∧ Spared s action t := by
  have others : ∀ {t : ReapSystem}, ReapInv t → t.slots = s.slots →
      (∀ g handle, s.table.entries.lookup g = some handle →
        t.table.entries.lookup g = some handle) →
      (∀ i slotCount, action ≠ .assignSlot i slotCount) → ReapInv t ∧ Spared s action t := by
    intro t held slots kept other
    refine ⟨held, .of_kept (fun f handle _ => kept f handle) (fun f slot _ found => ?_) other⟩
    rw [slots]
    exact found
  cases action with
  | tick seconds =>
      simp only [nextReap, Option.some.injEq, Prod.mk.injEq] at moved
      obtain ⟨rfl, -⟩ := moved
      refine others (inv.congr rfl rfl inv.slots ?_) rfl (fun _ _ found => found) nofun
      apply ReapSystem.Undisturbing.judged _ inv.judged
      exact ⟨Nat.le_add_right _ _, fun _ _ found => found, fun _ _ _ => .inl rfl,
        fun h member _ => .inl member⟩
  | receive f =>
      simp only [nextReap, Option.some.injEq, Prod.mk.injEq] at moved
      obtain ⟨rfl, -⟩ := moved
      exact others (inv.receive f) rfl (fun _ _ found => found) nofun
  | assignSlot i slotCount =>
      simp only [nextReap] at moved
      split at moved
      · rename_i f here
        split at moved
        · cases moved
        · rename_i enabled
          simp only [Option.some.injEq, Prod.mk.injEq] at moved
          obtain ⟨rfl, -⟩ := moved
          exact inv.assigned here (fun zero => enabled (.inl zero)) watched
      · cases moved
  | handle i step =>
      simp only [nextReap] at moved
      split at moved
      · rename_i h here
        obtain ⟨⟨after, t'⟩, stepped, same⟩ := Option.map_eq_some_iff.mp moved
        simp only [Prod.mk.injEq] at same
        obtain ⟨rfl, -⟩ := same
        have move := handlerStep_spec inv.inRange
          (inv.registered h (List.mem_of_getElem? here)) stepped
        refine others (inv.handled here stepped fun live => ?_) rfl move.table.kept nofun
        rcases handlerStep_begins stepped live with was | ⟨priority, rfl⟩
        · exact .inl was
        · exact .inr (watched h.flowId (by simp [ReapSystem.flowOf, here]))
      · cases moved
  | access f =>
      simp only [nextReap, Option.some.injEq, Prod.mk.injEq] at moved
      obtain ⟨rfl, -⟩ := moved
      have looked := lookup_getOrCreate (inv.inRange f) s.clock
      exact others (inv.look looked.move looked.depth looked.active) rfl looked.move.kept nofun
  | register r =>
      simp only [nextReap] at moved
      split at moved
      · rename_i table updated
        simp only [Option.some.injEq, Prod.mk.injEq] at moved
        obtain ⟨rfl, -⟩ := moved
        obtain ⟨handle, looked⟩ := Lookup.register (inv.inRange r.id) updated
        exact others (inv.look looked.move looked.depth looked.active) rfl looked.move.kept nofun
      · simp only [Option.some.injEq, Prod.mk.injEq] at moved
        obtain ⟨rfl, -⟩ := moved
        exact others (inv.posted _) rfl (fun _ _ found => found) nofun
  | registerNew i =>
      obtain ⟨post, here, same⟩ := Option.map_eq_some_iff.mp moved
      simp only [Prod.mk.injEq] at same
      obtain ⟨rfl, -⟩ := same
      have move := TableMove.registerNew inv.inRange (watched post here) post.now s.clock
      have looked := inv.look move (depth_insert _ rfl) (active_insert _ rfl)
      exact others (looked.posted _) rfl move.kept nofun
  | reap | readDepth | readActive | readLastSeen | collected | removeEntry | releaseSlot | lockSlots
  | checkEntry | dropOrphans =>
      obtain ⟨⟨reaper, table, slots⟩, stepped, same⟩ := Option.map_eq_some_iff.mp moved
      simp only [Prod.mk.injEq] at same
      obtain ⟨rfl, -⟩ := same
      exact inv.reaped watched stepped

/-- In a run whose steps all meet the condition no live flow loses its entry or its
    slot, and no other flow gets the slot while one is free. -/
theorem live_flows_spared {defaultWeight : F64} {defaultPriority : Nat}
    {ts : List (Transition ReapSystem ReapAction Empty)} {t : ReapSystem}
    (run : (reaping defaultWeight defaultPriority).Exec
      (reaping defaultWeight defaultPriority).start ts t)
    (watched : ∀ tr ∈ ts, Watched tr.pre tr.action) :
    ∀ tr ∈ ts, Spared tr.pre tr.action tr.post := by
  intro tr member
  obtain ⟨before, after, rfl, first, -⟩ := run.split_of_mem member
  have step := run.step_of_mem member
  have inv : ReapInv tr.pre := by
    apply first.invariant_within (I := ReapInv) (C := fun tr => Watched tr.pre tr.action) _
      (ReapInv.start defaultWeight defaultPriority)
    · intro v a w e held watched moved
      exact (held.next watched moved).1
    · exact fun tr member => watched tr (List.mem_append_left _ member)
  exact (inv.next (watched tr member) step).2

/-- A request that executes through one pass of the reaper and is done before the next. -/
def servedRun : List ReapAction :=
  [.receive ⟨"a"⟩, .assignSlot 0 8, .handle 0 (.override (some (100, 1))),
    .handle 0 (.enterGates none), .handle 0 .passGates, .handle 0 .createGuard, .handle 0 .select,
    .handle 0 .consume, .handle 0 .incActive, .tick 601, .reap 600, .readDepth ⟨"a"⟩, .readActive,
    .collected, .lockSlots, .checkEntry, .dropOrphans, .handle 0 .dropTicket, .tick 601, .reap 600,
    .readDepth ⟨"a"⟩, .readActive, .readLastSeen, .collected, .removeEntry, .releaseSlot,
    .lockSlots, .dropOrphans]

theorem live_flows_spared_served :
    ((reaping (.fin 1) 50).trace servedRun).length = 28 ∧
      ∀ tr ∈ (reaping (.fin 1) 50).trace servedRun, Spared tr.pre tr.action tr.post :=
  ⟨by decide +kernel, live_flows_spared (Machine.exec_after _ servedRun) (by decide +kernel)⟩

/-- A request waits at the KV gate for longer than the time to live. -/
def gateRun : List ReapAction :=
  [.receive ⟨"a"⟩, .assignSlot 0 8, .handle 0 (.override none), .handle 0 (.enterGates none),
    .tick 601, .reap 600, .readDepth ⟨"a"⟩, .readActive, .readLastSeen, .collected, .removeEntry]

/-- A sweep comes between `assign_slot` and the first lookup of the flow. -/
def sweepRun : List ReapAction :=
  [.receive ⟨"a"⟩, .assignSlot 0 8, .reap 600, .collected, .lockSlots, .checkEntry, .dropOrphans]

/-- In the first run the flow loses its entry while it is live, in the second its slot. -/
theorem live_flow_reaped :
    (∃ tr ∈ (reaping (.fin 1) 50).trace gateRun, ¬ Spared tr.pre tr.action tr.post) ∧
      ∃ tr ∈ (reaping (.fin 1) 50).trace sweepRun, ¬ Spared tr.pre tr.action tr.post := by
  constructor
  · have lost : ∃ tr ∈ (reaping (.fin 1) 50).trace gateRun, tr.pre.Live ⟨"a"⟩ ∧
        tr.pre.table.entries.lookup ⟨"a"⟩ = some 0 ∧
        tr.post.table.entries.lookup ⟨"a"⟩ = none := by decide +kernel
    obtain ⟨tr, member, live, entry, gone⟩ := lost
    refine ⟨tr, member, fun spared => ?_⟩
    have kept := spared.entry ⟨"a"⟩ 0 live entry
    simp [gone] at kept
  · have lost : ∃ tr ∈ (reaping (.fin 1) 50).trace sweepRun, tr.pre.Live ⟨"a"⟩ ∧
        tr.pre.slots.assignments.lookup ⟨"a"⟩ ≠ none ∧
        tr.post.slots.assignments.lookup ⟨"a"⟩ = none := by decide +kernel
    obtain ⟨tr, member, live, assigned, gone⟩ := lost
    refine ⟨tr, member, fun spared => ?_⟩
    obtain ⟨slot, found⟩ := Option.ne_none_iff_exists'.mp assigned
    rcases spared.slot ⟨"a"⟩ slot live found with kept | ⟨-, -, slot', -, -, -, kept⟩
    · simp [gone] at kept
    · simp [gone] at kept

end TinyLlb
