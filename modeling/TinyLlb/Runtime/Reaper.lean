import TinyLlb.Runtime.DepthGauge
import TinyLlb.Runtime.FlowTable
import TinyLlb.SlotAllocator

/-! # The idle reaper and the handlers it runs beside

`reap_idle` reads the three cells of an object one after the other, removes the entries it
has collected one by one, and releases a slot after each; a last pass looks for slots whose
flow has no entry. The handlers assign slots, look flows up and move the counters between
any two of these steps. A `POST /flows` that finds no entry inserts its own in a step of
its own, whatever has become of the flow by then.
-/

namespace TinyLlb

/-- How far the handler of an inference request has come. -/
inductive HandlerStage where
  /-- It has no slot and has not looked its flow up. -/
  | received
  /-- `assign_slot` has returned. -/
  | slotted
  /-- The priority override has looked the flow up. -/
  | overridden
  /-- `admit_with_turn_boundary` has looked the flow up; the KV gate and the stall gate. -/
  | atGates
  /-- `DrrScheduler::admit` holds a handle. -/
  | entered (handle : Nat)
  /-- The guard is made. -/
  | queued (handle : Nat)
  /-- The admission loop has sent a ticket, which has a handle of its own. -/
  | sent (handle ticket : Nat)
  /-- The guard is consumed. -/
  | consumed (handle ticket : Nat)
  | executing (handle ticket : Nat)
  /-- Cancelled with the ticket still in the channel. -/
  | lost (ticket : Nat)
  | finished
  deriving DecidableEq

namespace HandlerStage

/-- The handler has its flow's slot or entry and is not done with it. -/
def live : HandlerStage → Bool
  | received | lost _ | finished => false
  | _ => true

/-- The handler has looked its flow up. -/
def registered : HandlerStage → Bool
  | received | slotted | lost _ | finished => false
  | _ => true

/-- Neither the depth nor the active count of the flow shows the handler. -/
def unmarked : HandlerStage → Bool
  | overridden | atGates | entered _ | consumed _ _ => true
  | _ => false

def handles : HandlerStage → List Nat
  | entered handle | queued handle => [handle]
  | sent handle ticket | consumed handle ticket | executing handle ticket => [handle, ticket]
  | _ => []

/-- The object whose depth counts the handler. -/
def guardOn : HandlerStage → Option Nat
  | queued handle | sent handle _ => some handle
  | _ => none

/-- The object whose active count counts the handler. -/
def activeOn : HandlerStage → Option Nat
  | executing handle _ => some handle
  | _ => none

/-- The object whose active count a dropped ticket was taken from in vain. -/
def lostOn : HandlerStage → Option Nat
  | lost ticket => some ticket
  | _ => none

end HandlerStage

structure Handler where
  flowId : FlowId
  stage : HandlerStage
  deriving DecidableEq

/-- A step of a handler, other than `assign_slot`. -/
inductive HandlerStep where
  | override (priority : Option (Nat × Nat))
  | enterGates (priority : Option (Nat × Nat))
  | passGates
  | createGuard
  | select
  | consume
  | incActive
  | dropTicket
  /-- Rejected, failed or abandoned by the client before it has its ticket. -/
  | cancel

/-- What a step of a handler does to its stage and to the objects. -/
def handlerStep (t : FlowTable) (now : Nat) (f : FlowId) :
    HandlerStage → HandlerStep → Option (HandlerStage × FlowTable)
  | .received, .override priority | .slotted, .override priority =>
      some (.overridden, t.prioritize f now priority)
  | .overridden, .enterGates priority => some (.atGates, t.prioritize f now priority)
  | .atGates, .passGates => some (.entered (t.getOrCreate f now).1, (t.getOrCreate f now).2)
  | .entered handle, .createGuard => some (.queued handle, t.update handle Flow.incDepth)
  | .queued handle, .select => some (.sent handle (t.getOrCreate f now).1, (t.getOrCreate f now).2)
  | .sent handle ticket, .consume => some (.consumed handle ticket, t.update handle Flow.decDepth)
  | .consumed handle ticket, .incActive =>
      some (.executing handle ticket, t.update handle Flow.incActive)
  | .executing _ ticket, .dropTicket => some (.finished, t.update ticket Flow.decActive)
  | .received, .cancel | .slotted, .cancel | .overridden, .cancel | .atGates, .cancel
  | .entered _, .cancel => some (.finished, t)
  | .queued handle, .cancel => some (.finished, t.update handle Flow.decDepth)
  | .sent handle ticket, .cancel =>
      some (.lost ticket, (t.update ticket Flow.decActive).update handle Flow.decDepth)
  | _, _ => none

structure HandlerMove (t t' : FlowTable) (f : FlowId) (now : Nat) (before after : HandlerStage) :
    Prop where
  table : TableMove t t' f now
  /-- A handler that has looked its flow up holds the object of the entry. -/
  registered : after.registered = true →
    ∃ handle, t'.entries.lookup f = some handle ∧ ∀ x ∈ after.handles, x = handle
  depth : ∀ x, t'.depth x + shown before.guardOn x = t.depth x + shown after.guardOn x
  active : ∀ x, t'.active x + shown before.activeOn x + shown after.lostOn x =
    t.active x + shown after.activeOn x
  final : before.lostOn = none
  /-- A handler that no counter shows, or only the active count, looks its flow up. -/
  looks : after.live = true → (before.live = true → before = .slotted ∨ before.activeOn.isSome) →
    ∀ handle, t'.entries.lookup f = some handle → t'.lastSeen handle = now

section

open FlowTable

variable {t t' : FlowTable} {f : FlowId} {now handle : Nat} {before after : HandlerStage}
  {step : HandlerStep}

theorem HandlerMove.of_lookup (look : Lookup t t' f now handle) (live : before.lostOn = none)
    (holds : ∀ x ∈ after.handles, x = handle) (guard : after.guardOn = before.guardOn)
    (active : after.activeOn = before.activeOn) (found : after.lostOn = none) :
    HandlerMove t t' f now before after where
  table := look.move
  registered := fun _ => ⟨handle, look.found, holds⟩
  depth := fun x => by rw [look.depth, guard]
  active := fun x => by
    rw [look.active, active, found]
    exact UInt32.add_zero _
  final := live
  looks := by
    intro _ _ x here
    obtain rfl := Option.some.inj (look.found.symm.trans here)
    exact look.now_

theorem HandlerMove.of_marked (table : TableMove t t' f now)
    (held : after.registered = true →
      ∃ handle, t'.entries.lookup f = some handle ∧ ∀ x ∈ after.handles, x = handle)
    (depth : ∀ x, t'.depth x + shown before.guardOn x = t.depth x + shown after.guardOn x)
    (active : ∀ x, t'.active x + shown before.activeOn x + shown after.lostOn x =
      t.active x + shown after.activeOn x)
    (final : before.lostOn = none)
    (looked : after.live = true → before.live = true ∧ before ≠ .slotted ∧ before.activeOn = none) :
    HandlerMove t t' f now before after where
  table := table
  registered := held
  depth := depth
  active := active
  final := final
  looks := by
    intro live marked
    obtain ⟨was, notSlotted, notActive⟩ := looked live
    rcases marked was with slotted | executing
    · exact absurd slotted notSlotted
    · simp [notActive] at executing

theorem handlerStep_spec (inRange : ∀ f x, t.entries.lookup f = some x → x < t.cells.length)
    (held : before.registered = true →
      ∃ handle, t.entries.lookup f = some handle ∧ ∀ x ∈ before.handles, x = handle)
    (moved : handlerStep t now f before step = some (after, t')) :
    HandlerMove t t' f now before after := by
  have bounds : before.registered = true → ∀ x ∈ before.handles, x < t.cells.length := by
    intro registered x member
    obtain ⟨entry, found, same⟩ := held registered
    rw [same x member]
    exact inRange f entry found
  unfold handlerStep at moved
  split at moved
  all_goals try simp only [Option.some.injEq, Prod.mk.injEq, reduceCtorEq] at moved
  all_goals try obtain ⟨rfl, rfl⟩ := moved
  case h_1 | h_2 | h_3 =>
    exact .of_lookup (Lookup.prioritize (inRange f) now _) rfl (by simp [HandlerStage.handles])
      rfl rfl rfl
  case h_4 =>
    exact .of_lookup (lookup_getOrCreate (inRange f) now) rfl (by simp [HandlerStage.handles])
      rfl rfl rfl
  case h_5 handle =>
    -- `createGuard`
    have bound := bounds rfl handle (by simp [HandlerStage.handles])
    refine .of_marked (.write (.refl t f now) handle _) held ?_ ?_ rfl fun _ => ⟨rfl, nofun, rfl⟩
    · intro x
      rw [depth_incDepth bound]
      exact UInt32.add_zero _
    · intro x
      rw [active_writeDepth bound Flow.incDepth fun _ => rfl]
      exact UInt32.add_zero _
  case h_6 handle =>
    -- `select`: the loop finds the object that the handler holds.
    have look := lookup_getOrCreate (inRange f) now
    obtain ⟨entry, found, same⟩ := held rfl
    have here := Option.some.inj ((look.move.kept f entry found).symm.trans look.found)
    refine .of_lookup look rfl ?_ rfl rfl rfl
    intro x member
    simp only [HandlerStage.handles, List.mem_cons, List.not_mem_nil, or_false] at member
    rcases member with rfl | rfl
    · exact (same x (by simp [HandlerStage.handles])).trans here
    · rfl
  case h_7 handle ticket =>
    -- `consume`
    have bound := bounds rfl handle (by simp [HandlerStage.handles])
    refine .of_marked (.write (.refl t f now) handle _) held ?_ ?_ rfl fun _ => ⟨rfl, nofun, rfl⟩
    · intro x
      exact (depth_decDepth bound x).trans (UInt32.add_zero _).symm
    · intro x
      rw [active_writeDepth bound Flow.decDepth fun _ => rfl]
      exact UInt32.add_zero _
  case h_8 handle ticket =>
    -- `incActive`
    have bound := bounds rfl handle (by simp [HandlerStage.handles])
    refine .of_marked (.write (.refl t f now) handle _) held ?_ ?_ rfl fun _ => ⟨rfl, nofun, rfl⟩
    · intro x
      rw [depth_writeActive bound Flow.incActive fun _ => rfl]
      rfl
    · intro x
      rw [active_incActive bound]
      exact (UInt32.add_zero _).trans (UInt32.add_zero _)
  case h_9 handle ticket =>
    -- `dropTicket`: the ticket leads to the same object as the handle.
    have bound := bounds rfl ticket (by simp [HandlerStage.handles])
    obtain ⟨entry, found, same⟩ := held rfl
    have one : handle = ticket := (same handle (by simp [HandlerStage.handles])).trans
      (same ticket (by simp [HandlerStage.handles])).symm
    refine .of_marked (.write (.refl t f now) ticket _) nofun ?_ ?_ rfl nofun
    · intro x
      rw [depth_writeActive bound Flow.decActive fun _ => rfl]
      rfl
    · intro x
      rw [HandlerStage.activeOn, one, active_decActive bound]
      rfl
  case h_10 | h_11 | h_12 | h_13 | h_14 =>
    exact .of_marked (.refl t f now) nofun (fun _ => rfl) (fun _ => UInt32.add_zero _) rfl nofun
  case h_15 handle =>
    -- `cancel` with a guard, and below with a ticket in the channel as well.
    have bound := bounds rfl handle (by simp [HandlerStage.handles])
    refine .of_marked (.write (.refl t f now) handle _) nofun ?_ ?_ rfl nofun
    · intro x
      exact (depth_decDepth bound x).trans (UInt32.add_zero _).symm
    · intro x
      rw [active_writeDepth bound Flow.decDepth fun _ => rfl]
      exact UInt32.add_zero _
  case h_16 handle ticket =>
    have bound := bounds rfl ticket (by simp [HandlerStage.handles])
    have bound' : handle < (t.update ticket Flow.decActive).cells.length := by
      rw [length_update]
      exact bounds rfl handle (by simp [HandlerStage.handles])
    refine .of_marked (((TableMove.refl t f now).write ticket _).write handle _) nofun ?_ ?_ rfl
      nofun
    · intro x
      rw [HandlerStage.guardOn, depth_decDepth bound',
        depth_writeActive bound Flow.decActive fun _ => rfl]
      exact (UInt32.add_zero _).symm
    · intro x
      rw [active_writeDepth bound' Flow.decDepth fun _ => rfl]
      change _ + 0 + shown (some ticket) x = _ + 0
      rw [UInt32.add_zero, UInt32.add_zero, active_decActive bound]

theorem handlerStep_begins (moved : handlerStep t now f before step = some (after, t'))
    (live : after.live = true) : before.live = true ∨ ∃ priority, step = .override priority := by
  unfold handlerStep at moved
  split at moved
  all_goals first
    | exact .inl rfl
    | exact .inr ⟨_, rfl⟩
    | (simp only [Option.some.injEq, Prod.mk.injEq, reduceCtorEq] at moved
       done)
    | (simp only [Option.some.injEq, Prod.mk.injEq] at moved
       obtain ⟨rfl, -⟩ := moved
       cases live)

end

/-- How far `reap_idle` has come. -/
inductive Reaper where
  | idle
  | scanning (cutoff : Nat) (toRemove : List FlowId)
  /-- The depth of a flow was zero. -/
  | depthRead (cutoff : Nat) (toRemove : List FlowId) (f : FlowId) (handle : Nat)
  /-- Its active count was zero as well. -/
  | activeRead (cutoff : Nat) (toRemove : List FlowId) (f : FlowId) (handle : Nat)
  | removing (toRemove : List FlowId)
  /-- The entry is gone, the slot is not. -/
  | releasing (f : FlowId) (toRemove : List FlowId)
  /-- `sweep_missing` with the lock of the allocator. -/
  | sweeping (unchecked orphans : List FlowId)

/-- A `POST /flows` that has found no entry and is about to insert one, with the time
    it has read before the look-up. -/
structure PostedFlow where
  registration : FlowRegistration
  now : Nat

structure ReapSystem where
  /-- Unix seconds. -/
  clock : Nat
  table : FlowTable
  slots : SlotAllocator
  handlers : List Handler
  reaper : Reaper
  posts : List PostedFlow

inductive ReapAction where
  | tick (seconds : Nat)
  | receive (f : FlowId)
  | assignSlot (i : Nat) (slotCount : UInt32)
  | handle (i : Nat) (step : HandlerStep)
  /-- A `get_or_create` of the admission loop or of the accounting. -/
  | access (f : FlowId)
  /-- `POST /flows`, up to its look-up. -/
  | register (r : FlowRegistration)
  | registerNew (i : Nat)
  | reap (ttl : Nat)
  | readDepth (f : FlowId)
  | readActive
  | readLastSeen
  | collected
  | removeEntry
  | releaseSlot
  | lockSlots
  | checkEntry
  | dropOrphans

namespace Reaper

def sweeps : Reaper → Bool
  | sweeping _ _ => true
  | _ => false

/-- Flows whose entry or slot the reaper has already decided to drop. -/
def condemned : Reaper → List FlowId
  | idle => []
  | scanning _ toRemove | depthRead _ toRemove _ _ | activeRead _ toRemove _ _ => toRemove
  | removing toRemove => toRemove
  | releasing f toRemove => f :: toRemove
  | sweeping _ orphans => orphans

/-- The time before which a flow counts as idle, during the scan. -/
def cutoff : Reaper → Option Nat
  | scanning cutoff _ | depthRead cutoff _ _ _ | activeRead cutoff _ _ _ => some cutoff
  | _ => none

/-- The flow whose cells the reaper is reading, and its object. -/
def examined : Reaper → Option (FlowId × Nat)
  | depthRead _ _ f handle | activeRead _ _ f handle => some (f, handle)
  | _ => none

/-- The flow whose entry the sweep looks for next. -/
def sought : Reaper → Option FlowId
  | sweeping (f :: _) _ => some f
  | _ => none

/-- The steps of `reap_idle`, on the registry and the slots. -/
def next (clock : Nat) (t : FlowTable) (slots : SlotAllocator) :
    Reaper → ReapAction → Option (Reaper × FlowTable × SlotAllocator)
  | idle, .reap ttl => some (scanning (clock - ttl) [], t, slots)
  | scanning cutoff toRemove, .readDepth f =>
      match t.entries.lookup f with
      | some handle =>
          if t.depth handle = 0 then some (depthRead cutoff toRemove f handle, t, slots)
          else some (scanning cutoff toRemove, t, slots)
      | none => none
  | depthRead cutoff toRemove f handle, .readActive =>
      if t.active handle = 0 then some (activeRead cutoff toRemove f handle, t, slots)
      else some (scanning cutoff toRemove, t, slots)
  | activeRead cutoff toRemove f handle, .readLastSeen =>
      if t.lastSeen handle < cutoff then some (scanning cutoff (toRemove ++ [f]), t, slots)
      else some (scanning cutoff toRemove, t, slots)
  | scanning _ toRemove, .collected => some (removing toRemove, t, slots)
  | removing (f :: rest), .removeEntry => some (releasing f rest, t.remove f, slots)
  | releasing f rest, .releaseSlot => some (removing rest, t, slots.release f)
  | removing [], .lockSlots => some (sweeping slots.assignments.keys [], t, slots)
  | sweeping (f :: rest) orphans, .checkEntry =>
      if f ∈ t.entries then some (sweeping rest orphans, t, slots)
      else some (sweeping rest (orphans ++ [f]), t, slots)
  | sweeping [] orphans, .dropOrphans =>
      some (idle, t, (slots.sweepMissing fun f => decide (f ∉ orphans)).2)
  | _, _ => none

end Reaper

/-- One step. The allocator's lock keeps `assign_slot` out of a sweep; ephemeral flows
    get no slot, and nobody asks for one while their number is unknown or zero. -/
def nextReap (s : ReapSystem) : ReapAction → Option (ReapSystem × Option Empty)
  | .tick seconds => some ({ s with clock := s.clock + seconds }, none)
  | .receive f => some ({ s with handlers := s.handlers ++ [⟨f, .received⟩] }, none)
  | .assignSlot i slotCount =>
      match s.handlers[i]? with
      | some ⟨f, .received⟩ =>
          if slotCount = 0 ∨ f.isEphemeral = true ∨ s.reaper.sweeps = true then none
          else
            some ({ s with
              slots := (s.slots.assign f slotCount).2
              handlers := s.handlers.set i ⟨f, .slotted⟩ }, none)
      | _ => none
  | .handle i step =>
      match s.handlers[i]? with
      | some h =>
          (handlerStep s.table s.clock h.flowId h.stage step).map fun moved =>
            ({ s with table := moved.2, handlers := s.handlers.set i ⟨h.flowId, moved.1⟩ }, none)
      | none => none
  | .access f => some ({ s with table := (s.table.getOrCreate f s.clock).2 }, none)
  | .register r =>
      match s.table.register r s.clock with
      | some table => some ({ s with table }, none)
      | none => some ({ s with posts := s.posts ++ [⟨r, s.clock⟩] }, none)
  | .registerNew i =>
      s.posts[i]?.map fun post =>
        ({ s with
          table := s.table.registerNew post.registration post.now
          posts := s.posts.eraseIdx i }, none)
  | action =>
      (s.reaper.next s.clock s.table s.slots action).map fun moved =>
        ({ s with reaper := moved.1, table := moved.2.1, slots := moved.2.2 }, none)

def reaping (defaultWeight : F64) (defaultPriority : Nat) : Machine ReapSystem ReapAction Empty :=
  { start :=
      { clock := 0, table := .new defaultWeight defaultPriority, slots := .new, handlers := [],
        reaper := .idle, posts := [] }
    next := nextReap }

end TinyLlb
