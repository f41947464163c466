import TinyLlb.Library.Slots
import TinyLlb.Flow

/-! # Flow objects behind registry entries

A registry entry is a shared `Flow` object, and whoever has looked a flow up keeps its
handle when the entry goes. Objects are therefore kept in a list that only grows; an entry
and a handle are both an index into it.
-/

namespace TinyLlb

/-- A `Flow` object with its `last_seen`, in unix seconds. -/
structure FlowCell where
  flow : Flow
  lastSeen : Nat

structure FlowTable where
  /-- Every object that was made. -/
  cells : List FlowCell
  /-- The registry. -/
  entries : Assoc FlowId Nat
  defaultWeight : F64
  defaultPriority : Nat

namespace FlowTable

def new (defaultWeight : F64) (defaultPriority : Nat) : FlowTable :=
  { cells := [], entries := ∅, defaultWeight, defaultPriority }

/-- Write through a handle. -/
def update (t : FlowTable) (handle : Nat) (write : Flow → Flow) : FlowTable :=
  { t with cells := t.cells.modify handle fun cell => { cell with flow := write cell.flow } }

def see (t : FlowTable) (handle now : Nat) : FlowTable :=
  { t with cells := t.cells.modify handle fun cell => { cell with lastSeen := now } }

def insert (t : FlowTable) (f : FlowId) (cell : FlowCell) : FlowTable :=
  { t with cells := t.cells ++ [cell], entries := t.entries.insert f t.cells.length }

def getOrCreate (t : FlowTable) (f : FlowId) (now : Nat) : Nat × FlowTable :=
  match t.entries.lookup f with
  | some handle => (handle, t.see handle now)
  | none => (t.cells.length, t.insert f ⟨Flow.new f t.defaultWeight t.defaultPriority, now⟩)

/-- `get_or_create` and the priority that is stored in what it returns, if any:
    by `apply_priority_override` or by `classify_and_apply`. -/
def prioritize (t : FlowTable) (f : FlowId) (now : Nat) (priority : Option (Nat × Nat)) :
    FlowTable :=
  match priority with
  | some (value, source) =>
      (t.getOrCreate f now).2.update (t.getOrCreate f now).1 fun flow =>
        flow.setPriority value source
  | none => (t.getOrCreate f now).2

/-- `register` up to its `get_mut`: an entry that is found is updated under its lock. -/
def register (t : FlowTable) (r : FlowRegistration) (now : Nat) : Option FlowTable :=
  (t.entries.lookup r.id).map fun handle =>
    (t.update handle fun flow =>
      { flow with weight := r.weight, priority := r.priority, prioritySource := 2 }).see handle now

/-- The rest of `register` where there was none: the new object replaces whatever the
    flow has got in the meantime. -/
def registerNew (t : FlowTable) (r : FlowRegistration) (now : Nat) : FlowTable :=
  t.insert r.id ⟨{ Flow.new r.id r.weight r.priority with prioritySource := 2 }, now⟩

def remove (t : FlowTable) (f : FlowId) : FlowTable := { t with entries := t.entries.erase f }

/-! What the reaper reads. -/

def depth (t : FlowTable) (handle : Nat) : UInt32 :=
  (t.cells[handle]?.map fun cell => cell.flow.depth).getD 0

def active (t : FlowTable) (handle : Nat) : UInt32 :=
  (t.cells[handle]?.map fun cell => cell.flow.active).getD 0

def lastSeen (t : FlowTable) (handle : Nat) : Nat :=
  (t.cells[handle]?.map FlowCell.lastSeen).getD 0

end FlowTable

/-- An operation on the objects that looks `f` up or writes through its handles. -/
structure TableMove (t t' : FlowTable) (f : FlowId) (now : Nat) : Prop where
  kept : ∀ g handle, t.entries.lookup g = some handle → t'.entries.lookup g = some handle
  others : ∀ g, g ≠ f → t'.entries.lookup g = t.entries.lookup g
  fresh : t.entries.lookup f = none → ∀ handle, t'.entries.lookup f = some handle →
    handle = t.cells.length ∧ handle < t'.cells.length
  grows : t.cells.length ≤ t'.cells.length
  seen : ∀ g handle, t.entries.lookup g = some handle →
    t'.lastSeen handle = t.lastSeen handle ∨ t'.lastSeen handle = now

/-- An operation that looks `f` up and finds `handle`. -/
structure Lookup (t t' : FlowTable) (f : FlowId) (now handle : Nat) : Prop where
  move : TableMove t t' f now
  found : t'.entries.lookup f = some handle
  bound : handle < t'.cells.length
  now_ : t'.lastSeen handle = now
  depth : ∀ x, t'.depth x = t.depth x
  active : ∀ x, t'.active x = t.active x

namespace FlowTable

variable {t : FlowTable} {f : FlowId} {now handle : Nat} {write : Flow → Flow}

theorem length_update (t : FlowTable) (handle : Nat) (write : Flow → Flow) :
    (t.update handle write).cells.length = t.cells.length := List.length_modify ..

theorem length_see (t : FlowTable) (handle now : Nat) :
    (t.see handle now).cells.length = t.cells.length := List.length_modify ..

theorem lastSeen_update (t : FlowTable) (handle : Nat) (write : Flow → Flow) (x : Nat) :
    (t.update handle write).lastSeen x = t.lastSeen x := by
  unfold lastSeen update
  rw [List.getElem?_modify]
  cases t.cells[x]? with
  | none => rfl
  | some cell =>
      by_cases here : handle = x <;> simp [here]

theorem depth_update (bound : handle < t.cells.length) {g : UInt32 → UInt32}
    (effect : ∀ flow, (write flow).depth = g flow.depth) (x : Nat) :
    (t.update handle write).depth x = if x = handle then g (t.depth x) else t.depth x := by
  unfold depth update
  rw [List.getElem?_modify]
  by_cases here : x = handle
  · subst x
    simp [List.getElem?_eq_getElem bound, effect]
  · have other : ¬ handle = x := fun same => here same.symm
    simp [other, here]

theorem active_update (bound : handle < t.cells.length) {g : UInt32 → UInt32}
    (effect : ∀ flow, (write flow).active = g flow.active) (x : Nat) :
    (t.update handle write).active x = if x = handle then g (t.active x) else t.active x := by
  unfold active update
  rw [List.getElem?_modify]
  by_cases here : x = handle
  · subst x
    simp [List.getElem?_eq_getElem bound, effect]
  · have other : ¬ handle = x := fun same => here same.symm
    simp [other, here]

theorem depth_see (t : FlowTable) (handle now x : Nat) : (t.see handle now).depth x = t.depth x := by
  unfold depth see
  rw [List.getElem?_modify]
  cases t.cells[x]? with
  | none => rfl
  | some cell =>
      by_cases here : handle = x <;> simp [here]

theorem active_see (t : FlowTable) (handle now x : Nat) :
    (t.see handle now).active x = t.active x := by
  unfold active see
  rw [List.getElem?_modify]
  cases t.cells[x]? with
  | none => rfl
  | some cell =>
      by_cases here : handle = x <;> simp [here]

theorem lastSeen_see (bound : handle < t.cells.length) (now x : Nat) :
    (t.see handle now).lastSeen x = if x = handle then now else t.lastSeen x := by
  unfold lastSeen see
  rw [List.getElem?_modify]
  by_cases here : x = handle
  · subst x
    simp [List.getElem?_eq_getElem bound]
  · have other : ¬ handle = x := fun same => here same.symm
    simp [other, here]

theorem depth_insert (f : FlowId) {cell : FlowCell} (zero : cell.flow.depth = 0) (x : Nat) :
    (t.insert f cell).depth x = t.depth x := by
  unfold depth insert
  rcases lt_trichotomy x t.cells.length with inside | rfl | outside
  · rw [List.getElem?_append_left inside]
  · simp [zero]
  · rw [List.getElem?_eq_none (by simp; omega), List.getElem?_eq_none (by omega)]

theorem active_insert (f : FlowId) {cell : FlowCell} (zero : cell.flow.active = 0) (x : Nat) :
    (t.insert f cell).active x = t.active x := by
  unfold active insert
  rcases lt_trichotomy x t.cells.length with inside | rfl | outside
  · rw [List.getElem?_append_left inside]
  · simp [zero]
  · rw [List.getElem?_eq_none (by simp; omega), List.getElem?_eq_none (by omega)]

theorem lastSeen_insert (f : FlowId) (cell : FlowCell) (x : Nat) :
    (t.insert f cell).lastSeen x = if x = t.cells.length then cell.lastSeen else t.lastSeen x := by
  unfold lastSeen insert
  rcases lt_trichotomy x t.cells.length with inside | rfl | outside
  · rw [List.getElem?_append_left inside, if_neg (by omega)]
  · simp
  · rw [List.getElem?_eq_none (by simp; omega), List.getElem?_eq_none (by omega), if_neg (by omega)]

theorem lookup_see (found : t.entries.lookup f = some handle) (bound : handle < t.cells.length)
    (now : Nat) : Lookup t (t.see handle now) f now handle where
  move :=
    { kept := fun _ _ found => found
      others := fun _ _ => rfl
      fresh := fun absent _ _ => by simp [found] at absent
      grows := (length_see t handle now).ge
      seen := by
        intro _ x _
        rw [lastSeen_see bound]
        split
        · exact .inr rfl
        · exact .inl rfl }
  found := found
  bound := by rwa [length_see]
  now_ := by rw [lastSeen_see bound, if_pos rfl]
  depth := depth_see t handle now
  active := active_see t handle now

theorem move_insert (absent : t.entries.lookup f = none) {cell : FlowCell}
    (seen : ∀ g x, t.entries.lookup g = some x →
      (t.insert f cell).lastSeen x = t.lastSeen x ∨ (t.insert f cell).lastSeen x = now) :
    TableMove t (t.insert f cell) f now where
  kept := by
    intro g handle found
    have other : g ≠ f := by
      rintro rfl
      simp [absent] at found
    exact (Assoc.lookup_insert _ _ _ _).trans ((if_neg other).trans found)
  others := fun g other => (Assoc.lookup_insert _ _ _ _).trans (if_neg other)
  fresh := by
    intro _ handle found
    have here := found.symm.trans (Assoc.lookup_insert t.entries f t.cells.length f)
    rw [if_pos rfl] at here
    obtain rfl := Option.some.inj here
    exact ⟨rfl, by simp [insert]⟩
  grows := by simp [insert]
  seen := seen

theorem lookup_insert (absent : t.entries.lookup f = none) {cell : FlowCell}
    (depth : cell.flow.depth = 0) (active : cell.flow.active = 0) :
    Lookup t (t.insert f cell) f cell.lastSeen t.cells.length where
  move := move_insert absent <| by
    intro _ x _
    rw [lastSeen_insert]
    split
    · exact .inr rfl
    · exact .inl rfl
  found := (Assoc.lookup_insert _ _ _ _).trans (if_pos rfl)
  bound := by simp [insert]
  now_ := by rw [lastSeen_insert, if_pos rfl]
  depth := depth_insert f depth
  active := active_insert f active

theorem lookup_getOrCreate (inRange : ∀ x, t.entries.lookup f = some x → x < t.cells.length)
    (now : Nat) : Lookup t (t.getOrCreate f now).2 f now (t.getOrCreate f now).1 := by
  unfold getOrCreate
  cases found : t.entries.lookup f with
  | some handle => exact lookup_see found (inRange handle found) now
  | none => exact lookup_insert found rfl rfl

end FlowTable

open FlowTable

theorem TableMove.refl (t : FlowTable) (f : FlowId) (now : Nat) : TableMove t t f now where
  kept := fun _ _ found => found
  others := fun _ _ => rfl
  fresh := fun absent _ found => by simp [absent] at found
  grows := le_rfl
  seen := fun _ _ _ => .inl rfl

theorem TableMove.write {t t' : FlowTable} {f : FlowId} {now : Nat} (move : TableMove t t' f now)
    (handle : Nat) (store : Flow → Flow) : TableMove t (t'.update handle store) f now where
  kept := move.kept
  others := move.others
  fresh := by
    intro absent x found
    rw [length_update]
    exact move.fresh absent x found
  grows := by
    rw [length_update]
    exact move.grows
  seen := by
    intro g x found
    rw [lastSeen_update]
    exact move.seen g x found

section

variable {t t' : FlowTable} {f : FlowId} {now : Nat}

theorem TableMove.entry (move : TableMove t t' f now) {g : FlowId} {handle : Nat}
    (found : t'.entries.lookup g = some handle) : t.entries.lookup g = some handle ∨
      g = f ∧ t.entries.lookup f = none ∧ handle = t.cells.length ∧ handle < t'.cells.length := by
  by_cases same : g = f
  · subst g
    cases before : t.entries.lookup f with
    | none => exact .inr ⟨rfl, rfl, move.fresh before handle found⟩
    | some x => exact .inl ((move.kept f x before).symm.trans found)
  · exact .inl ((move.others g same).symm.trans found)

theorem TableMove.inRange (move : TableMove t t' f now)
    (inRange : ∀ g x, t.entries.lookup g = some x → x < t.cells.length) {g : FlowId} {x : Nat}
    (found : t'.entries.lookup g = some x) : x < t'.cells.length := by
  rcases move.entry found with old | ⟨-, -, -, bound⟩
  · exact (inRange g x old).trans_le move.grows
  · exact bound

theorem TableMove.apart (move : TableMove t t' f now)
    (inRange : ∀ g x, t.entries.lookup g = some x → x < t.cells.length)
    (apart : ∀ g h x, t.entries.lookup g = some x → t.entries.lookup h = some x → g = h)
    {g h : FlowId} {x : Nat} (first : t'.entries.lookup g = some x)
    (second : t'.entries.lookup h = some x) : g = h := by
  rcases move.entry first with old | ⟨same, -, new, -⟩
  · rcases move.entry second with old' | ⟨-, -, new', -⟩
    · exact apart g h x old old'
    · exact absurd (inRange g x old) (by omega)
  · rcases move.entry second with old' | ⟨same', -, -, -⟩
    · exact absurd (inRange h x old') (by omega)
    · rw [same, same']

end

namespace Lookup

variable {t t' : FlowTable} {f : FlowId} {now handle : Nat} {store : Flow → Flow}

theorem write (look : Lookup t t' f now handle) (depth : ∀ flow, (store flow).depth = flow.depth)
    (active : ∀ flow, (store flow).active = flow.active) :
    Lookup t (t'.update handle store) f now handle where
  move := look.move.write handle store
  found := look.found
  bound := by
    rw [length_update]
    exact look.bound
  now_ := (lastSeen_update ..).trans look.now_
  depth := by
    intro x
    rw [depth_update (g := id) look.bound depth, ← look.depth x]
    exact ite_self _
  active := by
    intro x
    rw [active_update (g := id) look.bound active, ← look.active x]
    exact ite_self _

theorem prioritize (inRange : ∀ x, t.entries.lookup f = some x → x < t.cells.length) (now : Nat)
    (priority : Option (Nat × Nat)) :
    Lookup t (t.prioritize f now priority) f now (t.getOrCreate f now).1 := by
  cases priority with
  | none => exact lookup_getOrCreate inRange now
  | some p =>
      obtain ⟨value, source⟩ := p
      change Lookup t ((t.getOrCreate f now).2.update (t.getOrCreate f now).1 fun flow =>
        flow.setPriority value source) f now (t.getOrCreate f now).1
      exact (lookup_getOrCreate inRange now).write (fun _ => rfl) (fun _ => rfl)

theorem register {r : FlowRegistration} {now : Nat} {t' : FlowTable}
    (inRange : ∀ x, t.entries.lookup r.id = some x → x < t.cells.length)
    (updated : t.register r now = some t') : ∃ handle, Lookup t t' r.id now handle := by
  obtain ⟨handle, found, rfl⟩ := Option.map_eq_some_iff.mp updated
  -- The stores and the timestamp go to different fields.
  have swap : (t.update handle fun flow =>
        { flow with weight := r.weight, priority := r.priority, prioritySource := 2 }).see
          handle now =
      (t.see handle now).update handle fun flow =>
        { flow with weight := r.weight, priority := r.priority, prioritySource := 2 } := by
    simp only [FlowTable.update, FlowTable.see, List.modify_modify_eq]
    rfl
  rw [swap]
  exact ⟨handle, (lookup_see found (inRange handle found) now).write (fun _ => rfl) fun _ => rfl⟩

end Lookup

/-- The new object may have been stamped some time ago. -/
theorem TableMove.registerNew {t : FlowTable} {r : FlowRegistration}
    (inRange : ∀ g x, t.entries.lookup g = some x → x < t.cells.length)
    (absent : t.entries.lookup r.id = none) (stamp now : Nat) :
    TableMove t (t.registerNew r stamp) r.id now := by
  refine move_insert absent fun g x found => .inl ?_
  rw [lastSeen_insert, if_neg (inRange g x found).ne]

/-- One more or one less on the counters of the objects that a handler shows on. -/
def shown (on : Option Nat) (x : Nat) : UInt32 := if on = some x then 1 else 0

@[simp] theorem shown_none (x : Nat) : shown none x = 0 := rfl

theorem shown_some (handle x : Nat) : shown (some handle) x = if x = handle then 1 else 0 := by
  unfold shown
  by_cases same : x = handle
  · simp [same]
  · have other : ¬ handle = x := fun h => same h.symm
    simp [same, other]

section

variable {t : FlowTable} {handle : Nat}

theorem depth_incDepth (bound : handle < t.cells.length) (x : Nat) :
    (t.update handle Flow.incDepth).depth x = t.depth x + shown (some handle) x := by
  rw [depth_update (g := (· + 1)) bound fun _ => rfl, shown_some]
  split
  · rfl
  · exact (UInt32.add_zero _).symm

theorem depth_decDepth (bound : handle < t.cells.length) (x : Nat) :
    (t.update handle Flow.decDepth).depth x + shown (some handle) x = t.depth x := by
  rw [depth_update (g := (· - 1)) bound fun _ => rfl, shown_some]
  split
  · exact UInt32.sub_add_cancel _ _
  · exact UInt32.add_zero _

theorem active_incActive (bound : handle < t.cells.length) (x : Nat) :
    (t.update handle Flow.incActive).active x = t.active x + shown (some handle) x := by
  rw [active_update (g := (· + 1)) bound fun _ => rfl, shown_some]
  split
  · rfl
  · exact (UInt32.add_zero _).symm

theorem active_decActive (bound : handle < t.cells.length) (x : Nat) :
    (t.update handle Flow.decActive).active x + shown (some handle) x = t.active x := by
  rw [active_update (g := (· - 1)) bound fun _ => rfl, shown_some]
  split
  · exact UInt32.sub_add_cancel _ _
  · exact UInt32.add_zero _

theorem active_writeDepth (bound : handle < t.cells.length) (store : Flow → Flow)
    (apart : ∀ flow, (store flow).active = flow.active) (x : Nat) :
    (t.update handle store).active x = t.active x := by
  rw [active_update (g := id) bound apart]
  exact ite_self _

theorem depth_writeActive (bound : handle < t.cells.length) (store : Flow → Flow)
    (apart : ∀ flow, (store flow).depth = flow.depth) (x : Nat) :
    (t.update handle store).depth x = t.depth x := by
  rw [depth_update (g := id) bound apart]
  exact ite_self _

end

end TinyLlb
