import TinyLlb.Library.Machine
import TinyLlb.Flow

/-! # Session slots

The allocator pins each named flow to a slot of the backend. It keeps the slot of
every flow and, for every slot in use, how many flows are on it; the two maps
change together under one lock. The counts are `u32` cells, which a release build
lets wrap.
-/

namespace TinyLlb

/-- FNV-1a over the bytes of the name, modulo the slot count. -/
def slotIdForFlow (flow : String) (slotCount : UInt32) : UInt32 :=
  if slotCount = 0 then 0
  else
    let h : UInt64 := flow.toUTF8.toList.foldl
      (fun h b => (h ^^^ b.toUInt64) * 0x00000100000001b3) 0xcbf29ce484222325
    (h % slotCount.toUInt64).toUInt32

structure SlotAllocator where
  /-- Flow to slot, for as long as the flow is registered. -/
  assignments : Assoc FlowId UInt32
  /-- Slot to number of flows on it. -/
  occupied : Assoc UInt32 UInt32

inductive SlotAction where
  | assign (flow : FlowId) (slotCount : UInt32)
  | release (flow : FlowId)
  | sweepMissing (registered : FlowId → Bool)

/-- What an operation returns. -/
inductive SlotEvent where
  | assigned (slot : UInt32)
  | dropped (count : Nat)

namespace SlotAllocator

def new : SlotAllocator := ⟨∅, ∅⟩

def isFree (a : SlotAllocator) (slot : UInt32) : Bool :=
  (a.occupied.lookup slot).all fun count => count == 0

/-- `*count -= 1`; the entry goes when it comes down to zero. -/
def free (a : SlotAllocator) (slot : UInt32) : SlotAllocator :=
  match a.occupied.lookup slot with
  | some count =>
      if count - 1 = 0 then { a with occupied := a.occupied.erase slot }
      else { a with occupied := a.occupied.insert slot (count - 1) }
  | none => a

/-- `assignments.remove` followed by `free`. -/
def remove (a : SlotAllocator) (f : FlowId) (slot : UInt32) : SlotAllocator :=
  free { a with assignments := a.assignments.erase f } slot

/-- The hash home if it is free, else the lowest free slot, else the hash home. -/
def choose (a : SlotAllocator) (f : FlowId) (slotCount : UInt32) : UInt32 :=
  let home := slotIdForFlow f.name slotCount
  if a.isFree home then home
  else (((List.range slotCount.toNat).map Nat.toUInt32).find? a.isFree).getD home

/-- `assignments.insert`, and `+= 1` on the slot's entry. -/
def record (a : SlotAllocator) (f : FlowId) (slot : UInt32) : SlotAllocator :=
  { assignments := a.assignments.insert f slot
    occupied := a.occupied.insert slot ((a.occupied.lookup slot).getD 0 + 1) }

def assign (a : SlotAllocator) (f : FlowId) (slotCount : UInt32) : UInt32 × SlotAllocator :=
  match a.assignments.lookup f with
  | some slot =>
      if slot < slotCount then (slot, a)
      else
        -- Stale after the slot count shrank.
        ((a.remove f slot).choose f slotCount,
          (a.remove f slot).record f ((a.remove f slot).choose f slotCount))
  | none => (a.choose f slotCount, a.record f (a.choose f slotCount))

def release (a : SlotAllocator) (f : FlowId) : SlotAllocator :=
  match a.assignments.lookup f with
  | some slot => a.remove f slot
  | none => a

def orphans (a : SlotAllocator) (registered : FlowId → Bool) : List (Sigma fun _ : FlowId => UInt32) :=
  a.assignments.entries.filter fun entry => !registered entry.1

def removeAll (a : SlotAllocator) (entries : List (Sigma fun _ : FlowId => UInt32)) : SlotAllocator :=
  entries.foldl (fun a entry => a.remove entry.1 entry.2) a

def sweepMissing (a : SlotAllocator) (registered : FlowId → Bool) : Nat × SlotAllocator :=
  ((a.orphans registered).length, a.removeAll (a.orphans registered))

end SlotAllocator

/-- The caller asks for a slot only when there is at least one. -/
def nextSlots (a : SlotAllocator) : SlotAction → Option (SlotAllocator × Option SlotEvent)
  | .assign f slotCount =>
      if slotCount = 0 then none
      else some ((a.assign f slotCount).2, some (.assigned (a.assign f slotCount).1))
  | .release f => some (a.release f, none)
  | .sweepMissing registered =>
      some ((a.sweepMissing registered).2, some (.dropped (a.sweepMissing registered).1))

def slotAllocator : Machine SlotAllocator SlotAction SlotEvent :=
  { start := SlotAllocator.new, next := nextSlots }

namespace SlotAllocator

/-- How many flows are assigned to a slot. -/
def holders (a : SlotAllocator) (slot : UInt32) : Nat :=
  Assoc.total (fun _ s => if s = slot then 1 else 0) a.assignments

structure Consistent (a : SlotAllocator) : Prop where
  counts : ∀ slot, ((a.occupied.lookup slot).getD 0).toNat = a.holders slot
  nonzero : ∀ slot, a.occupied.lookup slot ≠ some 0

variable {a : SlotAllocator} {f : FlowId} {slot : UInt32}

theorem Consistent.new : Consistent new := ⟨fun _ => rfl, fun _ => by simp [SlotAllocator.new]⟩

theorem Consistent.isFree_iff (held : a.Consistent) : a.isFree slot = true ↔ a.holders slot = 0 := by
  rw [← held.counts slot, isFree]
  cases found : a.occupied.lookup slot with
  | none => simp
  | some count =>
      simp only [Option.all_some, beq_iff_eq, Option.getD_some]
      exact ⟨fun zero => by rw [zero]; rfl, fun zero => UInt32.toNat_inj.mp zero⟩

theorem holders_erase (found : a.assignments.lookup f = some slot) (occupied : Assoc UInt32 UInt32)
    (s : UInt32) : holders ⟨a.assignments.erase f, occupied⟩ s + (if slot = s then 1 else 0) =
      a.holders s := by
  have same : ∀ g, g ≠ f → Assoc.worth (fun _ t => if t = s then 1 else 0) (a.assignments.erase f) g =
      Assoc.worth (fun _ t => if t = s then 1 else 0) a.assignments g := by
    intro g other
    simp only [Assoc.worth, Assoc.lookup_erase, if_neg other]
  have moved := Assoc.total_update same
  simp only [Assoc.worth, found, Option.elim_some, Assoc.lookup_erase, if_true, Option.elim_none] at moved
  exact moved

theorem holders_record (absent : a.assignments.lookup f = none) (s : UInt32) :
    (a.record f slot).holders s = a.holders s + (if slot = s then 1 else 0) := by
  have same : ∀ g, g ≠ f →
      Assoc.worth (fun _ t => if t = s then 1 else 0) (a.assignments.insert f slot) g =
        Assoc.worth (fun _ t => if t = s then 1 else 0) a.assignments g := by
    intro g other
    simp only [Assoc.worth, Assoc.lookup_insert, if_neg other]
  have moved := Assoc.total_update same
  simp only [Assoc.worth, absent, Option.elim_none, Assoc.lookup_insert, if_true, Option.elim_some,
    Nat.add_zero] at moved
  exact moved

theorem holders_le (a : SlotAllocator) (s : UInt32) : a.holders s ≤ a.assignments.entries.length := by
  have folded : ∀ (entries : List (Sigma fun _ : FlowId => UInt32)) (n : Nat),
      entries.foldl (fun sum entry => sum + if entry.2 = s then 1 else 0) n ≤ n + entries.length := by
    intro entries
    induction entries with
    | nil => simp
    | cons entry rest ih =>
        intro n
        have later := ih (n + if entry.2 = s then 1 else 0)
        have one : (if entry.2 = s then 1 else 0) ≤ 1 := by
          split <;> decide
        rw [List.foldl_cons, List.length_cons]
        omega
  simpa [holders, Assoc.total] using folded a.assignments.entries 0

theorem assignments_free (a : SlotAllocator) (slot : UInt32) :
    (a.free slot).assignments = a.assignments := by
  unfold free
  split
  · split <;> rfl
  · rfl

theorem lookup_remove (a : SlotAllocator) (f : FlowId) (slot : UInt32) (g : FlowId) :
    (a.remove f slot).assignments.lookup g = if g = f then none else a.assignments.lookup g := by
  rw [remove, assignments_free]
  exact Assoc.lookup_erase _ _ _

theorem holders_remove (found : a.assignments.lookup f = some slot) (s : UInt32) :
    (a.remove f slot).holders s + (if slot = s then 1 else 0) = a.holders s := by
  unfold holders remove
  rw [assignments_free]
  exact holders_erase found a.occupied s

theorem Consistent.entry (held : a.Consistent) (found : a.assignments.lookup f = some slot) :
    ∃ count, a.occupied.lookup slot = some count ∧ count.toNat = a.holders slot ∧ 0 < count.toNat := by
  have moved := holders_remove found slot
  have counts := held.counts slot
  rw [if_pos rfl] at moved
  cases entry : a.occupied.lookup slot with
  | none =>
      rw [entry, Option.getD_none, UInt32.toNat_zero] at counts
      omega
  | some count =>
      rw [entry, Option.getD_some] at counts
      exact ⟨count, rfl, counts, by omega⟩

theorem Consistent.remove (held : a.Consistent) (found : a.assignments.lookup f = some slot) :
    (a.remove f slot).Consistent := by
  obtain ⟨count, entry, counts, positive⟩ := held.entry found
  have one : (1 : UInt32) ≤ count := by
    rw [UInt32.le_iff_toNat_le, UInt32.toNat_one]
    exact positive
  have lower : (count - 1).toNat = count.toNat - 1 := UInt32.toNat_sub_of_le _ _ one
  have occupied : ∀ s, (a.remove f slot).occupied.lookup s =
      if s = slot then (if count - 1 = 0 then none else some (count - 1))
      else a.occupied.lookup s := by
    intro s
    simp only [SlotAllocator.remove, free, entry]
    by_cases last : count - 1 = 0
    · simp only [last, if_true, Assoc.lookup_erase]
    · simp only [last, if_false, Assoc.lookup_insert]
  constructor
  · intro s
    have moved := holders_remove found s
    rw [occupied]
    by_cases here : s = slot
    · subst s
      rw [if_pos rfl] at moved ⊢
      split
      · rename_i last
        rw [last] at lower
        rw [Option.getD_none]
        omega
      · rw [Option.getD_some]
        omega
    · rw [if_neg (Ne.symm here)] at moved
      rw [if_neg here, held.counts s]
      omega
  · intro s
    rw [occupied]
    split
    · split
      · simp
      · rename_i more
        simpa using more
    · exact held.nonzero s

theorem Consistent.record (held : a.Consistent) (absent : a.assignments.lookup f = none)
    (fits : (a.record f slot).holders slot < 4294967296) : (a.record f slot).Consistent := by
  have more : (a.record f slot).holders slot = _ := holders_record absent slot
  rw [if_pos rfl] at more
  have raised : ((a.occupied.lookup slot).getD 0 + 1).toNat = a.holders slot + 1 := by
    rw [UInt32.toNat_add, UInt32.toNat_one, held.counts slot]
    exact Nat.mod_eq_of_lt (by omega)
  have occupied : ∀ s, (a.record f slot).occupied.lookup s =
      if s = slot then some ((a.occupied.lookup slot).getD 0 + 1) else a.occupied.lookup s :=
    fun s => Assoc.lookup_insert _ _ _ s
  constructor
  · intro s
    rw [occupied, holders_record absent]
    by_cases here : s = slot
    · subst s
      rw [if_pos rfl, if_pos rfl, Option.getD_some, raised]
    · rw [if_neg here, if_neg (Ne.symm here), held.counts s, Nat.add_zero]
  · intro s
    rw [occupied]
    split
    · intro zero
      have none_ := congrArg UInt32.toNat (Option.some.inj zero)
      rw [raised, UInt32.toNat_zero] at none_
      omega
    · exact held.nonzero s

/-- The allocators and slots at which an operation calls `free`. -/
def freesOf (a : SlotAllocator) : List (Sigma fun _ : FlowId => UInt32) → List (SlotAllocator × UInt32)
  | [] => []
  | entry :: rest => (a, entry.2) :: freesOf (a.remove entry.1 entry.2) rest

def frees (a : SlotAllocator) : SlotAction → List (SlotAllocator × UInt32)
  | .assign f slotCount =>
      match a.assignments.lookup f with
      | some slot => if slot < slotCount then [] else a.freesOf [⟨f, slot⟩]
      | none => []
  | .release f =>
      match a.assignments.lookup f with
      | some slot => a.freesOf [⟨f, slot⟩]
      | none => []
  | .sweepMissing registered => a.freesOf (a.orphans registered)

theorem Consistent.removeAll {entries : List (Sigma fun _ : FlowId => UInt32)} (held : a.Consistent)
    (distinct : (entries.map Sigma.fst).Nodup)
    (found : ∀ entry ∈ entries, a.assignments.lookup entry.1 = some entry.2) :
    (a.removeAll entries).Consistent ∧
      (∀ g, (a.removeAll entries).assignments.lookup g =
        if g ∈ entries.map Sigma.fst then none else a.assignments.lookup g) ∧
      ∀ call ∈ a.freesOf entries, call.1.occupied.lookup call.2 ≠ some 0 := by
  induction entries generalizing a with
  | nil => exact ⟨held, fun g => by simp [SlotAllocator.removeAll], by simp [freesOf]⟩
  | cons entry rest ih =>
      have here := found entry List.mem_cons_self
      obtain ⟨fresh, distinct⟩ := List.nodup_cons.mp distinct
      have later : ∀ e ∈ rest, (a.remove entry.1 entry.2).assignments.lookup e.1 = some e.2 := by
        intro e member
        have other : e.1 ≠ entry.1 := by
          intro same
          exact fresh (same ▸ List.mem_map_of_mem member)
        rw [lookup_remove, if_neg other]
        exact found e (List.mem_cons_of_mem _ member)
      obtain ⟨consistent, lookups, safe⟩ := ih (held.remove here) distinct later
      refine ⟨consistent, ?_, ?_⟩
      · intro g
        have after := lookups g
        rw [lookup_remove] at after
        refine after.trans ?_
        rw [List.map_cons]
        by_cases first : g = entry.1
        · simp [first]
        · simp only [List.mem_cons, first, false_or, if_false]
      · intro call member
        rcases List.mem_cons.mp member with rfl | later
        · exact held.nonzero _
        · exact safe call later

theorem Consistent.sweep (held : a.Consistent) (registered : FlowId → Bool) :
    (a.sweepMissing registered).2.Consistent ∧
      (∀ g, (a.sweepMissing registered).2.assignments.lookup g =
        if registered g then a.assignments.lookup g else none) ∧
      ∀ call ∈ a.freesOf (a.orphans registered), call.1.occupied.lookup call.2 ≠ some 0 := by
  have distinct : ((a.orphans registered).map Sigma.fst).Nodup :=
    (List.Sublist.map Sigma.fst List.filter_sublist).nodup a.assignments.keys_nodup
  have found : ∀ entry ∈ a.orphans registered, a.assignments.lookup entry.1 = some entry.2 :=
    fun entry member => Assoc.lookup_of_mem_entries (List.mem_of_mem_filter member)
  obtain ⟨consistent, lookups, safe⟩ := held.removeAll distinct found
  refine ⟨consistent, ?_, safe⟩
  intro g
  refine (lookups g).trans ?_
  by_cases kept : registered g = true
  · have absent : g ∉ (a.orphans registered).map Sigma.fst := by
      intro member
      obtain ⟨entry, orphan, rfl⟩ := List.mem_map.mp member
      have gone := (List.mem_filter.mp orphan).2
      simp [kept] at gone
    rw [if_neg absent, if_pos kept]
  · rw [if_neg kept]
    split
    · rfl
    · rename_i absent
      cases here : a.assignments.lookup g with
      | none => rfl
      | some slot =>
          have member := (List.mem_dlookup_iff a.assignments.nodupKeys).mp here
          refine absurd (List.mem_map_of_mem (List.mem_filter.mpr ⟨member, ?_⟩)) absent
          simpa using kept

theorem slotIdForFlow_lt (flow : String) {slotCount : UInt32} (some_ : slotCount ≠ 0) :
    slotIdForFlow flow slotCount < slotCount := by
  have positive : 0 < slotCount.toNat := by
    rw [Nat.pos_iff_ne_zero]
    exact fun zero => some_ (UInt32.toNat_inj.mp zero)
  rw [slotIdForFlow, if_neg some_, UInt32.lt_iff_toNat_lt, UInt64.toNat_toUInt32, UInt64.toNat_mod,
    UInt32.toNat_toUInt64]
  exact lt_of_le_of_lt (Nat.mod_le _ _) (Nat.mod_lt _ positive)

/-- The rule by which a flow without a slot in range gets one. -/
structure Chosen (a : SlotAllocator) (f : FlowId) (slotCount slot : UInt32) : Prop where
  inRange : slot < slotCount
  home : a.holders (slotIdForFlow f.name slotCount) = 0 → slot = slotIdForFlow f.name slotCount
  lowest : a.holders (slotIdForFlow f.name slotCount) ≠ 0 → (∃ s < slotCount, a.holders s = 0) →
    a.holders slot = 0 ∧ ∀ s < slot, a.holders s ≠ 0
  saturated : (∀ s < slotCount, a.holders s ≠ 0) → slot = slotIdForFlow f.name slotCount

theorem Consistent.chosen (held : a.Consistent) (f : FlowId) {slotCount : UInt32}
    (some_ : slotCount ≠ 0) : a.Chosen f slotCount (a.choose f slotCount) := by
  have homeIn := slotIdForFlow_lt f.name some_
  unfold choose
  simp only [List.find?_map]
  by_cases atHome : a.isFree (slotIdForFlow f.name slotCount) = true
  · rw [if_pos atHome]
    have zero := held.isFree_iff.mp atHome
    exact ⟨homeIn, fun _ => rfl, fun taken => absurd zero taken, fun _ => rfl⟩
  · rw [if_neg atHome]
    have taken : a.holders (slotIdForFlow f.name slotCount) ≠ 0 :=
      fun zero => atHome (held.isFree_iff.mpr zero)
    cases found : (List.range slotCount.toNat).find? (a.isFree ∘ Nat.toUInt32) with
    | none =>
        rw [List.find?_range_eq_none] at found
        have full : ∀ s < slotCount, a.holders s ≠ 0 := by
          intro s less zero
          have busy := found s.toNat (UInt32.lt_iff_toNat_lt.mp less)
          simp only [Function.comp_apply, Nat.toUInt32_eq, UInt32.ofNat_toNat,
            held.isFree_iff.mpr zero, Bool.not_true, Bool.false_eq_true] at busy
        refine ⟨homeIn, fun zero => absurd zero taken, ?_, fun _ => rfl⟩
        rintro - ⟨s, less, zero⟩
        exact absurd zero (full s less)
    | some i =>
        obtain ⟨free, member, earlier⟩ := List.find?_range_eq_some.mp found
        have less : i < slotCount.toNat := List.mem_range.mp member
        have size : i < 2 ^ 32 := lt_trans less (UInt32.toNat_lt slotCount)
        have index : i.toUInt32.toNat = i := by
          rw [Nat.toUInt32_eq]
          exact UInt32.toNat_ofNat_of_lt' size
        have zero : a.holders i.toUInt32 = 0 := held.isFree_iff.mp free
        refine ⟨?_, fun none_ => absurd none_ taken, fun _ _ => ⟨zero, ?_⟩, ?_⟩
        · rw [UInt32.lt_iff_toNat_lt]
          simpa [index] using less
        · intro s before none_
          have order : s.toNat < i := by
            rw [UInt32.lt_iff_toNat_lt] at before
            simpa [index] using before
          have busy := earlier s.toNat order
          simp [held.isFree_iff.mpr none_] at busy
        · intro full
          refine absurd zero (full _ ?_)
          rw [UInt32.lt_iff_toNat_lt]
          simpa [index] using less

/-- What `assign` does to a flow and to the others. -/
structure Assigned (a : SlotAllocator) (f : FlowId) (slotCount slot : UInt32) (b : SlotAllocator) :
    Prop where
  inRange : slot < slotCount
  recorded : b.assignments.lookup f = some slot
  others : ∀ g, g ≠ f → b.assignments.lookup g = a.assignments.lookup g
  kept : ∀ s, a.assignments.lookup f = some s → s < slotCount → slot = s ∧ b = a
  chosen : (∀ s, a.assignments.lookup f = some s → ¬ s < slotCount) → a.Chosen f slotCount slot

theorem Chosen.of_remove {slotCount chosen : UInt32} (found : a.assignments.lookup f = some slot)
    (stale : ¬ slot < slotCount) (some_ : slotCount ≠ 0)
    (rule : (a.remove f slot).Chosen f slotCount chosen) : a.Chosen f slotCount chosen := by
  have same : ∀ s, s < slotCount → (a.remove f slot).holders s = a.holders s := by
    intro s less
    have moved := holders_remove found s
    have other : slot ≠ s := by
      rintro rfl
      exact stale less
    rwa [if_neg other, Nat.add_zero] at moved
  have homeIn := slotIdForFlow_lt f.name some_
  constructor
  · exact rule.inRange
  · intro zero
    exact rule.home ((same _ homeIn).trans zero)
  · rintro taken ⟨s, less, zero⟩
    rw [← same _ homeIn] at taken
    obtain ⟨free, before⟩ := rule.lowest taken ⟨s, less, (same s less).trans zero⟩
    refine ⟨(same _ rule.inRange).symm.trans free, ?_⟩
    intro t earlier
    rw [← same t (UInt32.lt_trans earlier rule.inRange)]
    exact before t earlier
  · intro full
    apply rule.saturated
    intro s less
    rw [same s less]
    exact full s less

theorem lookup_record (a : SlotAllocator) (f : FlowId) (slot : UInt32) (g : FlowId) :
    (a.record f slot).assignments.lookup g = if g = f then some slot else a.assignments.lookup g :=
  Assoc.lookup_insert _ _ _ _

theorem Consistent.assign (held : a.Consistent) (f : FlowId) {slotCount : UInt32}
    (some_ : slotCount ≠ 0)
    (fits : ∀ s, (a.assign f slotCount).2.holders s < 4294967296) :
    (a.assign f slotCount).2.Consistent ∧
      a.Assigned f slotCount (a.assign f slotCount).1 (a.assign f slotCount).2 := by
  unfold SlotAllocator.assign at fits ⊢
  cases found : a.assignments.lookup f with
  | none =>
      simp only [found] at fits
      have rule := held.chosen f some_
      refine ⟨held.record found (fits _), rule.inRange, ?_, ?_, ?_, fun _ => rule⟩
      · simp only [lookup_record, if_true]
      · intro g other
        simp only [lookup_record, if_neg other]
      · intro s there
        cases found.symm.trans there
  | some slot =>
      simp only [found] at fits
      by_cases inRange : slot < slotCount
      · simp only [if_pos inRange]
        refine ⟨held, inRange, found, fun _ _ => rfl, ?_, ?_⟩
        · intro s there _
          exact ⟨Option.some.inj (found.symm.trans there), rfl⟩
        · intro stale
          exact absurd inRange (stale slot found)
      · simp only [if_neg inRange] at fits ⊢
        have removed := held.remove found
        have absent : (a.remove f slot).assignments.lookup f = none := by
          rw [lookup_remove, if_pos rfl]
        have rule := removed.chosen f some_
        refine ⟨removed.record absent (fits _), rule.inRange, ?_, ?_, ?_, ?_⟩
        · simp only [lookup_record, if_true]
        · intro g other
          simp only [lookup_record, lookup_remove, if_neg other]
        · intro s there less
          obtain rfl := Option.some.inj (found.symm.trans there)
          exact absurd less inRange
        · exact fun _ => rule.of_remove found inRange some_

theorem lookup_release (a : SlotAllocator) (f g : FlowId) :
    (a.release f).assignments.lookup g = if g = f then none else a.assignments.lookup g := by
  unfold SlotAllocator.release
  cases found : a.assignments.lookup f with
  | some slot => exact lookup_remove a f slot g
  | none =>
      by_cases same : g = f
      · rw [if_pos same, same]
        exact found
      · rw [if_neg same]

theorem Consistent.release {a : SlotAllocator} (held : a.Consistent) (f : FlowId) :
    (a.release f).Consistent := by
  unfold SlotAllocator.release
  cases found : a.assignments.lookup f with
  | some slot => exact held.remove found
  | none => exact held

theorem length_remove_le (a : SlotAllocator) (f : FlowId) (slot : UInt32) :
    (a.remove f slot).assignments.entries.length ≤ a.assignments.entries.length := by
  unfold remove
  rw [assignments_free]
  exact (List.kerase_sublist f a.assignments.entries).length_le

theorem length_record_le (a : SlotAllocator) (f : FlowId) (slot : UInt32) :
    (a.record f slot).assignments.entries.length ≤ a.assignments.entries.length + 1 := by
  change (a.assignments.insert f slot).entries.length ≤ _
  rw [AList.entries_insert, List.length_cons]
  exact Nat.succ_le_succ (List.kerase_sublist f a.assignments.entries).length_le

theorem length_assign_le (a : SlotAllocator) (f : FlowId) (slotCount : UInt32) :
    (a.assign f slotCount).2.assignments.entries.length ≤ a.assignments.entries.length + 1 := by
  unfold assign
  split
  · rename_i slot _
    split
    · exact Nat.le_succ _
    · exact (length_record_le ..).trans (Nat.succ_le_succ (length_remove_le a f slot))
  · exact length_record_le ..

/-- A slot that another flow is on is chosen only if there is no free one. -/
theorem Assigned.saturated {b : SlotAllocator} {g : FlowId} {slotCount slot' : UInt32}
    (held : a.Consistent) (assigned : a.Assigned g slotCount slot' b)
    (taken : a.assignments.lookup f = some slot) (moved : a.assignments.lookup g ≠ some slot)
    (given : b.assignments.lookup g = some slot) : ∀ k < slotCount, a.holders k ≠ 0 := by
  obtain rfl := Option.some.inj (assigned.recorded.symm.trans given)
  obtain ⟨count, -, counted, positive⟩ := held.entry taken
  have stale : ∀ s, a.assignments.lookup g = some s → ¬ s < slotCount := by
    intro s found inRange
    obtain ⟨rfl, -⟩ := assigned.kept s found inRange
    exact moved found
  have rule := assigned.chosen stale
  intro k less free
  by_cases home : a.holders (slotIdForFlow g.name slotCount) = 0
  · rw [← rule.home home] at home
    omega
  · have zero := (rule.lowest home ⟨k, less, free⟩).1
    omega

variable {slotCount : UInt32}

theorem choose_lt (a : SlotAllocator) (f : FlowId) (some_ : slotCount ≠ 0) :
    a.choose f slotCount < slotCount := by
  unfold choose
  simp only
  split
  · exact slotIdForFlow_lt f.name some_
  · cases found : ((List.range slotCount.toNat).map Nat.toUInt32).find? a.isFree with
    | none => exact slotIdForFlow_lt f.name some_
    | some slot =>
        obtain ⟨i, less, rfl⟩ := List.mem_map.mp (List.mem_of_find?_eq_some found)
        have bound := List.mem_range.mp less
        have index : i.toUInt32.toNat = i :=
          UInt32.toNat_ofNat_of_lt' (lt_trans bound (UInt32.toNat_lt slotCount))
        rw [Option.getD_some, UInt32.lt_iff_toNat_lt, index]
        exact bound

theorem assign_lt (a : SlotAllocator) (f : FlowId) (some_ : slotCount ≠ 0) :
    (a.assign f slotCount).1 < slotCount := by
  unfold assign
  split
  · split
    · assumption
    · exact choose_lt _ f some_
  · exact choose_lt a f some_

theorem assign_of_lt (found : a.assignments.lookup f = some slot) (less : slot < slotCount) :
    a.assign f slotCount = (slot, a) := by
  simp only [assign, found, if_pos less]

theorem lookup_assign (a : SlotAllocator) (f : FlowId) (slotCount : UInt32) (g : FlowId) :
    (a.assign f slotCount).2.assignments.lookup g =
      if g = f then some (a.assign f slotCount).1 else a.assignments.lookup g := by
  unfold assign
  cases found : a.assignments.lookup f with
  | none => exact lookup_record ..
  | some slot =>
      simp only
      by_cases less : slot < slotCount
      · simp only [if_pos less]
        split
        · subst g
          exact found
        · rfl
      · simp only [if_neg less, lookup_record, lookup_remove]
        split <;> rfl

theorem lookup_removeAll (a : SlotAllocator) (entries : List (Sigma fun _ : FlowId => UInt32))
    (g : FlowId) : (a.removeAll entries).assignments.lookup g =
      if g ∈ entries.map Sigma.fst then none else a.assignments.lookup g := by
  induction entries generalizing a with
  | nil => simp [removeAll]
  | cons entry rest ih =>
      have later := ih (a.remove entry.1 entry.2)
      rw [lookup_remove] at later
      refine later.trans ?_
      rw [List.map_cons]
      by_cases first : g = entry.1
      · simp [first]
      · simp only [List.mem_cons, first, false_or, if_false]

theorem lookup_sweepMissing (a : SlotAllocator) {registered : FlowId → Bool} {g : FlowId}
    (there : registered g = true) :
    (a.sweepMissing registered).2.assignments.lookup g = a.assignments.lookup g := by
  refine (lookup_removeAll a _ g).trans (if_neg ?_)
  intro member
  obtain ⟨entry, orphan, rfl⟩ := List.mem_map.mp member
  have gone := (List.mem_filter.mp orphan).2
  simp [there] at gone

theorem lookup_sweepMissing_missing (a : SlotAllocator) {registered : FlowId → Bool} {g : FlowId}
    (missing : registered g = false) : (a.sweepMissing registered).2.assignments.lookup g = none := by
  refine (lookup_removeAll a _ g).trans ?_
  split
  · rfl
  · rename_i kept
    cases found : a.assignments.lookup g with
    | none => rfl
    | some slot =>
        have entry : (⟨g, slot⟩ : Sigma fun _ : FlowId => UInt32) ∈ a.assignments.entries :=
          (List.mem_dlookup_iff a.assignments.nodupKeys).mp found
        exact absurd (List.mem_map_of_mem (List.mem_filter.mpr ⟨entry, by simp [missing]⟩)) kept

theorem lookup_of_sweepMissing {registered : FlowId → Bool} {g : FlowId}
    (found : (a.sweepMissing registered).2.assignments.lookup g = some slot) :
    a.assignments.lookup g = some slot := by
  have same := (lookup_removeAll a (a.orphans registered) g).symm.trans found
  split at same
  · cases same
  · exact same

/-- No two flows are on one slot. -/
def Exclusive (a : SlotAllocator) : Prop :=
  ∀ f g slot, a.assignments.lookup f = some slot → a.assignments.lookup g = some slot → f = g

variable {b : SlotAllocator} {n : UInt32}

theorem Exclusive.mono (exclusive : a.Exclusive)
    (less : ∀ f slot, b.assignments.lookup f = some slot → a.assignments.lookup f = some slot) :
    b.Exclusive :=
  fun f g slot foundF foundG => exclusive f g slot (less f slot foundF) (less g slot foundG)

theorem length_release_le (a : SlotAllocator) (f : FlowId) :
    (a.release f).assignments.entries.length ≤ a.assignments.entries.length := by
  unfold release
  split
  · exact length_remove_le ..
  · exact le_rfl

theorem length_removeAll_le (a : SlotAllocator) (entries : List (Sigma fun _ : FlowId => UInt32)) :
    (a.removeAll entries).assignments.entries.length ≤ a.assignments.entries.length := by
  induction entries generalizing a with
  | nil => exact le_rfl
  | cons entry rest ih => exact (ih (a.remove entry.1 entry.2)).trans (length_remove_le ..)

theorem length_keys (m : Assoc FlowId UInt32) : m.keys.length = m.entries.length :=
  List.length_map _

theorem exists_of_holders {slot : UInt32} (some_ : a.holders slot ≠ 0) :
    ∃ f, a.assignments.lookup f = some slot := by
  have listed : ∀ (entries : List (Sigma fun _ : FlowId => UInt32)) (count : Nat),
      entries.foldl (fun sum entry => sum + if entry.2 = slot then 1 else 0) count ≠ count →
        ∃ entry ∈ entries, entry.2 = slot := by
    intro entries
    induction entries with
    | nil => simp
    | cons entry rest ih =>
        intro count more
        by_cases here : entry.2 = slot
        · exact ⟨entry, List.mem_cons_self, here⟩
        · rw [List.foldl_cons, if_neg here] at more
          obtain ⟨later, member, there⟩ := ih _ more
          exact ⟨later, List.mem_cons_of_mem _ member, there⟩
  obtain ⟨entry, member, rfl⟩ := listed a.assignments.entries 0 some_
  exact ⟨entry.1, Assoc.lookup_of_mem_entries member⟩

theorem le_length_of_covered (keys : ∀ k < n, ∃ g, a.assignments.lookup g = some k) :
    n.toNat ≤ a.assignments.entries.length := by
  have inside : Finset.range n.toNat ⊆
      (a.assignments.entries.map fun entry => entry.2.toNat).toFinset := by
    intro k member
    have less := Finset.mem_range.mp member
    have index : k.toUInt32.toNat = k :=
      UInt32.toNat_ofNat_of_lt' (lt_trans less (UInt32.toNat_lt n))
    obtain ⟨g, found⟩ := keys k.toUInt32 (by rw [UInt32.lt_iff_toNat_lt, index]; exact less)
    have entry := (List.mem_dlookup_iff a.assignments.nodupKeys).mp found
    rw [List.mem_toFinset, List.mem_map]
    exact ⟨_, entry, index⟩
  calc n.toNat = (Finset.range n.toNat).card := (Finset.card_range _).symm
    _ ≤ (a.assignments.entries.map fun entry => entry.2.toNat).toFinset.card :=
      Finset.card_le_card inside
    _ ≤ (a.assignments.entries.map fun entry => entry.2.toNat).length := List.toFinset_card_le _
    _ = a.assignments.entries.length := List.length_map _

theorem length_erase (found : a.assignments.lookup f = some slot) :
    (a.assignments.erase f).entries.length + 1 = a.assignments.entries.length := by
  have member : f ∈ a.assignments.keys := AList.mem_keys.mp (Assoc.mem_iff_lookup.mpr ⟨slot, found⟩)
  have positive := List.length_pos_of_mem member
  have fewer := List.length_erase_of_mem member
  rw [← AList.keys_erase, length_keys, length_keys] at fewer
  rw [length_keys] at positive
  omega

theorem Assigned.alone (assigned : a.Assigned f n slot b)
    (room : b.assignments.entries.length ≤ n.toNat)
    (fresh : ∀ s, a.assignments.lookup f = some s → ¬ s < n) : a.holders slot = 0 := by
  have rule := assigned.chosen fresh
  have free : ∃ s < n, a.holders s = 0 := by
    by_contra full
    have fewer := length_erase assigned.recorded
    have covered : n.toNat ≤ (b.assignments.erase f).entries.length := by
      refine le_length_of_covered (a := ⟨b.assignments.erase f, b.occupied⟩) ?_
      intro k less
      obtain ⟨g, found⟩ := exists_of_holders fun zero => full ⟨k, less, zero⟩
      have other : g ≠ f := by
        rintro rfl
        exact fresh k found less
      refine ⟨g, ?_⟩
      rw [Assoc.lookup_erase, if_neg other, assigned.others g other]
      exact found
    omega
  by_cases home : a.holders (slotIdForFlow f.name n) = 0
  · rw [rule.home home]
    exact home
  · exact (rule.lowest home free).1

theorem Exclusive.assign (held : a.Consistent) (exclusive : a.Exclusive)
    (assigned : a.Assigned f n slot b) (room : b.assignments.entries.length ≤ n.toNat) :
    b.Exclusive := by
  by_cases stays : ∃ s, a.assignments.lookup f = some s ∧ s < n
  · obtain ⟨s, found, less⟩ := stays
    rw [(assigned.kept s found less).2]
    exact exclusive
  · have fresh : ∀ s, a.assignments.lookup f = some s → ¬ s < n :=
      fun s found less => stays ⟨s, found, less⟩
    have alone := assigned.alone room fresh
    -- Nobody else was on the new slot.
    have others : ∀ g, g ≠ f → b.assignments.lookup g ≠ some slot := by
      intro g other found
      rw [assigned.others g other] at found
      obtain ⟨count, -, counted, positive⟩ := held.entry found
      omega
    intro g h s foundG foundH
    by_cases mineG : g = f
    · subst g
      obtain rfl := Option.some.inj (assigned.recorded.symm.trans foundG)
      by_contra other
      exact others h (Ne.symm other) foundH
    · by_cases mineH : h = f
      · subst h
        obtain rfl := Option.some.inj (assigned.recorded.symm.trans foundH)
        exact absurd foundG (others g mineG)
      · rw [assigned.others g mineG] at foundG
        rw [assigned.others h mineH] at foundH
        exact exclusive g h s foundG foundH

end SlotAllocator

open TinyLlb.SlotAllocator

/-- What an operation returns and what it leaves. -/
def SlotResult (a : SlotAllocator) (event : Option SlotEvent) (b : SlotAllocator) : SlotAction → Prop
  | .assign f slotCount =>
      ∃ slot, event = some (.assigned slot) ∧ a.Assigned f slotCount slot b
  | .release f =>
      event = none ∧ ∀ g, b.assignments.lookup g = if g = f then none else a.assignments.lookup g
  | .sweepMissing registered =>
      event = some (.dropped (a.orphans registered).length) ∧
        ∀ g, b.assignments.lookup g = if registered g then a.assignments.lookup g else none

/-- One operation between consistent maps, with no count below zero. -/
structure SlotStep (tr : Transition SlotAllocator SlotAction SlotEvent) : Prop where
  consistent : tr.post.Consistent
  noUnderflow : ∀ call ∈ tr.pre.frees tr.action, call.1.occupied.lookup call.2 ≠ some 0
  result : SlotResult tr.pre tr.event tr.post tr.action

theorem SlotStep.of_next {a b : SlotAllocator} {action : SlotAction} {event : Option SlotEvent}
    (held : a.Consistent) (fits : ∀ s, b.holders s < 4294967296)
    (step : nextSlots a action = some (b, event)) : SlotStep ⟨a, action, event, b⟩ := by
  cases action with
  | assign f slotCount =>
      simp only [nextSlots] at step
      split at step
      · cases step
      · rename_i some_
        cases step
        obtain ⟨consistent, assigned⟩ := held.assign f some_ fits
        refine ⟨consistent, ?_, _, rfl, assigned⟩
        intro call member
        simp only [frees] at member
        split at member
        · split at member
          · cases member
          · obtain rfl := List.mem_singleton.mp member
            exact held.nonzero _
        · cases member
  | release f =>
      cases step
      refine ⟨held.release f, ?_, rfl, lookup_release a f⟩
      intro call member
      simp only [frees] at member
      split at member
      · obtain rfl := List.mem_singleton.mp member
        exact held.nonzero _
      · cases member
  | sweepMissing registered =>
      cases step
      obtain ⟨consistent, lookups, safe⟩ := held.sweep registered
      exact ⟨consistent, safe, rfl, lookups⟩

/-- As long as no slot has 2^32 flows on it, in every run the counts are those of
    the assignments, no entry is zero, no decrement meets a zero, and every
    operation returns and changes what it should. -/
theorem slot_allocator {ts a} (run : slotAllocator.Exec slotAllocator.start ts a)
    (fits : ∀ tr ∈ ts, ∀ s, tr.post.holders s < 4294967296) :
    a.Consistent ∧ ∀ tr ∈ ts, SlotStep tr := by
  have consistent : ∀ {us b}, slotAllocator.Exec slotAllocator.start us b → (∀ tr ∈ us, tr ∈ ts) →
      b.Consistent := by
    intro us b part inside
    refine part.invariant_within (C := fun tr => ∀ s, tr.post.holders s < 4294967296)
      (fun tr member => fits tr (inside tr member)) Consistent.new ?_
    intro v action w event held fits step
    exact (SlotStep.of_next held fits step).consistent
  refine ⟨consistent run fun _ member => member, ?_⟩
  intro tr member
  obtain ⟨before, after, rfl, first, -⟩ := run.split_of_mem member
  have held := consistent first fun tr inBefore => List.mem_append_left _ inBefore
  exact SlotStep.of_next held (fits tr member) (run.step_of_mem member)

/-- Two slots shrink to one while both are taken, and both flows go. -/
def shrinkingSlots : List SlotAction :=
  [.assign ⟨"a"⟩ 2, .assign ⟨"c"⟩ 2, .assign ⟨"a"⟩ 1, .assign ⟨"c"⟩ 1, .release ⟨"a"⟩,
    .sweepMissing fun _ => false]

theorem slot_allocator_shrinking :
    (slotAllocator.trace shrinkingSlots).length = 6 ∧
      (slotAllocator.after shrinkingSlots).Consistent ∧
        ∀ tr ∈ slotAllocator.trace shrinkingSlots, SlotStep tr := by
  refine ⟨by decide +kernel, slot_allocator (slotAllocator.exec_after shrinkingSlots) ?_⟩
  have few : ∀ tr ∈ slotAllocator.trace shrinkingSlots,
      tr.post.assignments.entries.length ≤ 2 := by
    decide +kernel
  intro tr member s
  have bound := holders_le tr.post s
  have two := few tr member
  omega

/-- Flows of pairwise different names. -/
def crowd (k : Nat) : FlowId := ⟨String.ofList (List.replicate k 'a')⟩

theorem crowd_inj {k j : Nat} (same : crowd k = crowd j) : k = j := by
  have chars := String.ofList_injective (FlowId.mk.inj same)
  simpa using congrArg List.length chars

theorem choose_one (a : SlotAllocator) (f : FlowId) : a.choose f 1 = 0 := by
  have home : slotIdForFlow f.name 1 = 0 := by
    have less : slotIdForFlow f.name 1 < 1 := slotIdForFlow_lt f.name (by decide)
    rw [UInt32.lt_iff_toNat_lt, UInt32.toNat_one, Nat.lt_one_iff] at less
    exact UInt32.toNat_inj.mp less
  have range : (List.range (1 : UInt32).toNat).map Nat.toUInt32 = [0] := by decide
  simp only [choose, home, range]
  by_cases free : a.isFree 0 = true
  · rw [if_pos free]
  · simp [free]

theorem crowded (n : Nat) : ∃ ts a, slotAllocator.Exec slotAllocator.start ts a ∧
    (∀ k, n ≤ k → a.assignments.lookup (crowd k) = none) ∧ a.holders 0 = n ∧
      (a.occupied.lookup 0).getD 0 = UInt32.ofNat n ∧ (0 < n → a.occupied.lookup 0 ≠ none) := by
  induction n with
  | zero => exact ⟨[], _, .nil, fun _ _ => rfl, rfl, rfl, fun none_ => absurd none_ (lt_irrefl 0)⟩
  | succ n ih =>
      obtain ⟨ts, a, run, fresh, held, count, -⟩ := ih
      have absent := fresh n le_rfl
      have step : slotAllocator.next a (.assign (crowd n) 1) =
          some (a.record (crowd n) 0, some (.assigned 0)) := by
        simp [slotAllocator, nextSlots, assign, absent, choose_one]
      have entry : (a.record (crowd n) 0).occupied.lookup 0 = some (UInt32.ofNat (n + 1)) := by
        rw [record, Assoc.lookup_insert, if_pos rfl, count, UInt32.ofNat_add]
        rfl
      refine ⟨_, _, run.snoc step, ?_, ?_, ?_, ?_⟩
      · intro k later
        have other : crowd k ≠ crowd n := by
          intro same
          have equal := crowd_inj same
          omega
        rw [lookup_record, if_neg other]
        exact fresh k (by omega)
      · rw [holders_record absent, if_pos rfl, held]
      · rw [entry, Option.getD_some]
      · intro _
        rw [entry]
        exact Option.some_ne_none _

/-- 2^32 flows on the only slot, and its count is back at zero. -/
theorem slot_count_wraps : ∃ ts a, slotAllocator.Exec slotAllocator.start ts a ∧
    a.holders 0 = 4294967296 ∧ a.occupied.lookup 0 = some 0 ∧ ¬ a.Consistent := by
  obtain ⟨ts, a, run, -, held, count, present⟩ := crowded 4294967296
  obtain ⟨value, entry⟩ := Option.ne_none_iff_exists'.mp (present (by decide))
  have zero : a.occupied.lookup 0 = some 0 := by
    rw [entry, Option.getD_some] at count
    rw [entry, count]
    decide +kernel
  exact ⟨ts, a, run, held, zero, fun consistent => consistent.nonzero 0 zero⟩

end TinyLlb
