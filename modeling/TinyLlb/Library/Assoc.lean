import Mathlib.Algebra.BigOperators.Group.Finset.Basic
import Mathlib.Algebra.Order.BigOperators.Group.Finset
import Mathlib.Data.List.AList

/-! # Association maps

Hash maps whose iteration order nobody relies on are kept as `AList`s with one
value type. Only the case-split forms of the lookup laws are added here: they
let one rewrite decide an update at an arbitrary key. A sum over all entries is
determined by what the keys count for, whatever the order and whichever keys of
count zero are present.
-/

/-- A finite map from `κ` to `ν`. -/
abbrev Assoc (κ ν : Type*) := AList (fun _ : κ => ν)

namespace Assoc

variable {κ ν : Type*}

/-- The keys whose value meets `p`. -/
def keysWhere (p : ν → Bool) (m : Assoc κ ν) : List κ :=
  (m.entries.filter fun entry => p entry.2).map Sigma.fst

theorem keysWhere_eq_nil {p : ν → Bool} {m : Assoc κ ν}
    (h : ∀ entry ∈ m.entries, p entry.2 = false) : m.keysWhere p = [] := by
  simp only [keysWhere, List.map_eq_nil_iff, List.filter_eq_nil_iff]
  intro entry member
  simp [h entry member]

variable [DecidableEq κ]

theorem lookup_insert (m : Assoc κ ν) (k : κ) (v : ν) (k' : κ) :
    (m.insert k v).lookup k' = if k' = k then some v else m.lookup k' := by
  split
  · subst k'
    exact AList.lookup_insert m
  · exact AList.lookup_insert_ne ‹_›

theorem lookup_erase (m : Assoc κ ν) (k k' : κ) :
    (m.erase k).lookup k' = if k' = k then none else m.lookup k' := by
  split
  · subst k'
    exact AList.lookup_erase k m
  · exact AList.lookup_erase_ne ‹_›

theorem mem_iff_lookup {m : Assoc κ ν} {k : κ} : k ∈ m ↔ ∃ v, m.lookup k = some v := by
  rw [← AList.lookup_isSome, Option.isSome_iff_exists]

theorem notMem_iff_lookup {m : Assoc κ ν} {k : κ} : k ∉ m ↔ m.lookup k = none :=
  AList.lookup_eq_none.symm

theorem lookup_of_mem_entries {m : Assoc κ ν} {entry} (h : entry ∈ m.entries) :
    m.lookup entry.1 = some entry.2 :=
  (List.mem_dlookup_iff m.nodupKeys).mpr h

theorem mem_keysWhere_iff {p : ν → Bool} {m : Assoc κ ν} {k : κ} :
    k ∈ m.keysWhere p ↔ ∃ v, m.lookup k = some v ∧ p v = true := by
  unfold keysWhere
  rw [List.mem_map]
  constructor
  · rintro ⟨entry, member, rfl⟩
    rw [List.mem_filter] at member
    exact ⟨entry.2, lookup_of_mem_entries member.1, member.2⟩
  · rintro ⟨v, found, meets⟩
    have member : ⟨k, v⟩ ∈ m.entries := (List.mem_dlookup_iff m.nodupKeys).mp found
    exact ⟨⟨k, v⟩, List.mem_filter.mpr ⟨member, meets⟩, rfl⟩

theorem lookup_eraseAll (keys : List κ) (m : Assoc κ ν) (k : κ) :
    (keys.foldl (fun m k => m.erase k) m).lookup k = if k ∈ keys then none else m.lookup k := by
  induction keys generalizing m with
  | nil => rfl
  | cons first rest ih =>
      rw [List.foldl_cons, ih, lookup_erase]
      by_cases here : k = first
      · simp [here]
      · by_cases later : k ∈ rest
        · simp [later]
        · simp [here, later]

/-- What the entries count for together. -/
def total (g : κ → ν → Nat) (m : Assoc κ ν) : Nat :=
  m.entries.foldl (fun sum entry => sum + g entry.1 entry.2) 0

/-- What one key counts for; nothing where it is absent. -/
def worth (g : κ → ν → Nat) (m : Assoc κ ν) (k : κ) : Nat := (m.lookup k).elim 0 (g k)

variable {g : κ → ν → Nat} {m m' : Assoc κ ν} {k : κ}

theorem total_eq_sum (keys : Finset κ) (covers : ∀ j, j ∈ m → j ∈ keys) :
    total g m = ∑ j ∈ keys, worth g m j := by
  have listed : total g m = (m.keys.map (worth g m)).sum := by
    have folded : ∀ (entries : List (Sigma fun _ : κ => ν)) (start : Nat),
        entries.foldl (fun sum entry => sum + g entry.1 entry.2) start =
          start + (entries.map fun entry => g entry.1 entry.2).sum := by
      intro entries
      induction entries with
      | nil => simp
      | cons entry rest ih =>
          intro start
          rw [List.foldl_cons, ih, List.map_cons, List.sum_cons]
          omega
    unfold total AList.keys List.keys
    rw [folded, Nat.zero_add, List.map_map]
    apply congrArg List.sum
    apply List.map_congr_left
    intro entry member
    simp [worth, lookup_of_mem_entries member]
  rw [listed, ← List.sum_toFinset _ m.keys_nodup]
  apply Finset.sum_subset
  · intro j member
    exact covers j (List.mem_toFinset.mp member)
  · intro j _ absent
    have missing : m.lookup j = none := notMem_iff_lookup.mp fun member =>
      absent (List.mem_toFinset.mpr member)
    simp [worth, missing]

theorem exists_cover (m m' : Assoc κ ν) (k : κ) :
    ∃ keys : Finset κ, k ∈ keys ∧ (∀ j, j ∈ m → j ∈ keys) ∧ ∀ j, j ∈ m' → j ∈ keys := by
  refine ⟨insert k (m.keys.toFinset ∪ m'.keys.toFinset), Finset.mem_insert_self _ _, ?_, ?_⟩
  · intro j member
    exact Finset.mem_insert_of_mem (Finset.mem_union_left _ (List.mem_toFinset.mpr member))
  · intro j member
    exact Finset.mem_insert_of_mem (Finset.mem_union_right _ (List.mem_toFinset.mpr member))

theorem total_split {keys : Finset κ} (here : k ∈ keys) (covers : ∀ j, j ∈ m → j ∈ keys) :
    total g m = ∑ j ∈ keys.erase k, worth g m j + worth g m k := by
  rw [Finset.sum_erase_add _ _ here]
  exact total_eq_sum keys covers

theorem total_update (same : ∀ j, j ≠ k → worth g m' j = worth g m j) :
    total g m' + worth g m k = total g m + worth g m' k := by
  obtain ⟨keys, here, covers, covers'⟩ := exists_cover m m' k
  have rest : ∑ j ∈ keys.erase k, worth g m' j = ∑ j ∈ keys.erase k, worth g m j :=
    Finset.sum_congr rfl fun j member => same j (Finset.ne_of_mem_erase member)
  rw [total_split here covers, total_split here covers', rest]
  omega

theorem total_congr_worth (same : ∀ j, worth g m' j = worth g m j) : total g m' = total g m := by
  rw [total_eq_sum (m.keys.toFinset ∪ m'.keys.toFinset) fun j member =>
      Finset.mem_union_left _ (List.mem_toFinset.mpr member),
    total_eq_sum (m.keys.toFinset ∪ m'.keys.toFinset) fun j member =>
      Finset.mem_union_right _ (List.mem_toFinset.mpr member)]
  exact Finset.sum_congr rfl fun j _ => same j

theorem total_eq_worth_iff : total g m = worth g m k ↔ ∀ j, j ≠ k → worth g m j = 0 := by
  obtain ⟨keys, here, covers, -⟩ := exists_cover m m k
  rw [total_split here covers]
  constructor
  · intro alone j other
    have zero : ∑ j ∈ keys.erase k, worth g m j = 0 := by omega
    by_cases present : j ∈ m
    · exact Finset.sum_eq_zero_iff.mp zero j (Finset.mem_erase.mpr ⟨other, covers j present⟩)
    · simp [worth, notMem_iff_lookup.mp present]
  · intro alone
    rw [Finset.sum_eq_zero fun j member => alone j (Finset.ne_of_mem_erase member)]
    exact Nat.zero_add _

end Assoc
