import TinyLlb.Flow

/-! # Request bodies, lifecycle guards and the progress tracker

A request's cost is read from its body before admission. Once its ticket is
there, a `LifecycleGuard` counts the delivered tokens and, when it is dropped,
reports what is to be restored of the cost. The progress tracker keeps the
estimated and delivered tokens of each flow's open guards. Lifecycle events and
log lines are left out.
-/

namespace TinyLlb

/-- The value of a body's `max_tokens` member. -/
inductive MaxTokens where
  | number (value : F64)
  /-- A string, a null, an object and so on. -/
  | other
  deriving DecidableEq

/-- What `extract_max_tokens` tells apart in a request body. -/
inductive RequestBody where
  | empty
  | unparseable
  | json (maxTokens : Option MaxTokens)
  deriving DecidableEq

def extractMaxTokens : RequestBody → F64
  | .empty => .fin 1024
  | .unparseable => .fin 1024
  | .json (some (.number value)) => value
  | .json _ => .fin 1024

/-- `saturating_sub`; the exact reading does not saturate. -/
def I64Arith.saturatingSub : I64Arith → Int → Int → Int
  | .exact, a, b => a - b
  | .wrapping, a, b => max i64Min (min i64Max (a - b))

theorem I64Arith.saturatingSub_of_inI64 (arith : I64Arith) {a b : Int} (fits : InI64 (a - b)) :
    arith.saturatingSub a b = a - b := by
  cases arith with
  | exact => rfl
  | wrapping =>
      change max i64Min (min i64Max (a - b)) = a - b
      rw [min_eq_right fits.2, max_eq_right fits.1]

structure LifecycleGuard where
  flowId : FlowId
  estimatedCost : Int
  completedNormally : Bool
  deliveredTokens : Int
  deriving DecidableEq

namespace LifecycleGuard

def new (flowId : FlowId) (estimatedCost : Int) : LifecycleGuard :=
  ⟨flowId, estimatedCost, false, 0⟩

def addDeliveredTokens (arith : I64Arith) (guard : LifecycleGuard) (count : Int) : LifecycleGuard :=
  { guard with deliveredTokens := arith.store (guard.deliveredTokens + count) }

def markCompleted (guard : LifecycleGuard) : LifecycleGuard :=
  { guard with completedNormally := true }

/-- The `restore_cost` that the drop of the guard reports. -/
def restoreCost (arith : I64Arith) (guard : LifecycleGuard) : Int :=
  if guard.completedNormally then
    if guard.deliveredTokens > 0 then arith.store (guard.estimatedCost - guard.deliveredTokens)
    else 0
  else arith.saturatingSub guard.estimatedCost guard.deliveredTokens

end LifecycleGuard

structure ProgressEntry where
  estimated : Int
  delivered : Int
  deriving DecidableEq

abbrev FlowProgressTracker := Assoc FlowId ProgressEntry

namespace FlowProgressTracker

def register (arith : I64Arith) (tracker : FlowProgressTracker) (f : FlowId) (estimated : Int) :
    FlowProgressTracker :=
  let entry := (tracker.lookup f).getD ⟨0, 0⟩
  tracker.insert f { entry with estimated := arith.store (entry.estimated + estimated) }

/-- Without an entry the tokens go uncounted. -/
def updateDelivered (arith : I64Arith) (tracker : FlowProgressTracker) (f : FlowId) (delta : Int) :
    FlowProgressTracker :=
  match tracker.lookup f with
  | some entry => tracker.insert f { entry with delivered := arith.store (entry.delivered + delta) }
  | none => tracker

/-- An entry that comes down to zero on both sides is removed. -/
def unregister (arith : I64Arith) (tracker : FlowProgressTracker) (f : FlowId)
    (estimated delivered : Int) : FlowProgressTracker :=
  match tracker.lookup f with
  | some entry =>
      let newEst := arith.saturatingSub entry.estimated estimated
      let newDel := arith.saturatingSub entry.delivered delivered
      if newEst = 0 ∧ newDel = 0 then tracker.erase f else tracker.insert f ⟨newEst, newDel⟩
  | none => tracker

def deliveredFor (tracker : FlowProgressTracker) (f : FlowId) : Int :=
  ((tracker.lookup f).map ProgressEntry.delivered).getD 0

/-- The estimate tracked for a flow; none is zero. -/
def estimatedFor (tracker : FlowProgressTracker) (f : FlowId) : Int :=
  ((tracker.lookup f).map ProgressEntry.estimated).getD 0

theorem estimatedFor_register (arith : I64Arith) (tracker : FlowProgressTracker) (f : FlowId)
    (estimated : Int) (g : FlowId) :
    (tracker.register arith f estimated).estimatedFor g =
      if g = f then arith.store (tracker.estimatedFor f + estimated) else tracker.estimatedFor g := by
  unfold register estimatedFor
  rw [Assoc.lookup_insert]
  split
  · cases tracker.lookup f <;> rfl
  · rfl

theorem estimatedFor_updateDelivered (arith : I64Arith) (tracker : FlowProgressTracker) (f : FlowId)
    (delta : Int) (g : FlowId) :
    (tracker.updateDelivered arith f delta).estimatedFor g = tracker.estimatedFor g := by
  unfold updateDelivered
  cases found : tracker.lookup f with
  | none => rfl
  | some entry =>
      unfold estimatedFor
      rw [Assoc.lookup_insert]
      split
      · subst g
        rw [found]
        rfl
      · rfl

theorem estimatedFor_unregister_other (arith : I64Arith) (tracker : FlowProgressTracker)
    {f g : FlowId} (other : g ≠ f) (estimated delivered : Int) :
    (tracker.unregister arith f estimated delivered).estimatedFor g = tracker.estimatedFor g := by
  unfold unregister
  cases tracker.lookup f with
  | none => rfl
  | some entry =>
      simp only
      unfold estimatedFor
      split
      · rw [Assoc.lookup_erase, if_neg other]
      · rw [Assoc.lookup_insert, if_neg other]

/-- A removed entry has come down to zero anyway. An entry that is gone already,
    because the estimates of the open guards cancelled out before, stays away. -/
theorem estimatedFor_unregister (arith : I64Arith) (tracker : FlowProgressTracker) (f : FlowId)
    (estimated delivered : Int) :
    (tracker.unregister arith f estimated delivered).estimatedFor f =
        arith.saturatingSub (tracker.estimatedFor f) estimated ∨
      tracker.estimatedFor f = 0 ∧
        (tracker.unregister arith f estimated delivered).estimatedFor f = 0 := by
  cases found : tracker.lookup f with
  | none =>
      right
      have absent : tracker.estimatedFor f = 0 := by
        unfold estimatedFor
        rw [found]
        rfl
      refine ⟨absent, ?_⟩
      unfold unregister
      simp only [found]
      exact absent
  | some entry =>
      left
      have here : tracker.estimatedFor f = entry.estimated := by
        unfold estimatedFor
        rw [found]
        rfl
      unfold unregister
      simp only [found]
      rw [here]
      unfold estimatedFor
      split
      · rename_i done
        rw [Assoc.lookup_erase, if_pos rfl, done.1]
        rfl
      · rw [Assoc.lookup_insert, if_pos rfl]
        rfl

end FlowProgressTracker

end TinyLlb
