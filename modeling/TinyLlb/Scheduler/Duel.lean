import TinyLlb.Scheduler.Rounds

/-! # Two flows that always wait

Take two flows of one priority whose waiting requests all have the same truncated
cost. Who is served in a round then depends on the order of the two in the cursor
and on their deficits, and on nothing else of the requests: in particular not on
the fraction of a work unit that truncation drops. `Duel` is that contest on its
own, and `Facing` ties it to the scheduler's state.
-/

namespace TinyLlb

/-- Two flows in cursor order with their deficits. -/
structure Duel where
  front : FlowId
  back : FlowId
  ahead : Int
  behind : Int
  deriving DecidableEq

namespace Duel

variable (arith : I64Arith) (share : FlowId → Int) (need : Int)

/-- One round: who wins it, if anybody, and how the two stand afterwards. -/
def round (d : Duel) : Option FlowId × Duel :=
  let ahead := arith.store (d.ahead + share d.front)
  let behind := arith.store (d.behind + share d.back)
  if need ≤ ahead then (some d.front, ⟨d.back, d.front, behind, 0⟩)
  else if need ≤ behind then (some d.back, ⟨d.front, d.back, ahead, 0⟩)
  else (none, ⟨d.back, d.front, behind, ahead⟩)

/-- The winners of the next rounds, in order. -/
def winners : Nat → Duel → List FlowId
  | 0, _ => []
  | n + 1, d => (d.round arith share need).1.toList ++ winners n (d.round arith share need).2

def after : Nat → Duel → Duel
  | 0, d => d
  | n + 1, d => after n (d.round arith share need).2

/-- Both deficits are cells that were written, so they fit. -/
structure Stored (arith : I64Arith) (d : Duel) : Prop where
  ahead : ∃ n, d.ahead = arith.store n
  behind : ∃ n, d.behind = arith.store n

/-- Shares that truncated weights can be. -/
def Shares (share : FlowId → Int) (d : Duel) : Prop :=
  ∀ f ∈ [d.front, d.back], 1 ≤ share f ∧ share f ≤ i64Max

variable {arith share need} {d : Duel}

theorem store_add {cell n t : Int} (stored : cell = arith.store n) (low : cell ≤ 0)
    (share : 1 ≤ t ∧ t ≤ i64Max) : arith.store (cell + t) = cell + t := by
  cases arith with
  | exact => rfl
  | wrapping =>
      have least : -9223372036854775808 ≤ cell := by
        rw [stored]
        exact Int.le_bmod (by decide)
      have most : t ≤ 9223372036854775807 := share.2
      have positive := share.1
      unfold I64Arith.store
      apply Int.bmod_eq_of_le <;> omega

theorem round_of_front (wins : need ≤ arith.store (d.ahead + share d.front)) :
    d.round arith share need =
      (some d.front, ⟨d.back, d.front, arith.store (d.behind + share d.back), 0⟩) := by
  simp only [round, wins, if_true]

theorem round_of_back (low : ¬ need ≤ arith.store (d.ahead + share d.front))
    (wins : need ≤ arith.store (d.behind + share d.back)) :
    d.round arith share need =
      (some d.back, ⟨d.front, d.back, arith.store (d.ahead + share d.front), 0⟩) := by
  simp only [round, low, wins, if_true, if_false]

theorem round_of_neither (low : ¬ need ≤ arith.store (d.ahead + share d.front))
    (low' : ¬ need ≤ arith.store (d.behind + share d.back)) :
    d.round arith share need =
      (none, ⟨d.back, d.front, arith.store (d.behind + share d.back),
        arith.store (d.ahead + share d.front)⟩) := by
  simp only [round, low, low', if_false]

theorem Stored.zero (arith : I64Arith) (x y : FlowId) : Stored arith ⟨x, y, 0, 0⟩ := by
  have zero : (0 : Int) = arith.store 0 := by cases arith <;> rfl
  exact ⟨⟨0, zero⟩, ⟨0, zero⟩⟩

theorem Stored.round (stored : d.Stored arith) : (d.round arith share need).2.Stored arith := by
  have zero : (0 : Int) = arith.store 0 := by cases arith <;> rfl
  unfold Duel.round
  simp only
  split
  · exact ⟨⟨_, rfl⟩, ⟨_, zero⟩⟩
  · split
    · exact ⟨⟨_, rfl⟩, ⟨_, zero⟩⟩
    · exact ⟨⟨_, rfl⟩, ⟨_, rfl⟩⟩

theorem round_flows (arith : I64Arith) (share : FlowId → Int) (need : Int) (d : Duel) :
    let d' := (d.round arith share need).2
    (d'.front = d.front ∧ d'.back = d.back) ∨ (d'.front = d.back ∧ d'.back = d.front) := by
  unfold Duel.round
  simp only
  split
  · exact .inr ⟨rfl, rfl⟩
  · split
    · exact .inl ⟨rfl, rfl⟩
    · exact .inr ⟨rfl, rfl⟩

theorem mem_round_flows (arith : I64Arith) (share : FlowId → Int) (need : Int) (d : Duel)
    (f : FlowId) :
    f ∈ [(d.round arith share need).2.front, (d.round arith share need).2.back] ↔
      f ∈ [d.front, d.back] := by
  obtain ⟨front, back⟩ | ⟨front, back⟩ := d.round_flows arith share need
  · rw [front, back]
  · rw [front, back]
    simp [or_comm]

theorem Shares.round (shares : d.Shares share) :
    (d.round arith share need).2.Shares share := by
  intro f member
  exact shares f ((d.mem_round_flows arith share need f).mp member)

theorem mem_of_winner {f : FlowId} (won : (d.round arith share need).1 = some f) :
    f = d.front ∨ f = d.back := by
  unfold Duel.round at won
  simp only at won
  split at won
  · exact .inl (Option.some.inj won).symm
  · split at won
    · exact .inr (Option.some.inj won).symm
    · cases won

theorem mem_winners {n : Nat} {f : FlowId} (member : f ∈ winners arith share need n d) :
    f ∈ [d.front, d.back] := by
  induction n generalizing d with
  | zero => simp [winners] at member
  | succ n ih =>
      rw [winners, List.mem_append] at member
      cases member with
      | inl now => simpa using mem_of_winner (Option.mem_toList.mp now)
      | inr later => exact (d.mem_round_flows arith share need f).mp (ih later)

theorem length_winners (apart : d.front ≠ d.back) (n : Nat) :
    (winners arith share need n d).length =
      (winners arith share need n d).count d.front + (winners arith share need n d).count d.back := by
  have listed : ∀ f ∈ winners arith share need n d, f ∈ [d.front, d.back] := fun _ => mem_winners
  generalize winners arith share need n d = wins at listed
  induction wins with
  | nil => rfl
  | cons f rest ih =>
      have tail := ih fun g member => listed g (List.mem_cons_of_mem _ member)
      have head := listed f List.mem_cons_self
      simp only [List.mem_cons, List.not_mem_nil, or_false] at head
      rw [List.length_cons, List.count_cons, List.count_cons, tail]
      obtain rfl | rfl := head
      · simp [apart]
        omega
      · simp [apart.symm]
        omega

theorem winners_add (m n : Nat) (d : Duel) :
    winners arith share need (m + n) d =
      winners arith share need m d ++ winners arith share need n (after arith share need m d) := by
  induction m generalizing d with
  | zero => simp [winners, after]
  | succ m ih =>
      rw [Nat.succ_add, winners, winners, after, ih, List.append_assoc]

theorem Stored.after (stored : d.Stored arith) (n : Nat) :
    (after arith share need n d).Stored arith := by
  induction n generalizing d with
  | zero => exact stored
  | succ n ih => exact ih stored.round

theorem Shares.after (arith : I64Arith) (need : Int) (shares : d.Shares share) (n : Nat) :
    (after arith share need n d).Shares share := by
  induction n generalizing d with
  | zero => exact shares
  | succ n ih => exact ih shares.round

theorem round_of_none (nobody : (d.round arith share need).1 = none) :
    arith.store (d.ahead + share d.front) < need ∧ arith.store (d.behind + share d.back) < need ∧
      (d.round arith share need).2 =
        ⟨d.back, d.front, arith.store (d.behind + share d.back),
          arith.store (d.ahead + share d.front)⟩ := by
  by_cases wins : need ≤ arith.store (d.ahead + share d.front)
  · simp [round_of_front wins] at nobody
  · by_cases wins' : need ≤ arith.store (d.behind + share d.back)
    · simp [round_of_back wins wins'] at nobody
    · rw [round_of_neither wins wins']
      exact ⟨not_le.mp wins, not_le.mp wins', rfl⟩

theorem winners_of_round {f : FlowId} (won : (d.round arith share need).1 = some f) :
    winners arith share need 1 d ≠ [] := by
  simp [winners, won]

theorem winners_of_later {n : Nat}
    (later : winners arith share need n (d.round arith share need).2 ≠ []) :
    winners arith share need (n + 1) d ≠ [] := by
  rw [winners]
  exact List.append_ne_nil_of_right_ne_nil _ later

/-- Deficits that are not positive rise without overflow until one of them
    covers the cost. -/
theorem exists_winner_of_low (small : need ≤ 1) (k : Nat) (stored : d.Stored arith)
    (shares : d.Shares share) (ahead : d.ahead ≤ 0) (behind : d.behind ≤ 0)
    (bound : -d.ahead - d.behind ≤ k) : ∃ n, winners arith share need n d ≠ [] := by
  induction k using Nat.strong_induction_on generalizing d with
  | _ k ih =>
      cases won : (d.round arith share need).1 with
      | some f => exact ⟨1, winners_of_round won⟩
      | none =>
          obtain ⟨low, low', next⟩ := round_of_none won
          obtain ⟨m, cell⟩ := stored.ahead
          obtain ⟨m', cell'⟩ := stored.behind
          have front := shares d.front (by simp)
          have back := shares d.back (by simp)
          rw [store_add cell ahead front] at low next
          rw [store_add cell' behind back] at low' next
          have later : ∃ n, winners arith share need n (d.round arith share need).2 ≠ [] := by
            refine ih (k - 1) (by omega) stored.round shares.round ?_ ?_ ?_
            all_goals
              rw [next]
              simp only
              omega
          obtain ⟨n, some_⟩ := later
          exact ⟨n + 1, winners_of_later some_⟩

theorem exists_winner (small : need ≤ 1) (stored : d.Stored arith) (shares : d.Shares share) :
    ∃ n, winners arith share need n d ≠ [] := by
  cases won : (d.round arith share need).1 with
  | some f => exact ⟨1, winners_of_round won⟩
  | none =>
      -- Whatever the deficits were, a round that nobody wins leaves them low.
      obtain ⟨low, low', next⟩ := round_of_none won
      have later : ∃ n, winners arith share need n (d.round arith share need).2 ≠ [] := by
        refine exists_winner_of_low small
          (-(d.round arith share need).2.ahead - (d.round arith share need).2.behind).toNat
          stored.round shares.round ?_ ?_ (Int.self_le_toNat _)
        all_goals
          rw [next]
          simp only
          omega
      obtain ⟨n, some_⟩ := later
      exact ⟨n + 1, winners_of_later some_⟩

/-- The contest never dries up. -/
theorem winners_unbounded (small : need ≤ 1) (stored : d.Stored arith) (shares : d.Shares share)
    (k : Nat) : ∃ n, k ≤ (winners arith share need n d).length := by
  induction k generalizing d with
  | zero => exact ⟨0, Nat.zero_le _⟩
  | succ k ih =>
      obtain ⟨m, some_⟩ := exists_winner small stored shares
      obtain ⟨n, long⟩ := ih (stored.after m) (shares.after arith need m)
      have first := List.length_pos_iff.mpr some_
      refine ⟨m + n, ?_⟩
      rw [winners_add, List.length_append]
      omega

end Duel

/-- The two flows are the whole cursor, and every request costs `need`. -/
structure Facing (need : Int) (d : Duel) (s : DrrState) : Prop where
  cursor : s.rrCursor = [d.front, d.back]
  ahead : s.credit d.front = d.ahead
  behind : s.credit d.back = d.behind
  costs : ∀ f, ∀ p ∈ s.queue f, p.cost = need

/-- What a round reads of the registry and the environment for a duel. -/
structure Level (env : SelectEnv) (registry : FlowRegistry) (share : FlowId → Int) (d : Duel)
    (s : DrrState) : Prop where
  under : s.outstanding < env.cap
  calm : TrySelect.firstStarved env registry s = none
  unbiased : env.kvBias.weight env.kvBias.pressure ≤ 0
  weights : ∀ f ∈ [d.front, d.back], (registry.getOrCreate f).truncWeight = share f
  priorities : (registry.getOrCreate d.front).priority = (registry.getOrCreate d.back).priority
  plenty : ∀ f ∈ [d.front, d.back], 2 ≤ (s.queue f).length

namespace Facing

variable {env : SelectEnv} {registry : FlowRegistry} {share : FlowId → Int} {need : Int} {d : Duel}
  {s s' : DrrState}

theorem distinct (facing : Facing need d s) (inv : RepInv s) : d.front ≠ d.back := by
  have nodup := inv.nodup
  rw [facing.cursor] at nodup
  simpa using nodup

theorem eligible_iff (facing : Facing need d s) (inv : RepInv s)
    (level : Level env registry share d s) (shares : d.Shares share) {f : FlowId}
    (member : f ∈ [d.front, d.back]) :
    Eligible env registry s f ↔ need ≤ env.arith.store (s.credit f + share f) := by
  have inCursor : f ∈ s.rrCursor := by
    rw [facing.cursor]
    exact member
  obtain ⟨p, rest, found, head⟩ := inv.head_of_mem inCursor
  have cost : p.cost = need := facing.costs f p (by simp [head])
  have raised : TrySelect.raise env registry s.deficit f =
      env.arith.store (s.credit f + share f) := by
    rw [← level.weights f member]
    rfl
  have positive := (shares f member).1
  rw [Eligible, TrySelect.affordable_iff, raised]
  constructor
  · rintro ⟨-, q, rest', found', -, enough⟩
    rw [found, Option.some.injEq, List.cons.injEq] at found'
    rw [← found'.1, cost] at enough
    exact enough
  · intro enough
    refine ⟨inCursor, p, rest, found, ?_, ?_⟩
    · rw [level.weights f member]
      omega
    · rw [cost]
      exact enough

theorem credit_raised (facing : Facing need d s) (level : Level env registry share d s)
    (shares : d.Shares share) {f : FlowId} (member : f ∈ [d.front, d.back])
    (deficit : s'.deficit.lookup f = raised env registry s f) :
    s'.credit f = env.arith.store (s.credit f + share f) := by
  have positive := (shares f member).1
  have weight := level.weights f member
  have credited : f ∈ s.rrCursor ∧ 0 < (registry.getOrCreate f).truncWeight := by
    rw [facing.cursor, weight]
    exact ⟨member, by omega⟩
  rw [DrrState.credit, deficit, raised, if_pos credited, Option.getD_some, ← weight]
  rfl

theorem front_of_best (facing : Facing need d s)
    (level : Level env registry share d s) {f : FlowId} (member : f ∈ [d.front, d.back])
    (best : Precedes registry s f d.front) : f = d.front := by
  by_contra other
  have back : f = d.back := by simpa [other] using member
  subst f
  cases best with
  | inl higher =>
      rw [level.priorities] at higher
      exact lt_irrefl _ higher
  | inr tie =>
      have order := tie.2 1 0 (by simp [facing.cursor]) (by simp [facing.cursor])
      omega

theorem costs_served (facing : Facing need d s) {f : FlowId} {p : Pending} {rest : List Pending}
    (served : Served s s' f p rest) : ∀ g, ∀ q ∈ s'.queue g, q.cost = need := by
  intro g q member
  rw [served.queue] at member
  split at member
  · apply facing.costs f q
    rw [served.head]
    exact List.mem_cons_of_mem _ member
  · exact facing.costs g q member

theorem serve (facing : Facing need d s) (inv : RepInv s) (level : Level env registry share d s)
    (shares : d.Shares share) {f : FlowId} {p : Pending} {rest : List Pending}
    (eligible : Eligible env registry s f)
    (best : ∀ g, Eligible env registry s g → Precedes registry s f g)
    (served : Served s s' f p rest)
    (deficit : ∀ g, s'.deficit.lookup g = if g = f then none else raised env registry s g) :
    Facing need (d.round env.arith share need).2 s' ∧
      (d.round env.arith share need).1 = some f := by
  have frontEligible := facing.eligible_iff inv level shares (f := d.front) (by simp)
  have backEligible := facing.eligible_iff inv level shares (f := d.back) (by simp)
  rw [facing.ahead] at frontEligible
  rw [facing.behind] at backEligible
  have different := facing.distinct inv
  have member : f ∈ [d.front, d.back] := facing.cursor ▸ eligible.1
  have remains : rest ≠ [] := by
    have plenty := level.plenty f member
    rw [served.head] at plenty
    rintro rfl
    simp at plenty
  have cursor := served.cursor
  rw [if_neg remains, facing.cursor] at cursor
  have cleared : s'.credit f = 0 := by
    rw [DrrState.credit, deficit, if_pos rfl, Option.getD_none]
  have other : ∀ g ∈ [d.front, d.back], g ≠ f →
      s'.credit g = env.arith.store (s.credit g + share g) := by
    intro g inCursor apart
    apply facing.credit_raised level shares inCursor
    rw [deficit, if_neg apart]
  by_cases wins : need ≤ env.arith.store (d.ahead + share d.front)
  · have first := facing.front_of_best level member (best _ (frontEligible.mpr wins))
    subst f
    rw [Duel.round_of_front wins]
    refine ⟨⟨?_, ?_, cleared, facing.costs_served served⟩, rfl⟩
    · rw [cursor]
      simp [Cursor.retire, different.symm]
    · rw [← facing.behind]
      exact other d.back (by simp) different.symm
  · have second : f = d.back := by
      have apart : f ≠ d.front := by
        rintro rfl
        exact wins (frontEligible.mp eligible)
      simpa [apart] using member
    subst f
    rw [Duel.round_of_back wins (backEligible.mp eligible)]
    refine ⟨⟨?_, ?_, cleared, facing.costs_served served⟩, rfl⟩
    · rw [cursor]
      simp [Cursor.retire, different]
    · rw [← facing.ahead]
      exact other d.front (by simp) different

theorem turn (facing : Facing need d s) (inv : RepInv s) (level : Level env registry share d s)
    (shares : d.Shares share) (ineligible : ∀ f, ¬ Eligible env registry s f)
    {deficit' : Assoc FlowId Int} (deficit : ∀ g, deficit'.lookup g = raised env registry s g) :
    Facing need (d.round env.arith share need).2
        { s with deficit := deficit', rrCursor := Cursor.rotate s.rrCursor } ∧
      (d.round env.arith share need).1 = none := by
  have frontEligible := facing.eligible_iff inv level shares (f := d.front) (by simp)
  have backEligible := facing.eligible_iff inv level shares (f := d.back) (by simp)
  rw [facing.ahead] at frontEligible
  rw [facing.behind] at backEligible
  have low : ¬ need ≤ env.arith.store (d.ahead + share d.front) :=
    fun wins => ineligible _ (frontEligible.mpr wins)
  have low' : ¬ need ≤ env.arith.store (d.behind + share d.back) :=
    fun wins => ineligible _ (backEligible.mpr wins)
  rw [Duel.round_of_neither low low']
  refine ⟨⟨?_, ?_, ?_, facing.costs⟩, rfl⟩
  · simp [facing.cursor, Cursor.rotate]
  · rw [← facing.behind]
    exact facing.credit_raised level shares (f := d.back) (by simp) (deficit _)
  · rw [← facing.ahead]
    exact facing.credit_raised level shares (f := d.front) (by simp) (deficit _)

/-- A round of the scheduler is a round of the duel. -/
theorem round (facing : Facing need d s) (inv : RepInv s) (level : Level env registry share d s)
    (shares : d.Shares share) {r : Round} (spec : RoundSpec env registry s r) :
    Facing need (d.round env.arith share need).2 r.state ∧
      r.selection.map Selection.flowId = (d.round env.arith share need).1 ∧
      r.forceAdmit = none ∧ (r.selection = none → r.creditAccumulated = true) := by
  cases spec with
  | atCap full => exact absurd level.under (not_lt.mpr full)
  | nobody _ empty => simp [facing.cursor] at empty
  | forced _ starved => simp [level.calm] at starved
  | regular _ _ eligible best served deficit =>
      obtain ⟨next, winner⟩ :=
        facing.serve inv level shares eligible (best level.unbiased) served deficit
      exact ⟨next, winner.symm, rfl, by simp⟩
  | barren _ _ _ ineligible flag deficit =>
      obtain ⟨next, nobody⟩ := facing.turn inv level shares ineligible deficit
      refine ⟨next, nobody.symm, rfl, ?_⟩
      intro _
      rw [flag]
      refine ⟨d.front, by simp [facing.cursor], ?_⟩
      rw [level.weights d.front (by simp)]
      have positive := (shares d.front (by simp)).1
      omega

end Facing

end TinyLlb
