import QotStack.Lib.Loop
import QotStack.Scheduler.Timers
import QotStack.Scheduler.Wake

/-!
# QotStack — one wake-up pass, iteration by iteration

`wakeLoop` says what a pass leaves of the event tree, if a given number of iterations is enough.
Here the pass is a loop in its own right: `wakeOne` is the body, from the head of one iteration to
the head of the next, and nothing bounds their number. The state also holds what the body does
besides changing the tree: the bindings, from which `qot_sleeper_wakeup` takes a timer that it
frees, and the log of the timers signalled and tasks woken.

`Visited` lists everything one iteration can do, and is all that later proofs use.
`exists_fuel_iff` ties the loop to `wakeLoop`.
-/

namespace Qot

open OrderedInsert

/-- The head of an iteration: the bindings, the nodes passed, the nodes ahead, and the sleepers
signalled or woken so far, as they were queued. -/
structure Pass where
  table : BindingTable
  done : List TimelineSleeper
  ahead : List TimelineSleeper
  log : List TimelineSleeper
  deriving DecidableEq, Repr

/-- A pass starts at the first node. -/
def Pass.start (table : BindingTable) (events : List TimelineSleeper) : Pass :=
  ⟨table, [], events, []⟩

/-- The tree at the head of an iteration. -/
def Pass.events (s : Pass) : List TimelineSleeper := s.done ++ s.ahead

/-- `qot_sleeper_wakeup` on the node `t`, with the loop already moved on to `rest`. -/
def Pass.wake (s : Pass) (alive : Bool) (t : TimelineSleeper) (rest : List TimelineSleeper) :
    Pass :=
  match qotSleeperWakeup alive t with
  | .requeued t' =>
    if goesBehind t' rest then
      { s with ahead := qotTimelineEventAdd rest t', log := s.log ++ [t] }
    else { s with done := qotTimelineEventAdd s.done t', ahead := rest, log := s.log ++ [t] }
  | .released =>
    -- only a process that is still there is signalled
    { s with
      table := (qotRemoveBindingTimer ⟨s.table, rest⟩ t.pid).table
      ahead := rest
      log := if alive then s.log ++ [t] else s.log }
  | .kept t' =>
    { s with
      done := s.done ++ [t']
      ahead := rest
      log := if t.sleeperActive then s.log ++ [t] else s.log }

/-- The body of the loop; it is left at the end of the tree or at a node that has not expired. -/
def wakeOne (expired : Timepoint → Bool) (alive : Int32 → Bool) (s : Pass) : Option Pass :=
  match s.ahead with
  | [] => none
  | t :: rest => if expired t.qotExpires then some (s.wake (alive t.pid) t rest) else none

/-! ## Everything an iteration can do -/

inductive Visited (alive : Bool) (s : Pass) (t : TimelineSleeper) (rest : List TimelineSleeper) :
    Pass → Prop where
  /-- A timer is signalled and its next release is still ahead of the loop. -/
  | behind (periodic : t.periodicTimerFlag = true) (living : alive = true)
    (counts : t.timerCounts < t.timer.count ∨ t.timer.count = 0)
    (h : goesBehind t.nextRelease rest = true) :
    Visited alive s t rest
      { s with ahead := qotTimelineEventAdd rest t.nextRelease, log := s.log ++ [t] }
  /-- A timer is signalled and the loop has passed the place of its next release. -/
  | skipped (periodic : t.periodicTimerFlag = true) (living : alive = true)
    (counts : t.timerCounts < t.timer.count ∨ t.timer.count = 0)
    (h : goesBehind t.nextRelease rest = false) :
    Visited alive s t rest
      { s with
        done := qotTimelineEventAdd s.done t.nextRelease, ahead := rest, log := s.log ++ [t] }
  /-- A timer is signalled for the last time. -/
  | finished (periodic : t.periodicTimerFlag = true) (living : alive = true)
    (counts : ¬ (t.timerCounts < t.timer.count ∨ t.timer.count = 0)) :
    Visited alive s t rest
      { s with
        table := (qotRemoveBindingTimer ⟨s.table, rest⟩ t.pid).table
        ahead := rest, log := s.log ++ [t] }
  /-- The process of a timer has gone. -/
  | orphaned (periodic : t.periodicTimerFlag = true) (dead : alive = false) :
    Visited alive s t rest
      { s with table := (qotRemoveBindingTimer ⟨s.table, rest⟩ t.pid).table, ahead := rest }
  /-- A blocked task is woken. -/
  | woken (blocking : t.periodicTimerFlag = false) (active : t.sleeperActive = true) :
    Visited alive s t rest
      { s with done := s.done ++ [t.woken], ahead := rest, log := s.log ++ [t] }
  /-- A task that was woken before has not taken its node off yet. -/
  | passed (blocking : t.periodicTimerFlag = false) (inactive : t.sleeperActive = false) :
    Visited alive s t rest { s with done := s.done ++ [t], ahead := rest }

theorem visited_wake (s : Pass) (alive : Bool) (t : TimelineSleeper) (rest : List TimelineSleeper) :
    Visited alive s t rest (s.wake alive t rest) := by
  unfold Pass.wake qotSleeperWakeup
  cases hper : t.periodicTimerFlag with
  | false =>
    simp only [Bool.false_eq_true, if_false]
    cases hactive : t.sleeperActive with
    | true => exact .woken hper hactive
    | false => exact .passed hper hactive
  | true =>
    simp only [if_true]
    cases alive with
    | false => exact .orphaned hper rfl
    | true =>
      simp only [if_true]
      by_cases hcount : t.timerCounts < t.timer.count ∨ t.timer.count = 0
      · simp only [if_pos hcount]
        cases hbehind : goesBehind t.nextRelease rest with
        | true => exact .behind hper rfl hcount hbehind
        | false => exact .skipped hper rfl hcount hbehind
      · simp only [if_neg hcount]
        exact .finished hper rfl hcount

section Body

variable {expired : Timepoint → Bool} {alive : Int32 → Bool} {s s' : Pass}

/-- **Inversion of the body.** -/
theorem wakeOne_some (h : wakeOne expired alive s = some s') :
    ∃ t rest, s.ahead = t :: rest ∧ expired t.qotExpires = true
      ∧ Visited (alive t.pid) s t rest s' := by
  unfold wakeOne at h
  split at h
  · cases h
  · next t rest hahead =>
    obtain ⟨hexp, ⟨⟩⟩ := Option.ite_none_right_eq_some.mp h
    exact ⟨t, rest, hahead, hexp, visited_wake s _ t rest⟩

variable {t : TimelineSleeper} {rest : List TimelineSleeper}

theorem wakeOne_of_expired (hahead : s.ahead = t :: rest) (hexp : expired t.qotExpires = true) :
    wakeOne expired alive s = some (s.wake (alive t.pid) t rest) := by
  unfold wakeOne
  rw [hahead]
  exact if_pos hexp

theorem wakeOne_none_iff :
    wakeOne expired alive s = none ↔ ∀ t ∈ s.ahead.head?, expired t.qotExpires = false := by
  unfold wakeOne
  cases s.ahead with
  | nil => simp
  | cons t rest => simp

/-- In terms of the nodes passed and ahead the iteration is a `WakeStep`. -/
theorem Visited.wakeStep {b : Bool} (h : Visited b s t rest s') :
    WakeStep t s.done rest s'.done s'.ahead := by
  cases h with
  | behind hper _ _ h => exact .behind hper h
  | skipped hper _ _ h => exact .skipped hper h
  | finished hper _ _ => exact .released hper
  | orphaned hper _ => exact .released hper
  | woken hblock _ => exact .woken hblock
  | passed hblock hinactive => exact .passed hblock hinactive

/-- What is ahead of the loop afterwards: the release of a timer that goes behind the next node, or
nothing new. -/
theorem Visited.ahead_cases {b : Bool} (h : Visited b s t rest s') :
    (s'.ahead = qotTimelineEventAdd rest t.nextRelease ∧ t.periodicTimerFlag = true ∧ b = true
        ∧ (t.timerCounts < t.timer.count ∨ t.timer.count = 0)
        ∧ goesBehind t.nextRelease rest = true)
      ∨ (s'.ahead = rest ∧ (t.periodicTimerFlag = true → b = true →
        t.timerCounts < t.timer.count ∨ t.timer.count = 0 →
          goesBehind t.nextRelease rest = false)) := by
  cases h with
  | behind hper hliving hcount hb => exact Or.inl ⟨rfl, hper, hliving, hcount, hb⟩
  | skipped _ _ _ hb => exact Or.inr ⟨rfl, fun _ _ _ => hb⟩
  | finished _ _ hcount => exact Or.inr ⟨rfl, fun _ _ h => absurd h hcount⟩
  | orphaned _ hdead => exact Or.inr ⟨rfl, fun _ h _ => nomatch hdead.symm.trans h⟩
  | woken hblock _ => exact Or.inr ⟨rfl, fun h _ _ => nomatch hblock.symm.trans h⟩
  | passed hblock _ => exact Or.inr ⟨rfl, fun h _ _ => nomatch hblock.symm.trans h⟩

theorem wakeOne_sorted (h : EventsSorted s.events) (hstep : wakeOne expired alive s = some s') :
    EventsSorted s'.events := by
  obtain ⟨t, rest, hahead, -, hvisit⟩ := wakeOne_some hstep
  rw [Pass.events, hahead] at h
  exact wakeStep_sorted h hvisit.wakeStep

theorem reaches_sorted (h : EventsSorted s.events)
    (hreach : Loop.Reaches (wakeOne expired alive) s s') : EventsSorted s'.events :=
  Loop.reaches_induction (I := fun s => EventsSorted s.events) h
    (fun _ _ ha hab => wakeOne_sorted ha hab) hreach

/-- The nodes ahead are in order. -/
theorem EventsSorted.ahead (h : EventsSorted s.events) : EventsSorted s.ahead :=
  (List.pairwise_append.mp h).2.1

/-! ## The loop with a bound -/

theorem wakeLoop_of_some (fuel : Nat) (h : wakeOne expired alive s = some s') :
    wakeLoop expired alive (fuel + 1) s.done s.ahead
      = wakeLoop expired alive fuel s'.done s'.ahead := by
  unfold wakeOne at h
  split at h
  · cases h
  · next t rest hahead =>
    obtain ⟨hexp, ⟨⟩⟩ := Option.ite_none_right_eq_some.mp h
    rw [hahead, wakeLoop, if_pos hexp, Pass.wake]
    cases qotSleeperWakeup (alive t.pid) t with
    | requeued t' =>
      simp only
      split <;> rfl
    | released => rfl
    | kept t' => rfl

theorem wakeLoop_of_none (fuel : Nat) (h : wakeOne expired alive s = none) :
    wakeLoop expired alive (fuel + 1) s.done s.ahead = some (s.done, s.ahead) := by
  cases hahead : s.ahead with
  | nil => rfl
  | cons t rest =>
    rw [wakeLoop, wakeOne_none_iff.mp h t (by rw [hahead]; rfl)]
    rfl

/-- **Enough iterations give the end of the pass.** -/
theorem exists_fuel {e : Pass} (h : Loop.EndsIn (wakeOne expired alive) s e) :
    ∃ fuel, ∀ f, fuel ≤ f → wakeLoop expired alive f s.done s.ahead = some (e.done, e.ahead) := by
  obtain ⟨hreach, hend⟩ := h
  induction hreach using Relation.ReflTransGen.head_induction_on with
  | refl =>
    refine ⟨1, fun f hf => ?_⟩
    obtain ⟨f, rfl⟩ := Nat.exists_eq_add_of_le' hf
    exact wakeLoop_of_none f hend
  | head hstep _ ih =>
    obtain ⟨fuel, hfuel⟩ := ih
    refine ⟨fuel + 1, fun f hf => ?_⟩
    obtain ⟨f, rfl⟩ := Nat.exists_eq_add_of_le' (Nat.le_of_add_left_le hf)
    rw [wakeLoop_of_some f hstep]
    exact hfuel f (by omega)

theorem endsIn_of_wakeLoop {fuel : Nat} {d r : List TimelineSleeper}
    (h : wakeLoop expired alive fuel s.done s.ahead = some (d, r)) :
    ∃ e, Loop.EndsIn (wakeOne expired alive) s e ∧ e.done = d ∧ e.ahead = r := by
  induction fuel generalizing s with
  | zero =>
    -- without fuel the loop is only left behind the last node
    cases hahead : s.ahead with
    | nil =>
      rw [hahead] at h
      cases h
      exact ⟨s, (Loop.endsIn_of_none (wakeOne_none_iff.mpr (by simp [hahead]))).mpr rfl, rfl,
        hahead⟩
    | cons t rest =>
      rw [hahead] at h
      cases h
  | succ fuel ih =>
    cases hone : wakeOne expired alive s with
    | none =>
      rw [wakeLoop_of_none fuel hone] at h
      cases h
      exact ⟨s, (Loop.endsIn_of_none hone).mpr rfl, rfl, rfl⟩
    | some s' =>
      rw [wakeLoop_of_some fuel hone] at h
      obtain ⟨e, he, hdone, hrest⟩ := ih h
      exact ⟨e, (Loop.endsIn_step_iff hone).mpr he, hdone, hrest⟩

/-- **The pass ends exactly if some bound on the iterations is enough.** -/
theorem exists_fuel_iff (s : Pass) :
    (∃ fuel, (wakeLoop expired alive fuel s.done s.ahead).isSome)
      ↔ Loop.Ends (wakeOne expired alive) s := by
  constructor
  · rintro ⟨fuel, hfuel⟩
    obtain ⟨⟨d, r⟩, hdr⟩ := Option.isSome_iff_exists.mp hfuel
    obtain ⟨e, he, -⟩ := endsIn_of_wakeLoop hdr
    exact ⟨e, he⟩
  · rintro ⟨e, he⟩
    obtain ⟨fuel, hfuel⟩ := exists_fuel he
    exact ⟨fuel, by rw [hfuel fuel le_rfl]; rfl⟩

end Body

end Qot
