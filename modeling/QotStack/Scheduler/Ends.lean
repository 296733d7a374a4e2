import Mathlib.Algebra.Order.BigOperators.Group.List
import QotStack.Scheduler.Kernel
import QotStack.Scheduler.Pass
import QotStack.Types.Arithmetic

/-!
# QotStack — the wake-up loop ends

A periodic timer that is signalled goes back into the tree the loop is walking, possibly ahead of
the loop. What keeps the loop from going on for ever is that the visits go forward in the order of
the tree: a release that is visited again is later than the last, or uses up the timer's count. The
one exception is a timer without a count whose period adds nothing (`stuckAt`): it may come back at
the same time as often as it is visited.

One such timer does no harm. Once it is the only node at its time, its release sorts before the node
the loop stands at and is not visited again. Two of them send the loop round for ever: each is
queued behind the other.

* `ends_iff_not_trapped` — the measure: what is left to the other timers, the number of stuck
  timers, whether the loop stands at one;
* `diverges` — two timers that come to rest at one time, which the loop gets to, keep it going;
* `wake_loop_ends_iff` — so for the interrupt the tree decides, and for the update path, whose test
  does not follow the order of the tree, what the loop meets.
-/

namespace Qot

open MachineInt OrderedInsert

/-! ## Timers that come back to the same time -/

section Rest

variable (alive : Int32 → Bool)

/-- The timer is queued again after every signal. -/
def endless (u : TimelineSleeper) : Bool :=
  u.periodicTimerFlag && alive u.pid && decide (u.timer.count = 0)

/-- The timer is queued at `r`, and will be again. -/
def stuckAt (r : Timepoint) (u : TimelineSleeper) : Bool :=
  endless alive u && decide (u.qotExpires = r) && decide (timepointAdd r u.timer.period = r)

/-- The next release of the timer is at `r`, not before its present one, and every later one is. -/
def restsAt (r : Timepoint) (u : TimelineSleeper) : Bool :=
  endless alive u && decide (timepointAdd u.qotExpires u.timer.period = r)
    && decide (timepointAdd r u.timer.period = r) && decide (u.qotExpires.rank ≤ r.rank)

/-- The loop stands at a time at which two timers are stuck. -/
def Trapped (expired : Timepoint → Bool) (s : Pass) : Prop :=
  ∃ t ∈ s.ahead.head?, expired t.qotExpires = true
    ∧ 2 ≤ s.ahead.countP (stuckAt alive t.qotExpires)

end Rest

section RestLemmas

variable {alive : Int32 → Bool} {r : Timepoint} {u t : TimelineSleeper}

theorem endless_iff :
    endless alive u = true
      ↔ u.periodicTimerFlag = true ∧ alive u.pid = true ∧ u.timer.count = 0 := by
  simp [endless, and_assoc]

theorem stuckAt_iff :
    stuckAt alive r u = true
      ↔ endless alive u = true ∧ u.qotExpires = r ∧ timepointAdd r u.timer.period = r := by
  simp [stuckAt, and_assoc]

theorem restsAt_iff :
    restsAt alive r u = true
      ↔ endless alive u = true ∧ timepointAdd u.qotExpires u.timer.period = r
        ∧ timepointAdd r u.timer.period = r ∧ u.qotExpires.rank ≤ r.rank := by
  simp [restsAt, and_assoc]

theorem restsAt_of_stuckAt (h : stuckAt alive r u = true) : restsAt alive r u = true := by
  obtain ⟨hend, rfl, hadd⟩ := stuckAt_iff.mp h
  exact restsAt_iff.mpr ⟨hend, hadd, hadd, le_rfl⟩

/-- An endless timer is signalled and queued again. -/
theorem not_finished_of_endless (h : endless alive u = true) :
    u.timerCounts < u.timer.count ∨ u.timer.count = 0 :=
  Or.inr (endless_iff.mp h).2.2

/-- A timer that comes to rest does so at its next release. -/
theorem restsAt_nextRelease (h : restsAt alive r u = true) :
    u.nextRelease.qotExpires = r ∧ restsAt alive r u.nextRelease = true := by
  obtain ⟨hend, hnext, hrest, -⟩ := restsAt_iff.mp h
  refine ⟨hnext, restsAt_iff.mpr ⟨hend, ?_, hrest, ?_⟩⟩
  · show timepointAdd (timepointAdd u.qotExpires u.timer.period) u.timer.period = r
    rw [hnext, hrest]
  · show (timepointAdd u.qotExpires u.timer.period).rank ≤ r.rank
    rw [hnext]

end RestLemmas

theorem Timepoint.rank_inj {t1 t2 : Timepoint} (h : t1.rank = t2.rank) : t1 = t2 := by
  rcases timepointCmp_cases t1 t2 with ⟨-, hlt⟩ | ⟨-, heq⟩ | ⟨-, hlt⟩
  · omega
  · exact heq
  · omega

/-! ## Divergence -/

section Diverges

variable {expired : Timepoint → Bool} {alive : Int32 → Bool}

/-- The number of sleepers with a property after a release is queued. -/
theorem countP_eventAdd (p : TimelineSleeper → Bool) (events : List TimelineSleeper)
    (t : TimelineSleeper) :
    (qotTimelineEventAdd events t).countP p = events.countP p + if p t then 1 else 0 := by
  rw [(eventAdd_perm events t).countP_eq, List.countP_cons]

/-- What keeps the loop going towards `r`: two timers ahead come to rest there, and nothing ahead is
before `low`, from where on everything up to `r` has expired. -/
structure GoesRound (alive : Int32 → Bool) (low : Int) (r : Timepoint) (s : Pass) : Prop where
  sorted : EventsSorted s.ahead
  low : ∀ t ∈ s.ahead, low ≤ t.qotExpires.rank
  two : 2 ≤ s.ahead.countP (restsAt alive r)

section GoesRound

variable {low : Int} {r : Timepoint} {s s' : Pass} {t : TimelineSleeper}
  {rest : List TimelineSleeper}

/-- One of the two is not the first node. -/
theorem GoesRound.another (h : GoesRound alive low r s) (hahead : s.ahead = t :: rest) :
    ∃ u ∈ rest, restsAt alive r u = true := by
  have htwo := h.two
  rw [hahead, List.countP_cons] at htwo
  apply List.countP_pos_iff.mp
  split at htwo <;> omega

/-- A release at `r` goes behind another timer that comes to rest there. -/
theorem goesBehind_of_restsAt {u : TimelineSleeper} (hsorted : EventsSorted rest) (hu : u ∈ rest)
    (hur : restsAt alive r u = true) (hnext : t.nextRelease.qotExpires = r) :
    goesBehind t.nextRelease rest = true := by
  have hule : u.qotExpires.rank ≤ r.rank := (restsAt_iff.mp hur).2.2.2
  cases rest with
  | nil => cases hu
  | cons next tail =>
    have hle : next.qotExpires.rank ≤ u.qotExpires.rank := by
      rcases List.mem_cons.mp hu with rfl | hu
      · exact le_rfl
      · exact (List.pairwise_cons.mp hsorted).1 u hu
    have hnot : ¬ timepointCmp next.qotExpires t.nextRelease.qotExpires < 0 := by
      rw [timepointCmp_neg, hnext]
      omega
    simpa [goesBehind] using hnot

/-- **An iteration keeps it going.** -/
theorem GoesRound.visit (h : GoesRound alive low r s) (hahead : s.ahead = t :: rest)
    (hvisit : Visited (alive t.pid) s t rest s') : GoesRound alive low r s' := by
  obtain ⟨u, hu, hur⟩ := h.another hahead
  obtain ⟨hsorted, hlow, htwo⟩ := h
  rw [hahead] at hsorted hlow htwo
  rw [List.countP_cons] at htwo
  have hrest := (List.pairwise_cons.mp hsorted).2
  have hlow' : ∀ v ∈ rest, low ≤ v.qotExpires.rank := fun v hv => hlow v (List.mem_cons_of_mem _ hv)
  rcases hvisit.ahead_cases with ⟨hs', -, -, -, hb⟩ | ⟨hs', hnot⟩
  · -- a release is queued behind the next node; if it is that of the first, it rests there too
    refine ⟨?_, ?_, ?_⟩
    · rw [hs']
      exact eventsSorted_add hrest _
    · rw [hs']
      intro v hv
      rcases mem_qotTimelineEventAdd.mp hv with rfl | hv
      · obtain ⟨next, tail, rfl, hnext⟩ := goesBehind_true hb
        exact (hlow' next List.mem_cons_self).trans hnext
      · exact hlow' v hv
    · rw [hs', countP_eventAdd]
      by_cases htr : restsAt alive r t = true
      · rw [if_pos htr] at htwo
        rw [if_pos (restsAt_nextRelease htr).2]
        exact htwo
      · rw [if_neg htr] at htwo
        exact Nat.le_add_right_of_le htwo
  · -- the first node does not come back, so it is none of the two
    have htr : ¬ restsAt alive r t = true := by
      intro htr
      have hend := (restsAt_iff.mp htr).1
      obtain ⟨hper, hliving, -⟩ := endless_iff.mp hend
      have hfalse := hnot hper hliving (not_finished_of_endless hend)
      rw [goesBehind_of_restsAt hrest hu hur (restsAt_nextRelease htr).1] at hfalse
      cases hfalse
    rw [if_neg htr] at htwo
    exact ⟨hs' ▸ hrest, hs' ▸ hlow', hs' ▸ htwo⟩

theorem GoesRound.step (hexp : ∀ e : Timepoint, low ≤ e.rank → e.rank ≤ r.rank → expired e = true)
    (h : GoesRound alive low r s) :
    ∃ s', wakeOne expired alive s = some s' ∧ GoesRound alive low r s' := by
  cases hahead : s.ahead with
  | nil =>
    have htwo := h.two
    rw [hahead] at htwo
    cases htwo
  | cons t rest =>
    obtain ⟨u, hu, hur⟩ := h.another hahead
    have hsorted := h.sorted
    rw [hahead] at hsorted
    have hule : u.qotExpires.rank ≤ r.rank := (restsAt_iff.mp hur).2.2.2
    have htexp : expired t.qotExpires = true := by
      apply hexp _ (h.low t (by rw [hahead]; exact List.mem_cons_self))
      exact ((List.pairwise_cons.mp hsorted).1 u hu).trans hule
    exact ⟨_, wakeOne_of_expired hahead htexp, h.visit hahead (visited_wake s _ t rest)⟩

end GoesRound

/-- **Divergence.** -/
theorem diverges (low : Int) (r : Timepoint) {s : Pass}
    (hexp : ∀ e : Timepoint, low ≤ e.rank → e.rank ≤ r.rank → expired e = true)
    (h : GoesRound alive low r s) : ¬ Loop.Ends (wakeOne expired alive) s :=
  Loop.not_ends_of_invariant h fun _ ha => ha.step hexp

/-- A loop that is trapped does not end. -/
theorem not_ends_of_trapped {s : Pass} (hsorted : EventsSorted s.ahead)
    (h : Trapped alive expired s) : ¬ Loop.Ends (wakeOne expired alive) s := by
  obtain ⟨t, ht, htexp, htwo⟩ := h
  obtain ⟨rest, hahead⟩ := List.head?_eq_some_iff.mp (Option.mem_def.mp ht)
  refine diverges t.qotExpires.rank t.qotExpires ?_ ⟨hsorted, ?_, ?_⟩
  · intro e hlow hhigh
    rw [Timepoint.rank_inj (le_antisymm hhigh hlow)]
    exact htexp
  · rw [hahead] at hsorted ⊢
    intro u hu
    rcases List.mem_cons.mp hu with rfl | hu
    · exact le_rfl
    · exact (List.pairwise_cons.mp hsorted).1 u hu
  · exact htwo.trans (List.countP_mono_left fun u _ hu => restsAt_of_stuckAt hu)

end Diverges

/-! ## The measure -/

/-- The signals a timer with a count may still get. -/
def remaining (u : TimelineSleeper) : Nat :=
  if u.timer.count = 0 then 0 else (u.timer.count.toInt - u.timerCounts.toInt).toNat

/-- What is left to a node: times after its own, then signals. -/
def potential (u : TimelineSleeper) : Nat :=
  (170141183460469231731687303715884105728 - u.qotExpires.rank).toNat * 8589934592 + remaining u

theorem rank_lt_top (t : Timepoint) : t.rank < 170141183460469231731687303715884105728 := by
  have hsec := fits_toInt t.sec
  have hasec := toNat_lt t.asec
  unfold Timepoint.rank
  omega

theorem remaining_lt (u : TimelineSleeper) : remaining u < 8589934592 := by
  have h1 := u.timer.count.toInt_lt
  have h2 := u.timerCounts.le_toInt
  unfold remaining
  split
  · decide
  · omega

variable {alive : Int32 → Bool}

/-- **A release that is not stuck has less left.** -/
theorem potential_nextRelease_lt {t : TimelineSleeper} (hper : t.periodicTimerFlag = true)
    (hliving : alive t.pid = true) (hcount : t.timerCounts < t.timer.count ∨ t.timer.count = 0)
    (hle : t.qotExpires.rank ≤ t.nextRelease.qotExpires.rank)
    (hfree : stuckAt alive t.qotExpires t = false) : potential t.nextRelease < potential t := by
  have htop := rank_lt_top t.nextRelease.qotExpires
  have hrem := remaining_lt t.nextRelease
  rcases lt_or_eq_of_le hle with hlt | heq
  · -- a later time outweighs all signals
    unfold potential
    omega
  · have hsame : t.nextRelease.qotExpires = t.qotExpires := Timepoint.rank_inj heq.symm
    -- at the same time, not being stuck means to have a count
    have hcounted : t.timer.count ≠ 0 := by
      intro hzero
      have hstuck : stuckAt alive t.qotExpires t = true :=
        stuckAt_iff.mpr ⟨endless_iff.mpr ⟨hper, hliving, hzero⟩, rfl, hsame⟩
      rw [hfree] at hstuck
      cases hstuck
    have hbelow := hcount.resolve_right hcounted
    have hlt := Int32.lt_iff_toInt_lt.mp hbelow
    have hless : remaining t.nextRelease < remaining t := by
      show (if t.timer.count = 0 then 0
        else (t.timer.count.toInt - t.nextRelease.timerCounts.toInt).toNat) < remaining t
      unfold remaining
      rw [if_neg hcounted, if_neg hcounted, nextRelease_counts hbelow]
      omega
    unfold potential
    rw [hsame]
    omega

section Measure

variable (alive : Int32 → Bool)

/-- The node is a timer that comes back to its own time. -/
def stuck (u : TimelineSleeper) : Bool := stuckAt alive u.qotExpires u

/-- What a node weighs: nothing if it is stuck. -/
def weight (u : TimelineSleeper) : Nat := if stuck alive u then 0 else potential u + 1

def passMeasure (s : Pass) : Nat × Nat × Nat :=
  ((s.ahead.map (weight alive)).sum, s.ahead.countP (stuck alive),
    if s.ahead.head?.any (stuck alive) then 1 else 0)

/-- Lexicographic: the weights, then the stuck timers, then whether the loop stands at one. -/
def PassLess : Nat × Nat × Nat → Nat × Nat × Nat → Prop :=
  Prod.Lex (· < ·) (Prod.Lex (· < ·) (· < ·))

theorem passLess_wf : WellFounded PassLess :=
  WellFounded.prod_lex Nat.lt_wfRel.wf (WellFounded.prod_lex Nat.lt_wfRel.wf Nat.lt_wfRel.wf)

theorem sum_weight_eventAdd (events : List TimelineSleeper) (t : TimelineSleeper) :
    ((qotTimelineEventAdd events t).map (weight alive)).sum
      = weight alive t + (events.map (weight alive)).sum := by
  rw [((eventAdd_perm events t).map _).sum_eq, List.map_cons, List.sum_cons]

variable {t : TimelineSleeper}

/-- A release that goes behind the next node leaves that node at the front. -/
theorem head?_eventAdd_of_behind {next : TimelineSleeper} {tail : List TimelineSleeper}
    (h : goesBehind t (next :: tail) = true) :
    (qotTimelineEventAdd (next :: tail) t).head? = some next := by
  have hnot : ¬ timepointCmp next.qotExpires t.qotExpires < 0 := by simpa [goesBehind] using h
  rw [qotTimelineEventAdd, insertBefore, if_neg (by simpa using hnot)]
  rfl

variable {alive} {expired : Timepoint → Bool} {s s' : Pass}

/-- Visiting a node that is not stuck takes weight off. -/
theorem passLess_of_free {rest : List TimelineSleeper} (hahead : s.ahead = t :: rest)
    (hsorted : EventsSorted s.ahead) (hfree : stuck alive t = false)
    (hvisit : Visited (alive t.pid) s t rest s') :
    PassLess (passMeasure alive s') (passMeasure alive s) := by
  apply Prod.Lex.left
  have hsum : (s.ahead.map (weight alive)).sum
      = potential t + 1 + (rest.map (weight alive)).sum := by
    rw [hahead, List.map_cons, List.sum_cons, weight, hfree]
    rfl
  show (s'.ahead.map (weight alive)).sum < (s.ahead.map (weight alive)).sum
  rw [hsum]
  rcases hvisit.ahead_cases with ⟨hs', hper, hliving, hcount, hb⟩ | ⟨hs', -⟩
  · rw [hs', sum_weight_eventAdd]
    obtain ⟨next, tail, rfl, hnext⟩ := goesBehind_true hb
    rw [hahead] at hsorted
    have hle : t.qotExpires.rank ≤ t.nextRelease.qotExpires.rank :=
      ((List.pairwise_cons.mp hsorted).1 next List.mem_cons_self).trans hnext
    have hless := potential_nextRelease_lt hper hliving hcount hle hfree
    unfold weight
    split <;> omega
  · rw [hs']
    omega

/-- Two stuck timers in a row at an expired time are a trap. -/
theorem trapped_of_next {next : TimelineSleeper} {tail : List TimelineSleeper}
    (hahead : s.ahead = t :: next :: tail) (hexp : expired t.qotExpires = true)
    (ht : stuck alive t = true) (hnext : stuck alive next = true)
    (heq : next.qotExpires = t.qotExpires) : Trapped alive expired s := by
  refine ⟨t, by rw [hahead]; rfl, hexp, ?_⟩
  have hn : stuckAt alive t.qotExpires next = true := heq ▸ hnext
  have ht' : stuckAt alive t.qotExpires t = true := ht
  rw [hahead, List.countP_cons, List.countP_cons, if_pos hn, if_pos ht']
  omega

/-- Visiting a stuck timer takes it off the nodes ahead, or brings the loop to one that is not
stuck. -/
theorem passLess_of_stuck {rest : List TimelineSleeper} (hahead : s.ahead = t :: rest)
    (hsorted : EventsSorted s.ahead) (hexp : expired t.qotExpires = true)
    (hstuck : stuck alive t = true) (hfree : ¬ Trapped alive expired s)
    (hvisit : Visited (alive t.pid) s t rest s') :
    PassLess (passMeasure alive s') (passMeasure alive s) := by
  obtain ⟨hend, -, hsame⟩ := stuckAt_iff.mp hstuck
  have hexpires : t.nextRelease.qotExpires = t.qotExpires := hsame
  have hstuck' : stuck alive t.nextRelease = true := by
    refine stuckAt_iff.mpr ⟨hend, rfl, ?_⟩
    show timepointAdd t.nextRelease.qotExpires t.timer.period = t.nextRelease.qotExpires
    rw [hexpires, hsame]
  have hsum : (s.ahead.map (weight alive)).sum = (rest.map (weight alive)).sum := by
    rw [hahead, List.map_cons, List.sum_cons, weight, hstuck, if_pos rfl, Nat.zero_add]
  have hnum : s.ahead.countP (stuck alive) = rest.countP (stuck alive) + 1 := by
    rw [hahead, List.countP_cons, if_pos hstuck]
  unfold passMeasure PassLess
  rw [hsum, hnum]
  rcases hvisit.ahead_cases with ⟨hs', -, -, -, hb⟩ | ⟨hs', -⟩
  · obtain ⟨next, tail, rfl, hnext⟩ := goesBehind_true hb
    -- the next node has the same time, so if it were stuck the loop would be trapped
    have hnextfree : stuck alive next = false := by
      rw [hahead] at hsorted
      have hle := (List.pairwise_cons.mp hsorted).1 next List.mem_cons_self
      rw [hexpires] at hnext
      have heq : next.qotExpires = t.qotExpires := Timepoint.rank_inj (le_antisymm hnext hle)
      rw [← Bool.not_eq_true]
      intro hn
      exact hfree (trapped_of_next hahead hexp hstuck hn heq)
    have hhead : s.ahead.head?.any (stuck alive) = true := by
      rw [hahead]
      exact hstuck
    have hhead' : (qotTimelineEventAdd (next :: tail) t.nextRelease).head?.any (stuck alive)
        = false := by
      rw [head?_eventAdd_of_behind hb]
      exact hnextfree
    rw [hs', hhead, hhead', sum_weight_eventAdd, countP_eventAdd, hstuck', weight, hstuck']
    simp only [if_true, Nat.zero_add, Bool.false_eq_true, if_false]
    exact Prod.Lex.right _ (Prod.Lex.right _ Nat.zero_lt_one)
  · rw [hs']
    exact Prod.Lex.right _ (Prod.Lex.left _ _ (Nat.lt_succ_self _))

/-- **A loop that is never trapped ends, and one that is does not.** -/
theorem ends_iff_not_trapped (hsorted : EventsSorted s.events) :
    Loop.Ends (wakeOne expired alive) s
      ↔ ∀ s', Loop.Reaches (wakeOne expired alive) s s' → ¬ Trapped alive expired s' := by
  constructor
  · intro hends s' hreach htrapped
    have hsorted' := (reaches_sorted hsorted hreach).ahead
    exact not_ends_of_trapped hsorted' htrapped (hreach.ends_iff.mp hends)
  · intro hfree
    apply Loop.ends_of_decreasing passLess_wf (passMeasure alive)
    intro a b hreach hstep
    have hsorted' := (reaches_sorted hsorted hreach).ahead
    obtain ⟨t, rest, hahead, hexp, hvisit⟩ := wakeOne_some hstep
    cases hstuck : stuck alive t with
    | false => exact passLess_of_free hahead hsorted' hstuck hvisit
    | true => exact passLess_of_stuck hahead hsorted' hexp hstuck (hfree a hreach) hvisit

end Measure

/-! ## The interrupt

Its test follows the order of the tree, so that whatever is queued before an expired time is
visited. It then only matters where timers come to rest. -/

/-- The sum of a point and any length is normalised. -/
theorem timepointAdd_normalised (t : Timepoint) (v : Timelength) :
    (timepointAdd t v).Normalised := by
  unfold Timepoint.Normalised
  rw [timepointAdd_asec]
  omega

/-- A fraction that settles has settled, or the two sums carry differently. -/
theorem fraction_settles {x r p : Nat} (hx : x < 1000000000000000000)
    (hp : p < 18446744073709551616) (hxr : (x + p) % 18446744073709551616 % 1000000000000000000 = r)
    (hrr : (r + p) % 18446744073709551616 % 1000000000000000000 = r) :
    x = r ∨ (x + p) % 18446744073709551616 / 1000000000000000000 + 18
      = (r + p) % 18446744073709551616 / 1000000000000000000 := by
  have hr : r < 1000000000000000000 := hxr ▸ Nat.mod_lt _ (by decide)
  -- which of the two sums overflow
  have hxq : (x + p) % 18446744073709551616 = x + p ∧ x + p < 18446744073709551616
      ∨ (x + p) % 18446744073709551616 = x + p - 18446744073709551616
        ∧ 18446744073709551616 ≤ x + p := by omega
  have hrq : (r + p) % 18446744073709551616 = r + p ∧ r + p < 18446744073709551616
      ∨ (r + p) % 18446744073709551616 = r + p - 18446744073709551616
        ∧ 18446744073709551616 ≤ r + p := by omega
  rcases hxq with ⟨hxq, hxlt⟩ | ⟨hxq, hxle⟩ <;> rcases hrq with ⟨hrq, hrlt⟩ | ⟨hrq, hrle⟩
  · left; omega
  · omega
  · right; omega
  · left; omega

/-- What adds nothing to some seconds is a multiple of their range. -/
theorem range_dvd_of_fixed {r d : Int} (h : r = wrap64 (r + d)) : d % 18446744073709551616 = 0 := by
  unfold wrap64 at h
  omega

/-- Seconds to which a length adds nothing stay where any sum with it ends, but for the carry. -/
theorem seconds_settle {x r p : Int} (c : Nat) (hr : Fits64 r) (hx : Fits64 x)
    (hrr : r = wrap64 (r + p + c)) :
    (r = wrap64 (x + p + c) → x = r)
      ∧ ((d : Nat) → d + 18 = c → r = wrap64 (x + p + d) → r = wrap64 (x - 18)) := by
  have hzero : (p + c) % 18446744073709551616 = 0 :=
    range_dvd_of_fixed (by rw [← add_assoc]; exact hrr)
  unfold wrap64
  constructor
  · intro h
    omega
  · intro d hd h
    omega

/-- **A release that comes to rest is at rest**, unless the seconds wrap to the end of their
range. -/
theorem settled {x r : Timepoint} {p : Timelength} (hx : x.Normalised)
    (hxr : timepointAdd x p = r) (hrr : timepointAdd r p = r) (hle : x.rank ≤ r.rank)
    (hr : r.sec.toInt < 4611686018427387904) : x = r := by
  have hxsec := timepointAdd_sec x p
  have hxasec := timepointAdd_asec x p
  have hrsec := timepointAdd_sec r p
  have hrasec := timepointAdd_asec r p
  rw [hxr] at hxsec hxasec
  rw [hrr] at hrsec hrasec
  obtain ⟨hsame, hback⟩ := seconds_settle _ (fits_toInt r.sec) (fits_toInt x.sec) hrsec
  have hfit := fits_toInt x.sec
  apply Timepoint.rank_inj
  unfold Timepoint.rank at hle ⊢
  rcases fraction_settles hx (toNat_lt p.asec) hxasec.symm hrasec.symm with hasec | hcarry
  · rw [hasec] at hxsec ⊢
    rw [hsame hxsec]
  · -- the seconds have gone back by the difference of the carries
    have hsec := hback _ hcarry hxsec
    have hra := toNat_lt r.asec
    unfold wrap64 at hsec
    omega

section Interrupt

variable {expired : Timepoint → Bool} {alive : Int32 → Bool} {now : Timepoint}

/-- The number of timers ahead that come to rest at an expired time does not grow. -/
theorem countP_restsAt_le {s s' : Pass} {r : Timepoint} (hsorted : EventsSorted s.events)
    (hr : r.sec.toInt < 4611686018427387904) (hstep : wakeOne expired alive s = some s') :
    s'.ahead.countP (restsAt alive r) ≤ s.ahead.countP (restsAt alive r) := by
  obtain ⟨t, rest, hahead, -, hvisit⟩ := wakeOne_some hstep
  have hall : s.ahead.countP (restsAt alive r)
      = rest.countP (restsAt alive r) + if restsAt alive r t then 1 else 0 := by
    rw [hahead, List.countP_cons]
  have hrest : rest.countP (restsAt alive r) ≤ s.ahead.countP (restsAt alive r) := by omega
  rcases hvisit.ahead_cases with ⟨hs', -, -, -, hb⟩ | ⟨hs', -⟩
  · rw [hs', countP_eventAdd]
    by_cases hnext : restsAt alive r t.nextRelease = true
    · -- the release is at rest already, so the timer came to rest there too
      obtain ⟨hend, hadd, hfix, hle⟩ := restsAt_iff.mp hnext
      have hsettled : t.nextRelease.qotExpires = r :=
        settled (timepointAdd_normalised _ _) hadd hfix hle hr
      obtain ⟨next, tail, rfl, hbehind⟩ := goesBehind_true hb
      have horder := hsorted.ahead
      rw [hahead] at horder
      have hfirst := (List.pairwise_cons.mp horder).1 next List.mem_cons_self
      have ht : restsAt alive r t = true :=
        restsAt_iff.mpr ⟨hend, hsettled, hfix, by rw [← hsettled]; exact hfirst.trans hbehind⟩
      rw [if_pos hnext, hall, if_pos ht]
    · rw [if_neg hnext]
      exact hrest
  · rw [hs']
    exact hrest

/-- **The interrupt's loop over a tree ends** exactly if no two timers come to rest at one time that
has expired. -/
theorem ends_iff_of_order (hexp : ∀ e : Timepoint, expired e = true ↔ e.rank < now.rank)
    (hnow : now.sec.toInt < 4611686018427387904) {s : Pass} (hsorted : EventsSorted s.events) :
    Loop.Ends (wakeOne expired alive) s
      ↔ ∀ r, expired r = true → s.ahead.countP (restsAt alive r) ≤ 1 := by
  have hsec : ∀ r : Timepoint, expired r = true → r.sec.toInt < 4611686018427387904 := by
    intro r hr
    have hlt := (hexp r).mp hr
    have hasec := toNat_lt now.asec
    unfold Timepoint.rank at hlt
    omega
  constructor
  · -- of two timers at one time the loop never gets past both
    intro hends r hr
    by_contra htwo
    refine diverges (-170141183460469231731687303715884105728) r ?_
      ⟨hsorted.ahead, ?_, by omega⟩ hends
    · intro e _ hle
      exact (hexp e).mpr (hle.trans_lt ((hexp r).mp hr))
    · intro t _
      have hfit := fits_toInt t.qotExpires.sec
      unfold Timepoint.rank
      omega
  · -- no iteration adds to those that come to rest at one time
    intro hone
    rw [ends_iff_not_trapped hsorted]
    rintro s' hreach ⟨t, -, htexp, htwo⟩
    have hfew : EventsSorted s'.events
        ∧ ∀ r, expired r = true → s'.ahead.countP (restsAt alive r) ≤ 1 := by
      refine Loop.reaches_induction (I := fun s => EventsSorted s.events
        ∧ ∀ r, expired r = true → s.ahead.countP (restsAt alive r) ≤ 1) ⟨hsorted, hone⟩ ?_ hreach
      rintro a b ⟨ha, hfew⟩ hab
      exact ⟨wakeOne_sorted ha hab, fun r hr =>
        (countP_restsAt_le ha (hsec r hr) hab).trans (hfew r hr)⟩
    have hle : s'.ahead.countP (stuckAt alive t.qotExpires)
        ≤ s'.ahead.countP (restsAt alive t.qotExpires) :=
      List.countP_mono_left fun u _ hu => restsAt_of_stuckAt hu
    have := hfew.2 _ htexp
    omega

end Interrupt

/-! ## Timers that can come to rest -/

/-- A length that adds nothing to some time. -/
def addsNothing (v : Timelength) : Bool := decide (timepointAdd ⟨0, 0⟩ v = ⟨0, 0⟩)

/-- If a length adds nothing to one time, it adds nothing to zero. -/
theorem addsNothing_of_add_eq {e : Timepoint} {v : Timelength} (h : timepointAdd e v = e) :
    addsNothing v = true := by
  have hsec := timepointAdd_sec e v
  have hasec := timepointAdd_asec e v
  rw [h] at hsec hasec
  have hv := toNat_lt v.asec
  -- the fraction is a number of seconds, and the seconds take it away again
  have hwhole : v.asec.toNat % 1000000000000000000 = 0
      ∧ (e.asec.toNat + v.asec.toNat) % 18446744073709551616 / 1000000000000000000
        = v.asec.toNat / 1000000000000000000 := by
    rcases Nat.lt_or_ge (e.asec.toNat + v.asec.toNat) 18446744073709551616 with hlt | hge
    · rw [Nat.mod_eq_of_lt hlt] at hasec ⊢
      omega
    · omega
  rw [hwhole.2, add_assoc] at hsec
  have hcycle := range_dvd_of_fixed hsec
  have hzero : (timepointAdd ⟨0, 0⟩ v).rank = 0 := by
    have h0 : (0 : UInt64).toNat = 0 := rfl
    have h0' : (0 : Int64).toInt = 0 := rfl
    unfold Timepoint.rank
    rw [timepointAdd_sec, timepointAdd_asec]
    simp only [h0, h0', zero_add, Nat.mod_eq_of_lt hv, hwhole.1, wrap64]
    generalize v.asec.toNat / 1000000000000000000 = q at hcycle
    clear hsec hasec hwhole
    omega
  rw [addsNothing, decide_eq_true_eq]
  exact Timepoint.rank_inj hzero

/-- An endless timer whose period adds nothing. -/
def idle (alive : Int32 → Bool) (u : TimelineSleeper) : Bool :=
  endless alive u && addsNothing u.timer.period

/-- The number of such timers ahead does not grow. -/
theorem countP_idle_le {expired : Timepoint → Bool} {s s' : Pass}
    (h : wakeOne expired alive s = some s') :
    s'.ahead.countP (idle alive) ≤ s.ahead.countP (idle alive) := by
  obtain ⟨t, rest, hahead, -, hvisit⟩ := wakeOne_some h
  have hall : s.ahead.countP (idle alive)
      = rest.countP (idle alive) + if idle alive t then 1 else 0 := by
    rw [hahead, List.countP_cons]
  rw [hall]
  rcases hvisit.ahead_cases with ⟨hs', -⟩ | ⟨hs', -⟩
  · have hsame : idle alive t.nextRelease = idle alive t := rfl
    rw [hs', countP_eventAdd, hsame]
  · rw [hs']
    exact Nat.le_add_right _ _

/-- **One idle timer does no harm**, whatever the test. -/
theorem ends_of_idle {expired : Timepoint → Bool} {s : Pass} (hsorted : EventsSorted s.events)
    (h : s.ahead.countP (idle alive) ≤ 1) : Loop.Ends (wakeOne expired alive) s := by
  rw [ends_iff_not_trapped hsorted]
  rintro s' hreach ⟨t, -, -, htwo⟩
  have hone : s'.ahead.countP (idle alive) ≤ 1 :=
    Loop.reaches_induction (I := fun s => s.ahead.countP (idle alive) ≤ 1) h
      (fun _ _ ha hab => (countP_idle_le hab).trans ha) hreach
  have hle : s'.ahead.countP (stuckAt alive t.qotExpires) ≤ s'.ahead.countP (idle alive) := by
    refine List.countP_mono_left fun u _ hu => ?_
    obtain ⟨hend, -, hadd⟩ := stuckAt_iff.mp hu
    rw [idle, hend, addsNothing_of_add_eq hadd]
    rfl
  omega

/-! ## Trees built by requests -/

/-- The event trees that `qot_attosleep` and `TIMELINE_CREATE_TIMER` build, at whatever times they
are called, with passes of the loop and removals in between. -/
inductive BuiltTree : List TimelineSleeper → Prop where
  | empty : BuiltTree []
  | sleep {events : List TimelineSleeper} (built : BuiltTree events) {addr : Nat}
    (fresh : addr ∉ addrs events) (pid : Int32) (expires : Timepoint) :
    BuiltTree (qotTimelineEventAdd events (qotInitSleeper addr pid expires))
  | timer {events : List TimelineSleeper} (built : BuiltTree events) {addr : Nat}
    (fresh : addr ∉ addrs events) {pid : Int32} {timer : QotTimer} {now : Timepoint}
    {sleeper : TimelineSleeper} (init : qotInitTimerSleeper addr pid timer now = some sleeper) :
    BuiltTree (qotTimelineEventAdd events sleeper)
  | removed {events : List TimelineSleeper} (built : BuiltTree events) (addr : Nat) :
    BuiltTree (eventErase events addr)
  | waked {events : List TimelineSleeper} (built : BuiltTree events) {expired : Timepoint → Bool}
    {alive : Int32 → Bool} {fuel : Nat} {done rest : List TimelineSleeper}
    (loop : wakeLoop expired alive fuel [] events = some (done, rest)) : BuiltTree (done ++ rest)

theorem BuiltTree.sorted {events : List TimelineSleeper} (h : BuiltTree events) :
    EventsSorted events := by
  induction h with
  | empty => exact List.Pairwise.nil
  | sleep _ _ _ _ ih => exact eventsSorted_add ih _
  | timer _ _ _ ih => exact eventsSorted_add ih _
  | removed _ addr ih => exact ih.sublist List.filter_sublist
  | @waked events _ _ _ _ _ _ loop ih =>
    have hstart : EventsSorted (Pass.start BindingTable.empty events).events := ih
    obtain ⟨e, ⟨hreach, -⟩, rfl, rfl⟩ := endsIn_of_wakeLoop (s := Pass.start _ events) loop
    exact reaches_sorted hstart hreach

/-- The test of the interrupt at core time `c`. -/
def interruptTest (clkglParams : TlTranslation) (tl : Timeline) (c : Int64) (e : Timepoint) :
    Bool :=
  expiredOnTimeline tl.type tl.impl clkglParams (tpFromNsec c) e

/-- The test of the update path at core time `c`. -/
def updateTest (clkglParams : TlTranslation) (tl : Timeline) (c : Int64) (e : Timepoint) : Bool :=
  expiredOnCore tl.type tl.impl clkglParams (tpFromNsec c) e

/-- The loop over a timeline, with a given test. -/
def Timeline.pass (tl : Timeline) : Pass := Pass.start BindingTable.empty tl.events

theorem interruptTest_iff (clkglParams : TlTranslation) (tl : Timeline) (c : Int64)
    (e : Timepoint) :
    interruptTest clkglParams tl c e = true
      ↔ e.rank < (qotCoreToRemote tl.type tl.impl clkglParams (tpFromNsec c)).rank := by
  unfold interruptTest
  rw [decide_eq_true_eq]
  exact timepointCmp_pos _ _

/-- Timeline times come from 64-bit nanoseconds. -/
theorem timelineTime_sec_lt (clkglParams : TlTranslation) (tl : Timeline) (c : Int64) :
    (qotCoreToRemote tl.type tl.impl clkglParams (tpFromNsec c)).sec.toInt
      < 4611686018427387904 := by
  rw [qotCoreToRemote_eq, tpFromNsec_sec]
  have hfit := fits_toInt (loc2rem (mappingInForce tl.type tl.impl clkglParams) false
    (tpToNsec (tpFromNsec c)))
  omega

theorem wakeTimeline_isSome_iff (clkglParams : TlTranslation) (tl : Timeline) (c : Int64)
    (alive : Int32 → Bool) :
    (∃ fuel, (wakeTimeline clkglParams c alive fuel tl).isSome)
      ↔ Loop.Ends (wakeOne (interruptTest clkglParams tl c) alive) tl.pass := by
  rw [← exists_fuel_iff]
  refine exists_congr fun fuel => ?_
  rw [wakeTimeline, Option.isSome_map]
  exact Iff.rfl

theorem qotSchedulerUpdate_isSome_iff (k : Kernel) (i : Nat) (tl : Timeline) (r : UpdateReadings)
    (alive : Int32 → Bool) :
    (∃ fuel, (qotSchedulerUpdate k i tl r alive fuel).isSome)
      ↔ Loop.Ends (wakeOne (updateTest k.clkglParams tl r.core) alive) tl.pass := by
  rw [← exists_fuel_iff]
  refine exists_congr fun fuel => ?_
  rw [qotSchedulerUpdate, Option.isSome_map]
  exact Iff.rfl

/-- **The wake-up loop ends.** In the interrupt it does exactly if no two endless timers come to
rest at one time that has expired; on the update path exactly if it never stands at a time at which
two are stuck. Both do if the periods of the endless timers add something, all but one. -/
theorem wake_loop_ends_iff (tl : Timeline) (hbuilt : BuiltTree tl.events) (alive : Int32 → Bool) :
    (∀ (clkglParams : TlTranslation) (c : Int64),
        (∃ fuel, (wakeTimeline clkglParams c alive fuel tl).isSome)
          ↔ ∀ e, interruptTest clkglParams tl c e = true → tl.events.countP (restsAt alive e) ≤ 1)
      ∧ (∀ (k : Kernel) (i : Nat) (r : UpdateReadings),
        (∃ fuel, (qotSchedulerUpdate k i tl r alive fuel).isSome)
          ↔ ∀ s, Loop.Reaches (wakeOne (updateTest k.clkglParams tl r.core) alive) tl.pass s →
            ¬ Trapped alive (updateTest k.clkglParams tl r.core) s)
      ∧ (tl.events.countP (idle alive) ≤ 1 →
        (∀ clkglParams c, ∃ fuel, (wakeTimeline clkglParams c alive fuel tl).isSome)
          ∧ ∀ k i r, ∃ fuel, (qotSchedulerUpdate k i tl r alive fuel).isSome) := by
  have hsorted : EventsSorted tl.pass.events := hbuilt.sorted
  refine ⟨?_, ?_, ?_⟩
  · intro clkglParams c
    rw [wakeTimeline_isSome_iff]
    exact ends_iff_of_order (interruptTest_iff clkglParams tl c)
      (timelineTime_sec_lt clkglParams tl c) hsorted
  · intro k i r
    rw [qotSchedulerUpdate_isSome_iff]
    exact ends_iff_not_trapped hsorted
  · intro hidle
    constructor
    · intro clkglParams c
      rw [wakeTimeline_isSome_iff]
      exact ends_of_idle hsorted hidle
    · intro k i r
      rw [qotSchedulerUpdate_isSome_iff]
      exact ends_of_idle hsorted hidle

/-- A timer of period zero, without a count, that is to start at ten seconds. -/
def zeroPeriod : QotTimer := ⟨⟨10, 0⟩, ⟨0, 0⟩, 0⟩

def zeroPeriodSleeper (addr : Nat) (pid : Int32) : TimelineSleeper where
  addr := addr
  task := true
  pid := pid
  sleeperActive := true
  qotExpires := ⟨10, 0⟩
  periodicTimerFlag := true
  timer := zeroPeriod
  timerCounts := 1

/-- Alone, such a timer lets the loop end: it is signalled once in a pass. -/
theorem wake_loop_ends_iff_alone :
    (∃ fuel, (wakeTimeline initTranslation 11000000000 (fun _ => true) fuel
        ⟨.qotTimelineLocal, initTranslation, [zeroPeriodSleeper 1 7]⟩).isSome)
      ∧ ∃ fuel, (qotSchedulerUpdate (steadyKernel []) 0
          ⟨.qotTimelineLocal, initTranslation, [zeroPeriodSleeper 1 7]⟩
          ⟨11000000000, 11000000000, 11000000000, 11000000000⟩ (fun _ => true) fuel).isSome := by
  have hbuilt : BuiltTree [zeroPeriodSleeper 1 7] :=
    .timer .empty (by decide)
      (show qotInitTimerSleeper 1 7 zeroPeriod ⟨1, 0⟩ = some (zeroPeriodSleeper 1 7) from rfl)
  have hends := (wake_loop_ends_iff ⟨.qotTimelineLocal, initTranslation, [zeroPeriodSleeper 1 7]⟩
    hbuilt (fun _ => true)).2.2 (by decide)
  exact ⟨hends.1 _ _, hends.2 _ _ _⟩

/-- With two of them the loop does not end. -/
theorem wakeTimeline_zeroPeriods (fuel : Nat) :
    wakeTimeline initTranslation 11000000000 (fun _ => true) fuel
      ⟨.qotTimelineLocal, initTranslation, [zeroPeriodSleeper 1 7, zeroPeriodSleeper 2 8]⟩
        = none := by
  generalize htl : (⟨.qotTimelineLocal, initTranslation,
    [zeroPeriodSleeper 1 7, zeroPeriodSleeper 2 8]⟩ : Timeline) = tl
  have hsorted : EventsSorted tl.pass.events := by
    subst htl
    unfold EventsSorted
    decide
  by_contra hsome
  have hends := (wakeTimeline_isSome_iff initTranslation tl 11000000000 fun _ => true).mp
    ⟨fuel, Option.isSome_iff_ne_none.mpr hsome⟩
  rw [ends_iff_of_order (interruptTest_iff initTranslation tl 11000000000)
    (timelineTime_sec_lt initTranslation tl 11000000000) hsorted] at hends
  have hone := hends ⟨10, 0⟩ (by subst htl; decide)
  subst htl
  revert hone
  decide

/-- Two processes create one each at one second. From ten seconds on, no number of iterations is
enough for the interrupt. -/
theorem wake_loop_endless :
    ∃ k₁ k₂,
      qotTimerCreate (steadyKernel []) 0 1 7 zeroPeriod 1000000000
          ⟨1000000000, 1000000000, 1000000000⟩ = some k₁
        ∧ qotTimerCreate k₁ 0 2 8 zeroPeriod 1000000000
          ⟨1000000000, 1000000000, 1000000000⟩ = some k₂
        ∧ ∀ fuel, schedulerInterfaceInterrupt k₂
          ⟨⟨11000000000, 11000000000⟩, ⟨11000000000, 11000000000⟩, ⟨11000000000, 11000000000⟩,
            11000000000, 11000000000⟩ (fun _ => true) fuel = none := by
  refine ⟨_, _, rfl, rfl, fun fuel => ?_⟩
  have hround : ∀ k : Kernel, k.clkglParams = initTranslation →
      k.timelines = [⟨.qotTimelineLocal, initTranslation,
        [zeroPeriodSleeper 1 7, zeroPeriodSleeper 2 8]⟩] →
      wakeTimelines k.clkglParams 11000000000 (fun _ => true) fuel k.timelines = none := by
    intro k hparams htimelines
    rw [hparams, htimelines, wakeTimelines, wakeTimeline_zeroPeriods]
    rfl
  unfold schedulerInterfaceInterrupt interruptRounds
  rw [hround _ rfl rfl]
  rfl

end Qot
