import Mathlib.Logic.Function.Iterate
import QotStack.Scheduler.Sleeper

/-!
# QotStack — the wake-up loop

Both the interrupt and the update path walk the event tree of a timeline from the front and wake
every sleeper whose expiry has passed, by their own test. `qot_sleeper_wakeup` steps to the next
node *before* it takes a periodic timer off and queues its next release, so a release that sorts
before the next node is not visited again in this pass.

`wakeLoop` keeps the nodes already passed apart from those ahead. `WakeStep` lists what waking one
node can do to the two, and `wakeLoop_induction` is the one induction over the loop; the facts used
later (order, where the nodes come from, what becomes of a blocked task) are instances of it.
-/

namespace Qot

open OrderedInsert

/-- Whether a release sorts behind the node the loop stands at, and so is visited again. -/
def goesBehind (t : TimelineSleeper) : List TimelineSleeper → Bool
  | [] => false
  | next :: _ => ¬ timepointCmp next.qotExpires t.qotExpires < 0

/-- Wake sleepers from the front while their expiry has passed: `done` are the nodes passed, the
next argument those ahead. `none` is a loop that does not end within `fuel` rounds, as it never does
for two timers of period zero. -/
def wakeLoop (expired : Timepoint → Bool) (alive : Int32 → Bool) :
    Nat → List TimelineSleeper → List TimelineSleeper →
      Option (List TimelineSleeper × List TimelineSleeper)
  | _, done, [] => some (done, [])
  | 0, _, _ :: _ => none
  | fuel + 1, done, t :: rest =>
    if expired t.qotExpires then
      match qotSleeperWakeup (alive t.pid) t with
      | .requeued t' =>
        -- the loop took its next node before the release went back into the tree
        if goesBehind t' rest then wakeLoop expired alive fuel done (qotTimelineEventAdd rest t')
        else wakeLoop expired alive fuel (qotTimelineEventAdd done t') rest
      | .released => wakeLoop expired alive fuel done rest
      | .kept t' => wakeLoop expired alive fuel (done ++ [t']) rest
    else some (done, t :: rest)

/-- What waking the node `t` makes of the nodes passed and the nodes ahead. -/
inductive WakeStep (t : TimelineSleeper) (done rest : List TimelineSleeper) :
    List TimelineSleeper → List TimelineSleeper → Prop where
  | behind (periodic : t.periodicTimerFlag = true) (h : goesBehind t.nextRelease rest = true) :
    WakeStep t done rest done (qotTimelineEventAdd rest t.nextRelease)
  | skipped (periodic : t.periodicTimerFlag = true) (h : goesBehind t.nextRelease rest = false) :
    WakeStep t done rest (qotTimelineEventAdd done t.nextRelease) rest
  | released (periodic : t.periodicTimerFlag = true) : WakeStep t done rest done rest
  | woken (blocking : t.periodicTimerFlag = false) : WakeStep t done rest (done ++ [t.woken]) rest
  | passed (blocking : t.periodicTimerFlag = false) (inactive : t.sleeperActive = false) :
    WakeStep t done rest (done ++ [t]) rest

variable {expired : Timepoint → Bool} {alive : Int32 → Bool} {fuel : Nat}
  {done rest d r events done' rest' : List TimelineSleeper} {t : TimelineSleeper}

/-- **The induction over the loop.** What every wake-up preserves holds at its end, where the next
node, if any, has not expired. -/
theorem wakeLoop_induction {I : List TimelineSleeper → List TimelineSleeper → Prop}
    (hstep : ∀ t done rest done' rest', I done (t :: rest) → expired t.qotExpires = true →
      WakeStep t done rest done' rest' → I done' rest') (hI : I done rest)
    (h : wakeLoop expired alive fuel done rest = some (d, r)) :
    I d r ∧ ∀ f ∈ r.head?, expired f.qotExpires = false := by
  -- one case for each way through the body of the loop
  fun_induction wakeLoop expired alive fuel done rest with
  | case1 =>
    cases h
    exact ⟨hI, by simp⟩
  | case2 => cases h
  | case3 fuel done t rest hexp t' hout hb ih =>
    cases wakes_of_eq hout with
    | requeued hper => exact ih (hstep _ _ _ _ _ hI hexp (.behind hper hb)) h
  | case4 fuel done t rest hexp t' hout hb ih =>
    cases wakes_of_eq hout with
    | requeued hper => exact ih (hstep _ _ _ _ _ hI hexp (.skipped hper (by simpa using hb))) h
  | case5 fuel done t rest hexp hout ih =>
    cases wakes_of_eq hout with
    | released hper => exact ih (hstep _ _ _ _ _ hI hexp (.released hper)) h
  | case6 fuel done t rest hexp t' hout ih =>
    cases wakes_of_eq hout with
    | woken hper => exact ih (hstep _ _ _ _ _ hI hexp (.woken hper)) h
    | passed hper hinactive => exact ih (hstep _ _ _ _ _ hI hexp (.passed hper hinactive)) h
  | case7 fuel done t rest hexp =>
    cases h
    exact ⟨hI, by simpa using hexp⟩

/-! ## Order -/

def EventsSorted (events : List TimelineSleeper) : Prop :=
  events.Pairwise fun s t => s.qotExpires.rank ≤ t.qotExpires.rank

theorem eventsSorted_add (h : EventsSorted events) (s : TimelineSleeper) :
    EventsSorted (qotTimelineEventAdd events s) := by
  rw [EventsSorted, qotTimelineEventAdd, pairwise_insertBefore_iff]
  refine ⟨h, ?_, ?_⟩
  · intro t ht
    -- the walk passed `t`, so it is not later
    have hle : ¬ timepointCmp t.qotExpires s.qotExpires < 0 := by
      simpa using List.mem_takeWhile_imp ht
    rw [timepointCmp_neg] at hle
    exact not_lt.mp hle
  · -- the walk stopped at a later node, and the tree only gets later from there
    intro t ht
    have hsorted : (events.dropWhile fun y =>
        !decide (timepointCmp y.qotExpires s.qotExpires < 0)).Pairwise
          fun s t => s.qotExpires.rank ≤ t.qotExpires.rank := h.sublist (List.dropWhile_sublist _)
    cases hdrop : events.dropWhile fun y =>
      !decide (timepointCmp y.qotExpires s.qotExpires < 0) with
    | nil => simp [hdrop] at ht
    | cons f l =>
      have hlater : timepointCmp f.qotExpires s.qotExpires < 0 := by
        have := List.head?_dropWhile_not
          (fun y : TimelineSleeper => !decide (timepointCmp y.qotExpires s.qotExpires < 0)) events
        simpa [hdrop] using this
      rw [timepointCmp_neg] at hlater
      rw [hdrop] at ht hsorted
      rcases List.mem_cons.mp ht with rfl | ht
      · exact hlater.le
      · exact hlater.le.trans ((List.pairwise_cons.mp hsorted).1 t ht)

theorem goesBehind_true (h : goesBehind t rest = true) :
    ∃ next tail, rest = next :: tail ∧ next.qotExpires.rank ≤ t.qotExpires.rank := by
  cases rest with
  | nil => simp [goesBehind] at h
  | cons next tail =>
    have hle : ¬ timepointCmp next.qotExpires t.qotExpires < 0 := by simpa [goesBehind] using h
    rw [timepointCmp_neg] at hle
    exact ⟨next, tail, rfl, not_lt.mp hle⟩

theorem goesBehind_false (hsorted : EventsSorted rest) (h : goesBehind t rest = false) :
    ∀ u ∈ rest, t.qotExpires.rank < u.qotExpires.rank := by
  cases rest with
  | nil => simp
  | cons next tail =>
    have hlt : timepointCmp next.qotExpires t.qotExpires < 0 := by simpa [goesBehind] using h
    rw [timepointCmp_neg] at hlt
    intro u hu
    rcases List.mem_cons.mp hu with rfl | hu
    · exact hlt
    · exact hlt.trans_le ((List.pairwise_cons.mp hsorted).1 u hu)

theorem wakeStep_sorted (h : EventsSorted (done ++ t :: rest))
    (hstep : WakeStep t done rest done' rest') : EventsSorted (done' ++ rest') := by
  obtain ⟨hdone, hrest, hcross⟩ := List.pairwise_append.mp h
  obtain ⟨ht, hrest⟩ := List.pairwise_cons.mp hrest
  have hcross' : ∀ a ∈ done, ∀ b ∈ rest, a.qotExpires.rank ≤ b.qotExpires.rank :=
    fun a ha b hb => hcross a ha b (List.mem_cons_of_mem _ hb)
  cases hstep with
  | behind _ hb =>
    -- behind the next node, hence behind all that was passed
    obtain ⟨next, tail, rfl, hnext⟩ := goesBehind_true hb
    refine List.pairwise_append.mpr ⟨hdone, eventsSorted_add hrest _, ?_⟩
    intro a ha b hb
    rcases mem_qotTimelineEventAdd.mp hb with rfl | hb
    · exact (hcross' a ha next List.mem_cons_self).trans hnext
    · exact hcross' a ha b hb
  | skipped _ hb =>
    refine List.pairwise_append.mpr ⟨eventsSorted_add hdone _, hrest, ?_⟩
    intro a ha b hb'
    rcases mem_qotTimelineEventAdd.mp ha with rfl | ha
    · exact (goesBehind_false hrest hb b hb').le
    · exact hcross' a ha b hb'
  | released _ => exact List.pairwise_append.mpr ⟨hdone, hrest, hcross'⟩
  | woken _ =>
    -- the woken node keeps its place and its expiry
    rw [EventsSorted, List.append_assoc, List.singleton_append]
    refine List.pairwise_append.mpr ⟨hdone, List.pairwise_cons.mpr ⟨ht, hrest⟩, ?_⟩
    intro a ha b hb
    rcases List.mem_cons.mp hb with rfl | hb
    · exact hcross a ha t List.mem_cons_self
    · exact hcross' a ha b hb
  | passed _ _ =>
    rw [EventsSorted, List.append_assoc, List.singleton_append]
    exact h

theorem wakeLoop_sorted (h : EventsSorted events)
    (hloop : wakeLoop expired alive fuel [] events = some (d, r)) : EventsSorted (d ++ r) := by
  refine (wakeLoop_induction (I := fun done rest => EventsSorted (done ++ rest)) ?_ ?_ hloop).1
  · intro t done rest done' rest' hI _ hstep
    exact wakeStep_sorted hI hstep
  · exact h

/-! ## Where the nodes come from -/

/-- A sleeper of `events`, or the release a periodic timer of `events` reaches as long as the
releases before it have expired. -/
def Descends (expired : Timepoint → Prop) (events : List TimelineSleeper) (u : TimelineSleeper) :
    Prop :=
  ∃ t ∈ events, ∃ k, (t.periodicTimerFlag = true ∨ k = 0)
    ∧ (∀ j < k, expired (TimelineSleeper.nextRelease^[j] t).qotExpires)
    ∧ u = TimelineSleeper.nextRelease^[k] t

/-- A release that is not in the tree yet. -/
def Overdue (expired : Timepoint → Prop) (events : List TimelineSleeper) (u : TimelineSleeper) :
    Prop :=
  ∃ t, Descends expired events t ∧ t.periodicTimerFlag = true ∧ expired t.qotExpires
    ∧ u = t.nextRelease

theorem nextRelease_iterate_fields (k : Nat) (t : TimelineSleeper) :
    (TimelineSleeper.nextRelease^[k] t).addr = t.addr
      ∧ (TimelineSleeper.nextRelease^[k] t).sleeperActive = t.sleeperActive
      ∧ (TimelineSleeper.nextRelease^[k] t).periodicTimerFlag = t.periodicTimerFlag := by
  induction k with
  | zero => exact ⟨rfl, rfl, rfl⟩
  | succ k ih =>
    rw [Function.iterate_succ_apply']
    exact ih

section Releases

variable {expired : Timepoint → Prop} {events : List TimelineSleeper} {t u : TimelineSleeper}

theorem Descends.self (ht : t ∈ events) : Descends expired events t :=
  ⟨t, ht, 0, Or.inr rfl, by simp, rfl⟩

theorem Overdue.descends (h : Overdue expired events u) : Descends expired events u := by
  obtain ⟨v, ⟨t, ht, k, -, hpast, rfl⟩, hper, hexp, rfl⟩ := h
  rw [(nextRelease_iterate_fields k t).2.2] at hper
  refine ⟨t, ht, k + 1, Or.inl hper, fun j hj => ?_, (Function.iterate_succ_apply' _ k t).symm⟩
  rcases Nat.lt_succ_iff_lt_or_eq.mp hj with hj | rfl
  · exact hpast j hj
  · exact hexp

/-- A list with the sleepers, and with every expired timer of its own the next release, has
everything that is reached. -/
theorem Descends.mem_of_closed (reached : List TimelineSleeper) (h : Descends expired events u)
    (hevents : ∀ t ∈ events, t ∈ reached)
    (hnext : ∀ t ∈ reached, t.periodicTimerFlag = true → expired t.qotExpires →
      t.nextRelease ∈ reached) : u ∈ reached := by
  obtain ⟨t, ht, k, hk, hpast, rfl⟩ := h
  induction k with
  | zero => exact hevents t ht
  | succ k ih =>
    have hper : t.periodicTimerFlag = true := hk.resolve_right (by simp)
    rw [Function.iterate_succ_apply']
    refine hnext _ (ih (Or.inl hper) fun j hj => hpast j (by omega)) ?_ (hpast k (by omega))
    rw [(nextRelease_iterate_fields k t).2.2]
    exact hper

theorem Descends.mono {expired' : Timepoint → Prop} (h : Descends expired events u)
    (himp : ∀ e, expired e → expired' e) : Descends expired' events u := by
  obtain ⟨t, ht, k, hk, hpast, rfl⟩ := h
  exact ⟨t, ht, k, hk, fun j hj => himp _ (hpast j hj), rfl⟩

theorem Descends.trans {events' : List TimelineSleeper} (h : Descends expired events' u)
    (hactive : u.sleeperActive = true)
    (h' : ∀ t ∈ events', t.sleeperActive = true → Descends expired events t) :
    Descends expired events u := by
  obtain ⟨t, ht, k, hk, hpast, rfl⟩ := h
  rw [(nextRelease_iterate_fields k t).2.1] at hactive
  obtain ⟨t₀, ht₀, j, hj, hpast₀, rfl⟩ := h' t ht hactive
  refine ⟨t₀, ht₀, k + j, ?_, fun i hi => ?_, (Function.iterate_add_apply _ k j t₀).symm⟩
  · rw [(nextRelease_iterate_fields j t₀).2.2] at hk
    rcases hk with hper | rfl
    · exact Or.inl hper
    · simpa using hj
  · by_cases hij : i < j
    · exact hpast₀ i hij
    · have := hpast (i - j) (by omega)
      rwa [← Function.iterate_add_apply, Nat.sub_add_cancel (not_lt.mp hij)] at this

theorem Descends.active (h : Descends expired events u) (hactive : u.sleeperActive = true) :
    ∃ t ∈ events, t.sleeperActive = true := by
  obtain ⟨t, ht, k, -, -, rfl⟩ := h
  rw [(nextRelease_iterate_fields k t).2.1] at hactive
  exact ⟨t, ht, hactive⟩

end Releases

/-- Where the nodes come from, in the middle of the loop: a node ahead is a sleeper of before or one
of its releases; of the nodes passed only releases are still active, and they sort before every
sleeper that has not expired; and those are all still ahead. -/
structure WakeOrigin (expired : Timepoint → Bool) (events done rest : List TimelineSleeper) :
    Prop where
  passed : ∀ u ∈ done, u.sleeperActive = true → Overdue (expired · = true) events u
    ∧ ∀ f ∈ events, expired f.qotExpires = false → u.qotExpires.rank < f.qotExpires.rank
  ahead : ∀ u ∈ rest, Descends (expired · = true) events u
  unexpired : ∀ f ∈ events, expired f.qotExpires = false → f ∈ rest
  sorted : EventsSorted rest

namespace WakeOrigin

variable {expired : Timepoint → Bool} {events done rest : List TimelineSleeper}
  {t : TimelineSleeper}

theorem overdue (h : WakeOrigin expired events done (t :: rest))
    (hexp : expired t.qotExpires = true) (hper : t.periodicTimerFlag = true) :
    Overdue (expired · = true) events t.nextRelease :=
  ⟨t, h.ahead t List.mem_cons_self, hper, hexp, rfl⟩

/-- The first node ahead leaves its place: it has expired, so those that have not stay ahead. -/
theorem tail (h : WakeOrigin expired events done (t :: rest))
    (hexp : expired t.qotExpires = true) : WakeOrigin expired events done rest := by
  refine ⟨h.passed, fun u hu => h.ahead u (List.mem_cons_of_mem _ hu), fun f hf hlate => ?_,
    (List.pairwise_cons.mp h.sorted).2⟩
  rcases List.mem_cons.mp (h.unexpired f hf hlate) with rfl | hmem
  · simp [hexp] at hlate
  · exact hmem

/-- A node that stays in its place is a blocked task, and is not active any more. -/
theorem append (h : WakeOrigin expired events done rest) {v : TimelineSleeper}
    (hv : v.sleeperActive = false) : WakeOrigin expired events (done ++ [v]) rest := by
  refine ⟨fun u hu hactive => ?_, h.ahead, h.unexpired, h.sorted⟩
  rcases List.mem_append.mp hu with hu | hu
  · exact h.passed u hu hactive
  · rw [List.mem_singleton.mp hu, hv] at hactive
    simp at hactive

theorem step {done' rest' : List TimelineSleeper}
    (h : WakeOrigin expired events done (t :: rest)) (hexp : expired t.qotExpires = true)
    (hstep : WakeStep t done rest done' rest') : WakeOrigin expired events done' rest' := by
  have htail := h.tail hexp
  cases hstep with
  | behind hper _ =>
    refine ⟨h.passed, fun u hu => ?_, fun f hf hlate => ?_, eventsSorted_add htail.sorted _⟩
    · rcases mem_qotTimelineEventAdd.mp hu with rfl | hu
      · exact (h.overdue hexp hper).descends
      · exact htail.ahead u hu
    · exact mem_qotTimelineEventAdd.mpr (Or.inr (htail.unexpired f hf hlate))
  | skipped hper hb =>
    refine ⟨fun u hu hactive => ?_, htail.ahead, htail.unexpired, htail.sorted⟩
    rcases mem_qotTimelineEventAdd.mp hu with rfl | hu
    · exact ⟨h.overdue hexp hper, fun f hf hlate =>
        goesBehind_false htail.sorted hb f (htail.unexpired f hf hlate)⟩
    · exact h.passed u hu hactive
  | released _ => exact htail
  | woken _ => exact htail.append rfl
  | passed _ hinactive => exact htail.append hinactive

end WakeOrigin

/-- **Origins.** A node ahead is a sleeper of before or one of its releases. Of the nodes passed
only releases are still active, and they sort before every sleeper that has not expired. -/
theorem wakeLoop_origin (hsorted : EventsSorted events)
    (hloop : wakeLoop expired alive fuel [] events = some (d, r)) :
    (∀ u ∈ d, u.sleeperActive = true → Overdue (expired · = true) events u
        ∧ ∀ f ∈ events, expired f.qotExpires = false → u.qotExpires.rank < f.qotExpires.rank)
      ∧ ∀ u ∈ r, Descends (expired · = true) events u := by
  have hstart : WakeOrigin expired events [] events :=
    ⟨by simp, fun u hu => Descends.self hu, fun f hf _ => hf, hsorted⟩
  have hend : WakeOrigin expired events d r :=
    (wakeLoop_induction (fun _ _ _ _ _ h hexp hstep => h.step hexp hstep) hstart hloop).1
  exact ⟨hend.passed, hend.ahead⟩

theorem wakeLoop_descends (hsorted : EventsSorted events)
    (hloop : wakeLoop expired alive fuel [] events = some (d, r)) :
    ∀ u ∈ d ++ r, u.sleeperActive = true → Descends (expired · = true) events u := by
  obtain ⟨hd, hr⟩ := wakeLoop_origin hsorted hloop
  intro u hu hactive
  rcases List.mem_append.mp hu with hu | hu
  · exact (hd u hu hactive).1.descends
  · exact hr u hu

/-- Where the test is monotone, nothing ahead of where the loop stops has expired. -/
theorem wakeLoop_rest_unexpired (hsorted : EventsSorted events)
    (hloop : wakeLoop expired alive fuel [] events = some (d, r))
    (hmono : ∀ e e' : Timepoint, e.rank ≤ e'.rank → expired e = false → expired e' = false) :
    ∀ u ∈ r, expired u.qotExpires = false := by
  have hhead := (wakeLoop_induction (I := fun _ _ => True) (fun _ _ _ _ _ _ _ _ => trivial)
    trivial hloop).2
  have hrest : EventsSorted r := (List.pairwise_append.mp (wakeLoop_sorted hsorted hloop)).2.1
  intro u hu
  cases r with
  | nil => cases hu
  | cons f r =>
    rcases List.mem_cons.mp hu with rfl | hu
    · exact hhead u rfl
    · exact hmono _ _ ((List.pairwise_cons.mp hrest).1 u hu) (hhead f rfl)

/-! ## What becomes of a blocked task -/

/-- Unless it is the node woken, what was queued stays queued. -/
theorem WakeStep.mem_of_mem {v : TimelineSleeper} (hstep : WakeStep t done rest done' rest')
    (hv : v ∈ done ++ t :: rest) : v = t ∨ v ∈ done' ++ rest' := by
  simp only [List.mem_append, List.mem_cons] at hv
  rcases hv with hv | hv | hv
  · right
    cases hstep <;> simp [hv]
  · exact Or.inl hv
  · right
    cases hstep <;> simp [hv]

/-- A blocked task stays in its place, as it was or woken. -/
theorem WakeStep.mem_blocked (hstep : WakeStep t done rest done' rest')
    (hblock : t.periodicTimerFlag = false) : t ∈ done' ++ rest' ∨ t.woken ∈ done' ++ rest' := by
  cases hstep with
  | behind hper _ => simp [hblock] at hper
  | skipped hper _ => simp [hblock] at hper
  | released hper => simp [hblock] at hper
  | woken _ => exact Or.inr (by simp)
  | passed _ _ => exact Or.inl (by simp)

/-- A blocked task is still queued as it was, or its expiry has passed and it is woken. -/
theorem wakeLoop_blocked (hloop : wakeLoop expired alive fuel [] events = some (d, r)) :
    ∀ t ∈ events, t.periodicTimerFlag = false →
      t ∈ d ++ r ∨ (expired t.qotExpires = true ∧ t.woken ∈ d ++ r) := by
  refine (wakeLoop_induction (I := fun done rest =>
    ∀ t ∈ events, t.periodicTimerFlag = false →
      t ∈ done ++ rest ∨ (expired t.qotExpires = true ∧ t.woken ∈ done ++ rest)) ?_
    (fun t ht _ => Or.inl ht) hloop).1
  intro t done rest done' rest' hI hexp hstep u hu hblock
  rcases hI u hu hblock with hmem | ⟨hpast, hmem⟩
  · rcases hstep.mem_of_mem hmem with rfl | hmem'
    · exact (hstep.mem_blocked hblock).imp_right fun hwoken => ⟨hexp, hwoken⟩
    · exact Or.inl hmem'
  · refine Or.inr ⟨hpast, ?_⟩
    rcases hstep.mem_of_mem hmem with rfl | hmem'
    · -- woken twice is woken once
      exact (hstep.mem_blocked hblock).elim id id
    · exact hmem'

theorem wakeLoop_addrs (hloop : wakeLoop expired alive fuel [] events = some (d, r)) :
    ∃ l, (addrs (d ++ r)).Perm l ∧ l.Sublist (addrs events) := by
  refine (wakeLoop_induction (I := fun done rest =>
    ∃ l, (addrs (done ++ rest)).Perm l ∧ l.Sublist (addrs events)) ?_
    ⟨addrs events, List.Perm.refl _, List.Sublist.refl _⟩ hloop).1
  rintro t done rest done' rest' ⟨l, hperm, hsub⟩ - hstep
  have hsplit : (addrs (done ++ t :: rest)).Perm (t.addr :: (addrs done ++ addrs rest)) := by
    simp only [addrs, List.map_append, List.map_cons]
    exact List.perm_middle
  -- only a timer whose process has gone gives up its address
  cases hstep with
  | behind _ _ =>
    refine ⟨l, List.Perm.trans ?_ hperm, hsub⟩
    refine List.Perm.trans ?_ hsplit.symm
    simp only [addrs, List.map_append]
    exact ((addrs_eventAdd_perm rest t.nextRelease).append_left _).trans List.perm_middle
  | skipped _ _ =>
    refine ⟨l, List.Perm.trans ?_ hperm, hsub⟩
    refine List.Perm.trans ?_ hsplit.symm
    simp only [addrs, List.map_append]
    exact (addrs_eventAdd_perm done t.nextRelease).append_right _
  | released _ =>
    have hl := hsplit.symm.trans hperm
    refine ⟨l.erase t.addr, ?_, List.erase_sublist.trans hsub⟩
    have := hl.erase t.addr
    simpa [addrs] using this
  | woken _ =>
    refine ⟨l, List.Perm.trans ?_ hperm, hsub⟩
    simp [addrs, TimelineSleeper.woken]
  | passed _ _ =>
    refine ⟨l, List.Perm.trans ?_ hperm, hsub⟩
    simp [addrs]

end Qot
