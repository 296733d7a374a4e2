import QotStack.Lib.Runs
import QotStack.Scheduler.Kernel

/-!
# QotStack — no wake-up is lost

As long as an active sleeper is queued anywhere, an interrupt must be armed that comes in time for
the earliest of them (`ArmedWithin`). The invariant that carries this through a run is `Tracks`: the
scheduler's variable follows the hardware in one of three ways —

* `idle` — nothing is armed and nothing is active;
* `covered` — the interrupt is armed for what the variable says, up to the lateness of the driver,
  and no active sleeper expires before the variable;
* `pending` — the interrupt and the variable are both due already, up to the same.

`tracks_unchanged` and `tracks_programmed` say what a path must show to keep it; the paths are then
taken one by one, and `armed_in_time` is the induction over runs. What the paths themselves do not
ensure is the condition `InTime` on the step and the state before it.
-/

namespace Qot

open MachineInt

/-! ## The property -/

/-- No active sleeper expires before core time `n`. -/
abbrev Kernel.NoneBefore (k : Kernel) (n : Int) : Prop :=
  ∀ tl ∈ k.timelines, ∀ t ∈ tl.events, t.sleeperActive = true →
    n ≤ (tl.coreNs k.clkglParams t.qotExpires).toInt

abbrev Kernel.AnyActive (k : Kernel) : Prop :=
  ∃ tl ∈ k.timelines, ∃ t ∈ tl.events, t.sleeperActive = true

/-- **The property**, up to a lateness: with any active sleeper queued, an interrupt is armed, at
most that much later than the larger of the end of the step plus the minimum delta and the earliest
core expiry. -/
def ArmedWithin (late : Int) (k : Kernel) : Prop :=
  k.AnyActive → ∃ a, k.armed = some a
    ∧ (a ≤ k.now.toInt + k.driver.minDelta + late ∨ k.NoneBefore (a - late))

instance (late : Int) (k : Kernel) : Decidable (ArmedWithin late k) :=
  decidable_of_iff (k.AnyActive → k.armed.any fun a =>
      decide (a ≤ k.now.toInt + k.driver.minDelta + late ∨ k.NoneBefore (a - late)))
    (by simp only [ArmedWithin, Option.any_eq_true, decide_eq_true_eq])

/-! ## The invariant -/

/-- The interrupt is due, and so is the core time the scheduler has for it. -/
def Kernel.Pending (k : Kernel) : Prop :=
  ∃ a, k.armed = some a ∧ a ≤ k.now.toInt + k.driver.minDelta + k.driver.lateness
    ∧ k.callbackNs ≤ k.now.toInt + k.driver.minDelta

inductive Tracks (k : Kernel) : Prop where
  | idle (unarmed : k.armed = none) (callback : k.nextInterruptCallback = maxTimepoint)
      (none : ¬ k.AnyActive)
  | covered (a : Int) (armed : k.armed = some a) (le : a ≤ k.callbackNs + k.driver.lateness)
      (none : k.NoneBefore k.callbackNs)
  | pending (h : k.Pending)

structure KernelInv (k : Kernel) : Prop where
  clock : 1000000000 ≤ k.now.toInt
  sorted : ∀ tl ∈ k.timelines, EventsSorted tl.events
  callback : ∃ n, k.nextInterruptCallback = tpFromNsec n
  tracks : Tracks k

variable {k k' : Kernel} {alive : Int32 → Bool}

theorem noneBefore_of_idle (h : ¬ k.AnyActive) (n : Int) : k.NoneBefore n :=
  fun tl htl t ht hactive => absurd ⟨tl, htl, t, ht, hactive⟩ h

theorem noneBefore_mono {n n' : Int} (h : k.NoneBefore n) (hle : n' ≤ n) : k.NoneBefore n' :=
  fun tl htl t ht hactive => hle.trans (h tl htl t ht hactive)

theorem noneBefore_congr {n : Int} (htimelines : k'.timelines = k.timelines)
    (hclkgl : k'.clkglParams = k.clkglParams) (h : k.NoneBefore n) : k'.NoneBefore n := by
  rw [Kernel.NoneBefore, htimelines, hclkgl]
  exact h

theorem armedWithin_of_tracks (h : Tracks k) : ArmedWithin k.driver.lateness k := by
  intro hactive
  cases h with
  | idle _ _ hnone => exact absurd hactive hnone
  | covered a harmed hle hnone =>
    exact ⟨a, harmed, Or.inr (noneBefore_mono hnone (sub_le_iff_le_add.mpr hle))⟩
  | pending h =>
    obtain ⟨a, harmed, hdue, -⟩ := h
    exact ⟨a, harmed, Or.inl hdue⟩

/-- Before an earlier core time nothing is active, unless the interrupt is due. -/
theorem pending_or_noneBefore (h : Tracks k) {x : Int} (hlt : x < k.callbackNs) :
    k.Pending ∨ k.NoneBefore x := by
  cases h with
  | idle _ _ hno => exact Or.inr (noneBefore_of_idle hno _)
  | covered _ _ _ hnone => exact Or.inr (noneBefore_mono hnone hlt.le)
  | pending hp => exact Or.inl hp

section Transfer

variable {k k' : Kernel} (hdriver : k'.driver = k.driver) (hnow : k.now.toInt ≤ k'.now.toInt)

include hdriver hnow

/-- A path that programs nothing keeps the invariant if nothing becomes active before the variable,
and nothing at all where nothing was. -/
theorem tracks_unchanged (h : Tracks k) (harmed : k'.armed = k.armed)
    (hcb : k'.nextInterruptCallback = k.nextInterruptCallback)
    (hidle : k.armed = none → k.nextInterruptCallback = maxTimepoint → ¬ k.AnyActive →
      ¬ k'.AnyActive)
    (hnone : k.Pending ∨ (k.NoneBefore k.callbackNs → k'.NoneBefore k.callbackNs)) : Tracks k' := by
  have hcb' : k'.callbackNs = k.callbackNs := by rw [Kernel.callbackNs, hcb, Kernel.callbackNs]
  have hpending : k.Pending → Tracks k' := by
    rintro ⟨a, ha, hdue, hvar⟩
    refine .pending ⟨a, harmed.trans ha, ?_, ?_⟩
    · rw [hdriver]
      omega
    · rw [hdriver, hcb']
      omega
  cases h with
  | idle hunarmed hmax hno =>
    exact .idle (harmed.trans hunarmed) (hcb.trans hmax) (hidle hunarmed hmax hno)
  | covered a ha hle hbefore =>
    rcases hnone with hp | hnone
    · exact hpending hp
    · rw [← hcb'] at hle hnone hbefore
      rw [← hdriver] at hle
      exact .covered a (harmed.trans ha) hle (hnone hbefore)
  | pending hp => exact hpending hp

/-- A path that programs an earlier core time `x` keeps it if nothing becomes active before `x`. -/
theorem tracks_programmed {x : Int64} {a : Int} (harmed : k'.armed = some a)
    (hcb : k'.nextInterruptCallback = tpFromNsec x) (hlt : x.toInt < k.callbackNs)
    (ha : a ≤ x.toInt + k'.driver.lateness
      ∨ (a ≤ k'.now.toInt + k'.driver.minDelta + k'.driver.lateness
        ∧ x.toInt ≤ k'.now.toInt + k'.driver.minDelta))
    (hnone : k.Pending ∨ k'.NoneBefore x.toInt) : Tracks k' := by
  have hcb' : k'.callbackNs = x.toInt := callbackNs_eq hcb
  rcases ha with hax | ⟨hdue, hvar⟩
  · rcases hnone with ⟨-, -, -, hvar⟩ | hnone
    · rw [← hdriver] at hvar
      exact .pending ⟨a, harmed, by omega, by omega⟩
    · rw [← hcb'] at hax hnone
      exact .covered a harmed hax hnone
  · exact .pending ⟨a, harmed, hdue, by omega⟩

end Transfer

/-! ## Replacing one event tree -/

section SetEvents

variable {k : Kernel} {i : Nat} {tl : Timeline} {events : List TimelineSleeper}

theorem mem_setEvents {tl' : Timeline} (h : tl' ∈ (k.setEvents i tl events).timelines) :
    tl' = { tl with events := events } ∨ tl' ∈ k.timelines :=
  (List.mem_or_eq_of_mem_set h).symm

theorem noneBefore_setEvents {n : Int}
    (hothers : ∀ j tl', j ≠ i → k.timelines[j]? = some tl' → ∀ t ∈ tl'.events,
      t.sleeperActive = true → n ≤ (tl'.coreNs k.clkglParams t.qotExpires).toInt)
    (hevents : ∀ t ∈ events, t.sleeperActive = true →
      n ≤ (tl.coreNs k.clkglParams t.qotExpires).toInt) :
    (k.setEvents i tl events).NoneBefore n := by
  intro tl' htl' t ht hactive
  obtain ⟨j, hj⟩ := List.mem_iff_getElem?.mp htl'
  simp only [Kernel.setEvents, List.getElem?_set] at hj
  split at hj
  · split at hj
    · cases hj
      exact hevents t ht hactive
    · cases hj
  · next hne => exact hothers j tl' (Ne.symm hne) hj t ht hactive

theorem noneBefore_setEvents_of {n : Int} (h : k.NoneBefore n)
    (hevents : ∀ t ∈ events, t.sleeperActive = true →
      n ≤ (tl.coreNs k.clkglParams t.qotExpires).toInt) : (k.setEvents i tl events).NoneBefore n :=
  noneBefore_setEvents (fun _ tl' _ hj => h tl' (List.mem_of_getElem? hj)) hevents

theorem not_anyActive_setEvents (h : ¬ k.AnyActive)
    (hevents : ∀ t ∈ events, t.sleeperActive = false) : ¬ (k.setEvents i tl events).AnyActive := by
  rintro ⟨tl', htl', t, ht, hactive⟩
  rcases mem_setEvents htl' with rfl | htl'
  · simp [hevents t ht] at hactive
  · exact h ⟨tl', htl', t, ht, hactive⟩

theorem sorted_setEvents (i : Nat) (tl : Timeline) (h : ∀ tl ∈ k.timelines, EventsSorted tl.events)
    (hevents : EventsSorted events) :
    ∀ tl' ∈ (k.setEvents i tl events).timelines, EventsSorted tl'.events := by
  intro tl' htl'
  rcases mem_setEvents htl' with rfl | htl'
  · exact hevents
  · exact h tl' htl'

end SetEvents

/-! ## A new expiry -/

section Sleepers

variable {k : Kernel} (h : KernelInv k) {i : Nat} {tl : Timeline}
  (htl : k.timelines[i]? = some tl) {r : StartReadings} (hr : Forward k.now r.inOrder)

include h htl hr

theorem kernelInv_fewer {events : List TimelineSleeper} (hsub : events.Sublist tl.events) :
    KernelInv { k.setEvents i tl events with now := r.finish } := by
  obtain ⟨-, -, -, hlater⟩ := forward_start hr
  have hclock := h.clock
  have hmem := List.mem_of_getElem? htl
  refine ⟨hclock.trans hlater, ?_, h.callback, ?_⟩
  · exact sorted_setEvents i tl h.sorted ((h.sorted tl hmem).sublist hsub)
  · refine tracks_unchanged (k := k) rfl hlater h.tracks rfl rfl (fun _ _ hno => ?_)
      (Or.inr fun hnone => ?_)
    · refine not_anyActive_setEvents hno fun t ht => ?_
      by_contra hactive
      exact hno ⟨tl, hmem, t, hsub.subset ht, by simpa using hactive⟩
    · exact noneBefore_setEvents_of hnone fun t ht =>
        hnone tl hmem t (hsub.subset ht)

/-- **Queueing a sleeper.** A refused expiry leaves the tree as it was; one that is not first is
covered by the interrupt that is. -/
theorem kernelInv_startSleeper {s : TimelineSleeper} (haddr : s.addr ∉ addrs tl.events)
    (hfirst : k.armed = none →
      timepointCmp (tl.core k.clkglParams s.qotExpires) maxTimepoint > 0) :
    KernelInv (startSleeper k i tl s r) := by
  obtain ⟨hnow, hprogram, -, hlast⟩ := forward_start hr
  have hclock := h.clock
  have hmem := List.mem_of_getElem? htl
  obtain ⟨n, hn⟩ := h.callback
  obtain ⟨x, hx⟩ : ∃ x, x = tl.coreNs k.clkglParams s.qotExpires := ⟨_, rfl⟩
  have hsorted := sorted_setEvents i tl h.sorted
    (eventsSorted_add (h.sorted tl hmem) s)
  have hadd : ∀ m, m ≤ x.toInt → k.NoneBefore m →
      (k.setEvents i tl (qotTimelineEventAdd tl.events s)).NoneBefore m := by
    intro m hm hnone
    refine noneBefore_setEvents_of hnone fun t ht hactive => ?_
    rcases mem_qotTimelineEventAdd.mp ht with rfl | ht
    · rwa [← hx]
    · exact hnone tl hmem t ht hactive
  rcases startSleeper_cases (i := i) (r := r) hn haddr (by omega) (by omega) hx with
    heq | ⟨heq, hlater⟩ | ⟨a, heq, ha, hlt⟩
  · rw [heq]
    exact kernelInv_fewer h htl hr (List.Sublist.refl _)
  · -- with nothing armed the variable is `maxTimepoint`, which the new expiry would come before
    rw [heq]
    refine ⟨hclock.trans hlast, hsorted, h.callback, ?_⟩
    refine tracks_unchanged (k := k) rfl hlast h.tracks rfl rfl (fun hunarmed hmax _ => ?_)
      (Or.inr (hadd _ hlater))
    have hbefore := hfirst hunarmed
    rw [← hmax, Timeline.core_eq, ← hx, cmp_callback_iff hn] at hbefore
    omega
  · rw [heq]
    refine ⟨hclock.trans hlast, hsorted, ⟨x, rfl⟩, ?_⟩
    refine tracks_programmed (k := k) rfl hlast rfl rfl hlt (Or.inl ha) ?_
    exact (pending_or_noneBefore h.tracks hlt).imp_right fun hnone =>
      noneBefore_congr rfl rfl (hadd _ le_rfl hnone)

omit htl in
/-- **A task runs again**, and leaves or starts its expiry once more. The core expiry it kept may be
out of date; programming it is never too late. -/
theorem kernelInv_resume {addr : Nat} {x : Int64} {left : Bool} {k' : Kernel}
    (hk' : qotAttosleepResume k i addr x r = some (left, k')) : KernelInv k' := by
  obtain ⟨hnow, hprogram, -, hlast⟩ := forward_start hr
  have hclock := h.clock
  obtain ⟨n, hn⟩ := h.callback
  obtain ⟨tl', htl', t, -, -, ⟨-, rfl, -⟩ | ⟨-, hstart, rfl⟩⟩ := qotAttosleepResume_cases hk'
  · exact kernelInv_fewer h htl' hr List.filter_sublist
  rcases qotSleeperStartExpires_cases (x := x) (r := r) hn t.sleeperActive (by omega)
    (by omega) with
    hres | ⟨hres, -⟩ | ⟨a, hres, ha, hlt⟩
  · simp [hres] at hstart
  · rw [hres]
    refine ⟨hclock.trans hlast, h.sorted, h.callback, ?_⟩
    exact tracks_unchanged (k := k) rfl hlast h.tracks rfl rfl (fun _ _ hno => hno) (Or.inr id)
  · rw [hres]
    refine ⟨hclock.trans hlast, h.sorted, ⟨x, rfl⟩, ?_⟩
    exact tracks_programmed (k := k) rfl hlast rfl rfl hlt (Or.inl ha)
      ((pending_or_noneBefore h.tracks hlt).imp_right (noneBefore_congr (k := k) rfl rfl))

end Sleepers

/-! ## The interrupt -/

/-- The conversion to core time keeps the order of the sleepers of a timeline, and of the releases
its timers reach. -/
def CoreOrdered (clkglParams : TlTranslation) (tl : Timeline) (expired : Timepoint → Prop) : Prop :=
  ∀ u v, Descends expired tl.events u → Descends expired tl.events v →
    u.qotExpires.rank ≤ v.qotExpires.rank →
    (tl.coreNs clkglParams u.qotExpires).toInt ≤ (tl.coreNs clkglParams v.qotExpires).toInt

def expiredAtSome (clkglParams : TlTranslation) (tl : Timeline) (cores : List Int64)
    (e : Timepoint) : Prop :=
  ∃ c ∈ cores, expiredOnTimeline tl.type tl.impl clkglParams (tpFromNsec c) e

instance (clkglParams : TlTranslation) (tl : Timeline) (cores : List Int64) (e : Timepoint) :
    Decidable (expiredAtSome clkglParams tl cores e) :=
  -- over the given core times, not over all of them
  List.decidableBEx _ _

/-- `tls'` are the timelines `tls` after rounds of waking at the given core times. -/
def WokenFrom (clkglParams : TlTranslation) (cores : List Int64) (tls tls' : List Timeline) :
    Prop :=
  ∀ tl' ∈ tls', EventsSorted tl'.events ∧ ∃ tl ∈ tls, tl'.type = tl.type ∧ tl'.impl = tl.impl
    ∧ ∀ u ∈ tl'.events, u.sleeperActive = true →
      Descends (expiredAtSome clkglParams tl cores) tl.events u

/-- To know the order it is enough to look at a list that has everything reached. -/
theorem coreOrdered_of_closed {clkglParams : TlTranslation} {tl : Timeline}
    {expired : Timepoint → Prop} (reached : List TimelineSleeper)
    (hevents : ∀ t ∈ tl.events, t ∈ reached)
    (hnext : ∀ t ∈ reached, t.periodicTimerFlag = true → expired t.qotExpires →
      t.nextRelease ∈ reached)
    (hordered : ∀ u ∈ reached, ∀ v ∈ reached, u.qotExpires.rank ≤ v.qotExpires.rank →
      (tl.coreNs clkglParams u.qotExpires).toInt ≤ (tl.coreNs clkglParams v.qotExpires).toInt) :
    CoreOrdered clkglParams tl expired :=
  fun u v hu hv => hordered u (hu.mem_of_closed reached hevents hnext) v
    (hv.mem_of_closed reached hevents hnext)

section Waking

variable {clkglParams : TlTranslation} {cores : List Int64} {tls tls' tls'' : List Timeline}

theorem wokenFrom_refl (h : ∀ tl ∈ tls, EventsSorted tl.events) :
    WokenFrom clkglParams cores tls tls :=
  fun tl htl => ⟨h tl htl, tl, htl, rfl, rfl, fun _ hu _ => Descends.self hu⟩

theorem wokenFrom_wakeTimelines {core : Int64} {alive : Int32 → Bool} {fuel : Nat}
    (h : WokenFrom clkglParams cores tls tls') (hcore : core ∈ cores)
    (hwake : wakeTimelines clkglParams core alive fuel tls' = some tls'') :
    WokenFrom clkglParams cores tls tls'' := by
  intro tl'' htl''
  obtain ⟨j, hj⟩ := List.mem_iff_getElem?.mp htl''
  obtain ⟨tl', d, r, htl', hloop, rfl⟩ := getElem?_wakeTimelines hwake hj
  obtain ⟨hsorted, tl, htl, htype, himpl, hfrom⟩ := h tl' (List.mem_of_getElem? htl')
  refine ⟨wakeLoop_sorted hsorted hloop, tl, htl, htype, himpl, fun u hu hactive => ?_⟩
  refine Descends.trans ?_ hactive hfrom
  refine (wakeLoop_descends hsorted hloop u hu hactive).mono fun e he => ⟨core, hcore, ?_⟩
  rw [← htype, ← himpl]
  exact of_decide_eq_true he

/-- The first active sleeper of a woken timeline is the first in core time too. -/
theorem wokenFrom_first (h : WokenFrom clkglParams cores tls tls')
    (hordered : ∀ tl ∈ tls, CoreOrdered clkglParams tl (expiredAtSome clkglParams tl cores))
    {n : Int} (hfirst : ∀ tl ∈ tls', ∀ f, tl.firstActive = some f →
      n ≤ (tl.coreNs clkglParams f.qotExpires).toInt) :
    ∀ tl ∈ tls', ∀ t ∈ tl.events, t.sleeperActive = true →
      n ≤ (tl.coreNs clkglParams t.qotExpires).toInt := by
  intro tl' htl' u hu hactive
  obtain ⟨hsorted, tl, htl, htype, himpl, hfrom⟩ := h tl' htl'
  obtain ⟨f, hf⟩ := exists_firstActive hu hactive
  obtain ⟨hmem, hfactive⟩ := firstActive_mem hf
  have hcore := hordered tl htl f u (hfrom f hmem hfactive) (hfrom u hu hactive)
    (firstActive_rank_le hsorted hf hu hactive)
  rw [← Timeline.coreNs_congr htype himpl, ← Timeline.coreNs_congr htype himpl] at hcore
  exact (hfirst tl' htl' f hf).trans hcore

end Waking

/-- Waking by a core time, and programming by the driver's clock after it, leave nothing due: what
has not expired by then comes after the driver's clock, and so does the next release of each timer
that has. -/
structure CaughtUp (k : Kernel) (cores : List Int64) (a : Attempt) : Prop where
  range : a.program.toInt < maxNs.toInt
  ahead : ∀ tl ∈ k.timelines, ∀ u,
    Descends (expiredAtSome k.clkglParams tl cores) tl.events u → u.sleeperActive = true →
    ¬ expiredOnTimeline tl.type tl.impl k.clkglParams (tpFromNsec a.core) u.qotExpires →
    a.program.toInt < (tl.coreNs k.clkglParams u.qotExpires).toInt
  releases : ∀ tl ∈ k.timelines, ∀ t,
    Descends (expiredAtSome k.clkglParams tl cores) tl.events t → t.periodicTimerFlag = true →
    expiredOnTimeline tl.type tl.impl k.clkglParams (tpFromNsec a.core) t.qotExpires →
    a.program.toInt < (tl.coreNs k.clkglParams t.nextRelease.qotExpires).toInt

/-- After such a round every active sleeper comes after the driver's clock. -/
theorem caughtUp_active {cores : List Int64} {a : Attempt} {tls' tls'' : List Timeline} {fuel : Nat}
    (h : CaughtUp k cores a) (hcore : a.core ∈ cores)
    (hfrom : WokenFrom k.clkglParams cores k.timelines tls')
    (hwake : wakeTimelines k.clkglParams a.core alive fuel tls' = some tls'') :
    ∀ tl ∈ tls'', ∀ u ∈ tl.events, u.sleeperActive = true →
      a.program.toInt < (tl.coreNs k.clkglParams u.qotExpires).toInt := by
  intro tl'' htl'' u hu hactive
  obtain ⟨j, hj⟩ := List.mem_iff_getElem?.mp htl''
  obtain ⟨tl', d, r, htl', hloop, rfl⟩ := getElem?_wakeTimelines hwake hj
  obtain ⟨hsorted, tl, htl, htype, himpl, hdesc⟩ := hfrom tl' (List.mem_of_getElem? htl')
  have hsame : Timeline.coreNs { tl' with events := d ++ r } k.clkglParams u.qotExpires
      = tl.coreNs k.clkglParams u.qotExpires := Timeline.coreNs_congr htype himpl _ _
  rw [hsame]
  simp only [htype, himpl] at hloop
  have hmono : ∀ e, decide (expiredOnTimeline tl.type tl.impl k.clkglParams (tpFromNsec a.core) e)
      = true → expiredAtSome k.clkglParams tl cores e :=
    fun e he => ⟨a.core, hcore, of_decide_eq_true he⟩
  obtain ⟨hd, hr⟩ := wakeLoop_origin hsorted hloop
  rcases List.mem_append.mp hu with hu | hu
  · -- a release left behind comes from a timer that has expired
    obtain ⟨⟨t, ht, hper, hexp, rfl⟩, -⟩ := hd u hu hactive
    exact h.releases tl htl t ((ht.mono hmono).trans hactive hdesc) hper (of_decide_eq_true hexp)
  · refine h.ahead tl htl u (((hr u hu).mono hmono).trans hactive hdesc) hactive ?_
    exact of_decide_eq_false (wakeLoop_rest_unexpired hsorted hloop
      (fun e e' hle hlate => by
        rw [decide_eq_false_iff_not] at hlate ⊢
        exact fun hearly => hlate (expiredOnTimeline_mono hle hearly)) u hu)

/-- A candidate of `qotGetNextEvent`: nothing active comes before it, unless it was raised to the
first second. -/
def NextFor (k : Kernel) (nextExpires : Timepoint) : Prop :=
  ∃ n : Int64, nextExpires = tpFromNsec n ∧ 0 ≤ n.toInt
    ∧ (n.toInt < 1000000000 ∨ k.NoneBefore n.toInt)

/-- **The rounds of the interrupt**: it ends up armed in time for every active sleeper, or for now.
The last, forced, attempt is refused on x86 only, and there an earlier one leaves nothing due. -/
theorem interruptRounds_spec {fuel : Nat} {forced : Int64} {cores : List Int64} {k₀ : Kernel}
    {as : List Attempt} {nextExpires : Timepoint} {flag : Bool}
    (hclkgl : k.clkglParams = k₀.clkglParams)
    (hfrom : WokenFrom k₀.clkglParams cores k₀.timelines k.timelines)
    (hordered : ∀ tl ∈ k₀.timelines,
      CoreOrdered k₀.clkglParams tl (expiredAtSome k₀.clkglParams tl cores))
    (hcaught : k.driver = .x86 → ∃ a ∈ as, CaughtUp k₀ cores a)
    (has : ∀ a ∈ as, a.core ∈ cores ∧ 1000000000 ≤ a.program.toInt)
    (hforced : 1000000000 ≤ forced.toInt) (hnext : as = [] → NextFor k nextExpires)
    (h : interruptRounds alive fuel forced as nextExpires k = some (flag, k')) :
    k'.driver = k.driver ∧ (∀ tl ∈ k'.timelines, EventsSorted tl.events)
      ∧ ∃ n : Int64, k'.nextInterruptCallback = tpFromNsec n
        ∧ ∃ a, k'.armed = some a ∧ ((a ≤ n.toInt + k.driver.lateness ∧ k'.NoneBefore n.toInt)
          ∨ (a ≤ forced.toInt + k.driver.minDelta + k.driver.lateness
            ∧ n.toInt ≤ forced.toInt + k.driver.minDelta)) := by
  induction as generalizing k nextExpires with
  | nil =>
    simp only [interruptRounds] at h
    cases h
    obtain ⟨n, rfl, hnonneg, hnone⟩ := hnext rfl
    have hmin := k.driver.minDelta_nonneg
    -- out of attempts: the candidate of the last round is programmed by force
    refine ⟨rfl, fun tl htl => (hfrom tl htl).1, n, rfl, ?_⟩
    rcases programSchedInterrupt_forced (d := k.driver) (k := n)
        (show 0 ≤ forced.toInt by omega) hnonneg with ⟨hx86, -, -⟩ | ⟨a, ha, hbound⟩
    · obtain ⟨a, hmem, -⟩ := hcaught hx86
      cases hmem
    · refine ⟨a, by simp [ha], ?_⟩
      rcases hbound with hle | hdue
      · rcases hnone with hsmall | hnone
        · -- a candidate raised to the first second is overdue, since the clock is past it
          exact Or.inr ⟨by omega, by omega⟩
        · exact Or.inl ⟨hle, hnone⟩
      · exact Or.inr hdue
  | cons a as ih =>
    obtain ⟨tls', hwake, h⟩ := Option.bind_eq_some_iff.mp h
    obtain ⟨hcore, hprogram⟩ := has a List.mem_cons_self
    rw [hclkgl] at hwake
    have hfrom' := wokenFrom_wakeTimelines hfrom hcore hwake
    obtain ⟨n, hn, hnonneg, hleast⟩ := qotGetNextEvent_spec k.clkglParams tls'
    have hnone : n.toInt < 1000000000 ∨
        Kernel.NoneBefore { k with timelines := tls' } n.toInt := by
      refine hleast.imp And.left fun hleast => ?_
      rw [hclkgl] at hleast
      show ∀ tl ∈ tls', ∀ t ∈ tl.events, t.sleeperActive = true →
        n.toInt ≤ (tl.coreNs k.clkglParams t.qotExpires).toInt
      rw [hclkgl]
      exact wokenFrom_first hfrom' hordered fun tl htl f hf =>
        hleast.2 _ (Or.inr ⟨tl, htl, f, hf, rfl⟩)
    have hmin := k.driver.minDelta_nonneg
    simp only [hn] at h
    rcases programSchedInterrupt_unforced (d := k.driver) (k := n)
        (show 0 ≤ a.program.toInt by omega) hnonneg with ⟨hrefuse, hrefused⟩ | ⟨hlater, t, ht, hle⟩
    · -- refused: the next attempt starts from what this one woke
      simp only [hrefused] at h
      refine ih (k := { k with timelines := tls' }) hclkgl hfrom' (fun hx86 => ?_)
        (fun b hb => has b (List.mem_cons_of_mem _ hb)) (fun _ => ⟨n, rfl, hnonneg, hnone⟩) h
      obtain ⟨b, hb, hup⟩ := hcaught hx86
      rcases List.mem_cons.mp hb with rfl | hb
      · -- a round that is caught up is not refused
        have hcand : ∀ m, Candidate k.clkglParams tls' maxNs m → b.program.toInt < m.toInt := by
          rintro m (rfl | ⟨tl, htl, f, hf, rfl⟩)
          · exact hup.range
          · rw [hclkgl]
            exact caughtUp_active hup hcore hfrom hwake tl htl f (firstActive_mem hf).1
              (firstActive_mem hf).2
        have hlt : b.program.toInt < n.toInt := by
          rcases hleast with ⟨-, m, hm, hneg⟩ | hleast
          · have := hcand m hm
            omega
          · exact hcand n hleast.1
        have hx : k.driver = .x86 := hx86
        rw [hx] at hrefuse
        simp only [Driver.minDelta] at hrefuse
        omega
      · exact ⟨b, hb, hup⟩
    · simp only [ht] at h
      cases h
      refine ⟨rfl, fun tl htl => (hfrom' tl htl).1, n, rfl, t, rfl, Or.inl ⟨hle, ?_⟩⟩
      exact hnone.resolve_left (by omega)

/-- **The interrupt**, whatever was armed before it. -/
theorem kernelInv_interrupt (h : KernelInv k) {r : InterruptReadings} (hr : Forward k.now r.inOrder)
    {fuel : Nat} {flag : Bool} (hordered : ∀ tl ∈ k.timelines,
      CoreOrdered k.clkglParams tl (expiredAtSome k.clkglParams tl r.cores))
    (hcaught : k.driver = .x86 → ∃ a ∈ [r.first, r.second, r.third], CaughtUp k r.cores a)
    (hk' : schedulerInterfaceInterrupt k r alive fuel = some (flag, k')) : KernelInv k' := by
  obtain ⟨hforced, hfinish, hrounds⟩ := forward_interrupt hr
  have hclock := h.clock
  obtain ⟨⟨flag', k₁⟩, hend, heq⟩ := Option.map_eq_some_iff.mp hk'
  simp only [Prod.mk.injEq] at heq
  obtain ⟨rfl, rfl⟩ := heq
  have has : ∀ a ∈ [r.first, r.second, r.third],
      a.core ∈ r.cores ∧ 1000000000 ≤ a.program.toInt := fun a ha =>
    ⟨(hrounds a ha).1, hclock.trans (hrounds a ha).2.2⟩
  obtain ⟨hdriver, hsorted, n, hn, a, ha, hres⟩ :=
    interruptRounds_spec (k := { k with armed := none }) (Eq.refl k.clkglParams)
      (wokenFrom_refl h.sorted) hordered hcaught has (by omega) (by simp) hend
  refine ⟨by simp only; omega, hsorted, ⟨n, hn⟩, ?_⟩
  have hcb : Kernel.callbackNs { k₁ with now := r.finish } = n.toInt := callbackNs_eq hn
  rw [← hdriver] at hres
  rcases hres with ⟨hle, hnone⟩ | ⟨hdue, hvar⟩
  · refine .covered a ha (by rw [hcb]; exact hle) ?_
    rw [hcb]
    exact hnone
  · exact .pending ⟨a, ha, by simp only; omega, by rw [hcb]; simp only; omega⟩

/-! ## Discipline -/

/-- The update path can do its part: the conversion keeps the order of the timeline; no release it
leaves behind comes before the interrupt, because that is early enough or because a sleeper that has
not expired sorts before it; and none of its sleepers has its chance pass while the path runs. -/
structure UpdateInTime (k : Kernel) (tl : Timeline) (r : UpdateReadings) : Prop where
  ordered : CoreOrdered k.clkglParams tl
    (expiredOnCore tl.type tl.impl k.clkglParams (tpFromNsec r.core))
  releases : ∀ u,
    Overdue (expiredOnCore tl.type tl.impl k.clkglParams (tpFromNsec r.core)) tl.events u →
    k.callbackNs ≤ (tl.coreNs k.clkglParams u.qotExpires).toInt
      ∨ ∃ f ∈ tl.events,
        ¬ expiredOnCore tl.type tl.impl k.clkglParams (tpFromNsec r.core) f.qotExpires
          ∧ f.qotExpires.rank ≤ u.qotExpires.rank
  window : ∀ u,
    Descends (expiredOnCore tl.type tl.impl k.clkglParams (tpFromNsec r.core)) tl.events u →
    r.core.toInt ≤ (tl.coreNs k.clkglParams u.qotExpires).toInt →
    (tl.coreNs k.clkglParams u.qotExpires).toInt < k.callbackNs →
    (r.lastChance k.driver).toInt < (tl.coreNs k.clkglParams u.qotExpires).toInt

/-- A discipline operation changes the core expiries of no timeline it does not update to one before
the interrupt, and the update of the one it updates can do its part. -/
structure DisciplineInTime (k : Kernel) (i : Nat) (tl : Timeline) (op : ClockOp) (reading : Int64)
    (r : UpdateReadings) : Prop where
  others : ∀ j tl', (applyDiscipline k i tl op reading).timelines[j]? = some tl' →
    (updatesScheduler tl.type op = true → j ≠ i) → ∀ t ∈ tl'.events, t.sleeperActive = true →
      k.callbackNs
        ≤ (tl'.coreNs (applyDiscipline k i tl op reading).clkglParams t.qotExpires).toInt
  update : updatesScheduler tl.type op = true → ∀ tl',
    (applyDiscipline k i tl op reading).timelines[i]? = some tl' →
      UpdateInTime (applyDiscipline k i tl op reading) tl' r

section UpdatePath

variable {k : Kernel} {tl : Timeline} {r : UpdateReadings} {alive : Int32 → Bool} {fuel : Nat}
  {d rest : List TimelineSleeper} (h : UpdateInTime k tl r) (hsorted : EventsSorted tl.events)
  (hloop : wakeLoop (fun e => expiredOnCore tl.type tl.impl k.clkglParams (tpFromNsec r.core) e)
    alive fuel [] tl.events = some (d, rest))

include h hsorted hloop

/-- What the update path leaves in the tree does not come before `x`, if the first node ahead does
not and the interrupt does not. -/
theorem updateInTime_from {x : Int} (hx : x ≤ k.callbackNs)
    (hhead : ∀ f ∈ rest.head?, x ≤ (tl.coreNs k.clkglParams f.qotExpires).toInt) :
    ∀ u ∈ d ++ rest, u.sleeperActive = true →
      x ≤ (tl.coreNs k.clkglParams u.qotExpires).toInt := by
  obtain ⟨hd, hr⟩ := wakeLoop_origin hsorted hloop
  simp only [decide_eq_true_eq, decide_eq_false_iff_not] at hd hr
  intro u hu hactive
  rcases List.mem_append.mp hu with hu | hu
  · -- a release left behind sorts before everything that has not expired
    obtain ⟨hover, hbefore⟩ := hd u hu hactive
    rcases h.releases u hover with hle | ⟨f, hf, hlate, hle⟩
    · exact hx.trans hle
    · exact absurd (hbefore f hf hlate) (not_lt.mpr hle)
  · have hrest : EventsSorted rest :=
      (List.pairwise_append.mp (wakeLoop_sorted hsorted hloop)).2.1
    cases rest with
    | nil => simp at hu
    | cons f rest =>
      refine (hhead f rfl).trans ?_
      rcases List.mem_cons.mp hu with rfl | htail
      · exact le_refl _
      · exact h.ordered f u (hr f List.mem_cons_self) (hr u hu)
          ((List.pairwise_cons.mp hrest).1 u htail)

theorem updateInTime_head
    (hlast : ∀ f ∈ rest.head?, (tl.coreNs k.clkglParams f.qotExpires).toInt < k.callbackNs →
      (tl.coreNs k.clkglParams f.qotExpires).toInt ≤ (r.lastChance k.driver).toInt) :
    ∀ f ∈ rest.head?, k.callbackNs ≤ (tl.coreNs k.clkglParams f.qotExpires).toInt := by
  intro f hf
  have hr := (wakeLoop_origin hsorted hloop).2
  simp only [decide_eq_true_eq] at hr
  have hlate := (wakeLoop_induction (I := fun _ _ => True) (fun _ _ _ _ _ _ _ _ => trivial)
    trivial hloop).2 f hf
  simp only [decide_eq_false_iff_not, expiredOnCore_iff_coreNs, not_lt] at hlate
  by_contra hearly
  have hchance := h.window f (hr f (List.mem_of_mem_head? hf)) hlate (not_le.mp hearly)
  have := hlast f hf (not_le.mp hearly)
  omega

end UpdatePath

section Discipline

variable {k : Kernel} {i : Nat} {tl tl' : Timeline} {op : ClockOp} {reading : Int64}
  {r : UpdateReadings} {alive : Int32 → Bool} {fuel : Nat} {d rest : List TimelineSleeper}
  (h : KernelInv k) (htl : k.timelines[i]? = some tl)

include h htl

theorem sorted_applyDiscipline (op : ClockOp) (reading : Int64) :
    ∀ tl' ∈ (applyDiscipline k i tl op reading).timelines, EventsSorted tl'.events := by
  intro tl' htl'
  obtain ⟨tl₀, htl₀, hevents⟩ := mem_applyDiscipline k i tl op reading htl tl' htl'
  rw [hevents]
  exact h.sorted tl₀ htl₀

omit h in
theorem not_anyActive_applyDiscipline (op : ClockOp) (reading : Int64) (hno : ¬ k.AnyActive) :
    ¬ (applyDiscipline k i tl op reading).AnyActive := by
  rintro ⟨tl', htl', t, ht, hactive⟩
  obtain ⟨tl₀, htl₀, hevents⟩ := mem_applyDiscipline k i tl op reading htl tl' htl'
  rw [hevents] at ht
  exact hno ⟨tl₀, htl₀, t, ht, hactive⟩

theorem not_anyActive_update (htl' : (applyDiscipline k i tl op reading).timelines[i]? = some tl')
    {expired : Timepoint → Bool}
    (hloop : wakeLoop expired alive fuel [] tl'.events = some (d, rest)) (hno : ¬ k.AnyActive) :
    ¬ ((applyDiscipline k i tl op reading).setEvents i tl' (d ++ rest)).AnyActive := by
  have hidle := not_anyActive_applyDiscipline htl op reading hno
  have hmem' := List.mem_of_getElem? htl'
  have hsorted' := sorted_applyDiscipline h htl op reading tl' hmem'
  refine not_anyActive_setEvents hidle fun u hu => ?_
  by_contra hactive
  -- an active node would be, or come from, one that was active before
  obtain ⟨t, ht, htactive⟩ := (wakeLoop_descends hsorted' hloop u hu
    (by simpa using hactive)).active (by simpa using hactive)
  exact hidle ⟨tl', hmem', t, ht, htactive⟩

variable (hintime : k.AnyActive → k.Pending ∨ DisciplineInTime k i tl op reading r)

include hintime

/-- An operation that does not go on to update the scheduler. -/
theorem kernelInv_remap (hup : updatesScheduler tl.type op = false) {finish : Int64}
    (hfinish : k.now.toInt ≤ finish.toInt) :
    KernelInv { applyDiscipline k i tl op reading with now := finish } := by
  have hclock := h.clock
  obtain ⟨hdriver, harmed, hnow, hcb⟩ := applyDiscipline_fields k i tl op reading
  have hsorted := sorted_applyDiscipline h htl op reading
  have hidle := not_anyActive_applyDiscipline htl op reading
  obtain ⟨n, hn⟩ := h.callback
  generalize hk₁ : applyDiscipline k i tl op reading = k₁ at *
  refine ⟨by simp only; omega, hsorted, ⟨n, hcb.trans hn⟩, ?_⟩
  refine tracks_unchanged (k := k) hdriver (by simp only; omega) h.tracks harmed hcb
    (fun _ _ hno => hidle hno) ?_
  by_cases hactive : k.AnyActive
  · rcases hintime hactive with hp | hd
    · exact Or.inl hp
    · refine Or.inr fun _ tl' htl' => ?_
      obtain ⟨j, hj⟩ := List.mem_iff_getElem?.mp htl'
      have hothers := hd.others j tl'
      rw [hk₁] at hothers
      exact hothers hj (by simp [hup])
  · exact Or.inr fun _ => noneBefore_of_idle (k := { k₁ with now := finish }) (hidle hactive) _

/-- Nothing active comes before `x` after the update, if the first node ahead does not. -/
theorem noneBefore_update (hup : updatesScheduler tl.type op = true)
    (htl' : (applyDiscipline k i tl op reading).timelines[i]? = some tl')
    (hloop : wakeLoop (fun e => expiredOnCore tl'.type tl'.impl
      (applyDiscipline k i tl op reading).clkglParams (tpFromNsec r.core) e)
      alive fuel [] tl'.events = some (d, rest)) {x : Int} (hx : x ≤ k.callbackNs)
    (hhead : DisciplineInTime k i tl op reading r → ∀ f ∈ rest.head?,
      x ≤ (tl'.coreNs (applyDiscipline k i tl op reading).clkglParams f.qotExpires).toInt) :
    k.Pending ∨ ((applyDiscipline k i tl op reading).setEvents i tl' (d ++ rest)).NoneBefore x := by
  by_cases hactive : k.AnyActive
  · rcases hintime hactive with hp | hd
    · exact Or.inl hp
    · have hsorted' := sorted_applyDiscipline h htl op reading tl' (List.mem_of_getElem? htl')
      have hcbNs := callbackNs_applyDiscipline k i tl op reading
      refine Or.inr (noneBefore_setEvents (fun j tl'' hj htl'' t ht ha => ?_) ?_)
      · exact hx.trans (hd.others j tl'' htl'' (fun _ => hj) t ht ha)
      · exact updateInTime_from (hd.update hup tl' htl') hsorted' hloop (hx.trans_eq hcbNs.symm)
          (hhead hd)
  · exact Or.inr (noneBefore_of_idle (not_anyActive_update h htl htl' hloop hactive) _)

theorem kernelInv_discipline {k' : Kernel} (hr : Forward k.now r.inOrder)
    (hk' : discipline k i op reading r alive fuel = some k') : KernelInv k' := by
  obtain ⟨hcore, hsecond, hprogram, hfinish⟩ := forward_update hr
  have hclock := h.clock
  obtain ⟨hdriver, harmed, hnow, hcb⟩ := applyDiscipline_fields k i tl op reading
  have hcbNs := callbackNs_applyDiscipline k i tl op reading
  obtain ⟨n, hn⟩ := h.callback
  rw [discipline, htl, Option.bind_some] at hk'
  cases hup : updatesScheduler tl.type op with
  | false =>
    simp only [hup, Bool.false_eq_true, if_false] at hk'
    cases hk'
    exact kernelInv_remap h htl hintime hup (by omega)
  | true =>
    simp only [hup, if_true] at hk'
    obtain ⟨tl', htl', hk'⟩ := Option.bind_eq_some_iff.mp hk'
    obtain ⟨k₂, hupdate, rfl⟩ := Option.map_eq_some_iff.mp hk'
    have hsorted := sorted_applyDiscipline h htl op reading
    have hsorted' := hsorted tl' (List.mem_of_getElem? htl')
    obtain ⟨d, rest, hloop, hcases⟩ :=
      qotSchedulerUpdate_cases (hcb.trans hn) (by omega) hprogram hupdate
    have hsorted₂ := sorted_setEvents i tl' hsorted (wakeLoop_sorted hsorted' hloop)
    have hidle₂ := not_anyActive_update h htl htl' hloop
    have hnone := fun x => noneBefore_update (x := x) h htl hintime hup htl' hloop
    have hupd := fun hd : DisciplineInTime k i tl op reading r => hd.update hup tl' htl'
    generalize applyDiscipline k i tl op reading = k₁ at *
    rcases hcases with ⟨rfl, hlast⟩ | ⟨f, hf, a, rfl, hlt, hbound⟩
    · -- nothing is programmed: the first node ahead does not come before the interrupt
      refine ⟨by simp only; omega, hsorted₂, ⟨n, hcb.trans hn⟩, ?_⟩
      refine tracks_unchanged (k := k) hdriver (by simp only; omega) h.tracks harmed hcb
        (fun _ _ hno => hidle₂ hno) ((hnone _ le_rfl fun hd f hf => ?_).imp_right fun h _ => h)
      exact hcbNs.symm.trans_le (updateInTime_head (hupd hd) hsorted' hloop hlast f hf)
    · rw [hcbNs] at hlt
      generalize hx : tl'.coreNs k₁.clkglParams f.qotExpires = x at hlt hbound ⊢
      refine ⟨by simp only; omega, hsorted₂, ⟨x, rfl⟩, ?_⟩
      refine tracks_programmed (k := k) hdriver (by simp only; omega) rfl rfl hlt ?_
        ((hnone _ hlt.le fun _ g hg => ?_).imp_right
          (noneBefore_congr (k := k₁.setEvents i tl' (d ++ rest)) rfl rfl))
      · refine hbound.imp_right fun hdue => ?_
        simp only [Kernel.setEvents]
        omega
      · rw [Option.mem_unique hg hf, hx]

end Discipline

/-! ## Runs -/

inductive SchedOp where
  | sleep (i addr : Nat) (pid : Int32) (expires : Timepoint) (r : StartReadings)
  | resume (i addr : Nat) (coreTimeExpiry : Int64) (r : StartReadings)
  | createTimer (i addr : Nat) (pid : Int32) (timer : QotTimer) (core : Int64) (r : StartReadings)
  | interrupt (r : InterruptReadings) (alive : Int32 → Bool) (fuel : Nat)
  | discipline (i : Nat) (op : ClockOp) (reading : Int64) (r : UpdateReadings)
      (alive : Int32 → Bool) (fuel : Nat)

def schedStep (k : Kernel) : SchedOp → Option Kernel
  | .sleep i addr pid expires r => qotAttosleep k i addr pid expires r
  | .resume i addr coreTimeExpiry r => (qotAttosleepResume k i addr coreTimeExpiry r).map (·.2)
  | .createTimer i addr pid timer core r => qotTimerCreate k i addr pid timer core r
  | .interrupt r alive fuel => (schedulerInterfaceInterrupt k r alive fuel).map (·.2)
  | .discipline i op reading r alive fuel => discipline k i op reading r alive fuel

/-- The core clock readings of a step, in the order in which they are made. -/
def SchedOp.readings : SchedOp → List Int64
  | .sleep _ _ _ _ r => r.inOrder
  | .resume _ _ _ r => r.inOrder
  | .createTimer _ _ _ _ core r => core :: r.inOrder
  | .interrupt r _ _ => r.inOrder
  | .discipline _ _ _ r _ _ => r.inOrder

/-- What the paths do not ensure by themselves: the first expiry ever armed comes before
`maxTimepoint`; the interrupt finds the conversion to core time in order and, on x86, one of its
rounds catches up; and a discipline operation, unless nothing is active or the interrupt is due, is
in time. -/
def InTime (k : Kernel) : SchedOp → Prop
  | .sleep i _ _ expires _ => ∀ tl, k.timelines[i]? = some tl → k.armed = none →
      timepointCmp (tl.core k.clkglParams expires) maxTimepoint > 0
  | .resume _ _ _ _ => True
  | .createTimer i addr pid timer core _ => ∀ tl s, k.timelines[i]? = some tl →
      qotInitTimerSleeper addr pid timer
        (qotCoreToRemote tl.type tl.impl k.clkglParams (tpFromNsec core)) = some s →
      k.armed = none → timepointCmp (tl.core k.clkglParams s.qotExpires) maxTimepoint > 0
  | .interrupt r _ _ =>
      (∀ tl ∈ k.timelines, CoreOrdered k.clkglParams tl (expiredAtSome k.clkglParams tl r.cores))
        ∧ (k.driver = .x86 → ∃ a ∈ [r.first, r.second, r.third], CaughtUp k r.cores a)
  | .discipline i op reading r _ _ => ∀ tl, k.timelines[i]? = some tl → k.AnyActive →
      k.Pending ∨ DisciplineInTime k i tl op reading r

theorem startSleeper_driver (k : Kernel) (i : Nat) (tl : Timeline) (s : TimelineSleeper)
    (r : StartReadings) : (startSleeper k i tl s r).driver = k.driver := by
  have hdriver := (qotSleeperStartExpires_frame
    (k.setEvents i tl (qotTimelineEventAdd tl.events s)) true (tl.core k.clkglParams s.qotExpires)
    r).2.2.1
  rw [startSleeper]
  split
  · exact hdriver
  · exact hdriver

/-- No step changes the driver. -/
theorem schedStep_driver {op : SchedOp} (hk' : schedStep k op = some k') :
    k'.driver = k.driver := by
  cases op with
  | sleep i addr pid expires r =>
    obtain ⟨tl, htl, hk'⟩ := Option.bind_eq_some_iff.mp hk'
    split at hk' <;> cases hk'
    exact startSleeper_driver k i tl _ r
  | resume i addr x r =>
    obtain ⟨⟨left, k₁⟩, hres, rfl⟩ := Option.map_eq_some_iff.mp hk'
    obtain ⟨tl, -, t, -, -, ⟨-, rfl, -⟩ | ⟨-, -, rfl⟩⟩ := qotAttosleepResume_cases hres
    · rfl
    · exact (qotSleeperStartExpires_frame k t.sleeperActive (tpFromNsec x) r).2.2.1
  | createTimer i addr pid timer core r => exact (qotTimerCreate_frame hk').1
  | interrupt r alive fuel =>
    obtain ⟨⟨flag, k₁⟩, hint, rfl⟩ := Option.map_eq_some_iff.mp hk'
    obtain ⟨⟨flag', k₂⟩, hrounds, heq⟩ := Option.map_eq_some_iff.mp hint
    cases heq
    exact (interruptRounds_induction (k := { k with armed := none }) (Q := fun _ => True)
      (fun _ _ _ _ _ _ => trivial) trivial hrounds).2
  | discipline i op reading r alive fuel =>
    obtain ⟨-, tl, -, hdriver, -⟩ := discipline_frame hk'
    exact hdriver.trans (applyDiscipline_fields k i tl op reading).1

theorem kernelInv_step {op : SchedOp} (h : KernelInv k)
    (hop : Forward k.now op.readings ∧ InTime k op) (hk' : schedStep k op = some k') :
    KernelInv k' := by
  obtain ⟨hr, hin⟩ := hop
  cases op with
  | sleep i addr pid expires r =>
    obtain ⟨tl, htl, hk'⟩ := Option.bind_eq_some_iff.mp hk'
    split at hk'
    · cases hk'
    · next haddr =>
      cases hk'
      exact kernelInv_startSleeper h htl hr haddr (hin tl htl)
  | resume i addr x r =>
    obtain ⟨⟨left, k₁⟩, hres, rfl⟩ := Option.map_eq_some_iff.mp hk'
    exact kernelInv_resume h hr hres
  | createTimer i addr pid timer core r =>
    obtain ⟨tl, htl, hk'⟩ := Option.bind_eq_some_iff.mp hk'
    split at hk'
    · cases hk'
    · next haddr =>
      obtain ⟨s, hs, rfl⟩ := Option.map_eq_some_iff.mp hk'
      rw [← (qotInitTimerSleeper_fields hs).1] at haddr
      exact kernelInv_startSleeper h htl (forward_of_cons hr) haddr (hin tl s htl hs)
  | interrupt r alive fuel =>
    obtain ⟨⟨flag, k₁⟩, hint, rfl⟩ := Option.map_eq_some_iff.mp hk'
    exact kernelInv_interrupt h hr hin.1 hin.2 hint
  | discipline i op reading r alive fuel =>
    obtain ⟨tl, htl, -⟩ := Option.bind_eq_some_iff.mp hk'
    exact kernelInv_discipline h htl (hin tl htl) hr hk'

/-- The scheduler as the module leaves it at load time: nothing queued, nothing armed; the core
clock is past its first second. -/
structure Kernel.Unused (k : Kernel) : Prop where
  empty : ∀ tl ∈ k.timelines, tl.events = []
  unarmed : k.armed = none
  callback : k.nextInterruptCallback = maxTimepoint
  clock : 1000000000 ≤ k.now.toInt

theorem kernelInv_unused (h : k.Unused) : KernelInv k := by
  refine ⟨h.clock, fun tl htl => ?_, ⟨maxNs, h.callback.trans maxTimepoint_eq⟩,
    .idle h.unarmed h.callback ?_⟩
  · rw [h.empty tl htl]
    exact List.Pairwise.nil
  · rintro ⟨tl, htl, t, ht, -⟩
    rw [h.empty tl htl] at ht
    cases ht

/-- **No wake-up is lost** in any run, from the unused scheduler, in which the core clock never goes
back and every step is in time: the interrupt is armed in time up to the lateness of the driver,
which x86 does not have. -/
theorem armed_in_time (k : Kernel) (hk : k.Unused) (ops : List SchedOp)
    (hops : Runs.AllSteps schedStep (fun k op => Forward k.now op.readings ∧ InTime k op) k ops) :
    Runs.AllStates schedStep
      (fun k' => k'.driver = k.driver ∧ ArmedWithin k.driver.lateness k') k ops := by
  refine Runs.allStates_of_inv (J := fun k' => KernelInv k' ∧ k'.driver = k.driver)
    (fun k' h => ⟨h.2, h.2 ▸ armedWithin_of_tracks h.1.tracks⟩) (fun k₁ op k₂ h hop hk₂ => ?_)
    ⟨kernelInv_unused hk, rfl⟩ hops
  exact ⟨kernelInv_step h.1 hop hk₂, (schedStep_driver hk₂).trans h.2⟩

/-- A local and a global timeline that read core time. -/
def freshKernel (driver : Driver) : Kernel :=
  idleKernel driver
    [⟨.qotTimelineLocal, initTranslation, []⟩, ⟨.qotTimelineGlobal, initTranslation, []⟩]

theorem freshKernel_unused (driver : Driver) : (freshKernel driver).Unused :=
  ⟨by simp [freshKernel, idleKernel], rfl, rfl, le_refl (1000000000 : Int64).toInt⟩

def tenTimer : TimelineSleeper where
  addr := 1
  task := true
  pid := 7
  sleeperActive := true
  qotExpires := ⟨10, 0⟩
  periodicTimerFlag := true
  timer := ⟨⟨10, 0⟩, ⟨5, 0⟩, 0⟩
  timerCounts := 1

def twentySleeper : TimelineSleeper := qotInitSleeper 2 8 ⟨20, 0⟩

def shiftedTimeline (delta : Int64) (events : List TimelineSleeper) : Timeline :=
  ⟨.qotTimelineLocal, adjtime initTranslation 0 delta, events⟩

def shiftedKernel (delta : Int64) (events : List TimelineSleeper) (armed now : Int64) : Kernel :=
  { freshKernel .x86 with
    timelines := [shiftedTimeline delta events, ⟨.qotTimelineGlobal, initTranslation, []⟩]
    nextInterruptCallback := tpFromNsec armed
    armed := some armed.toInt
    now := now }

/-- The timer and the task are queued on the local timeline; the interrupt comes at ten seconds; a
second later the timeline is shifted by one second. -/
def shiftedOps : List SchedOp :=
  [.createTimer 0 1 7 tenTimer.timer 1000000000 ⟨1000000000, 1000000000, 1000000000⟩,
    .sleep 0 2 8 ⟨20, 0⟩ ⟨2000000000, 2000000000, 2000000000⟩,
    .interrupt ⟨⟨10000000001, 10000000002⟩, ⟨10000000003, 10000000003⟩, ⟨10000000003, 10000000003⟩,
      10000000003, 10000000003⟩ (fun _ => true) 5,
    .discipline 0 (.adjtime 1000000000) 11000000000
      ⟨11000000000, 11000000000, 11000000000, 11000000000⟩ (fun _ => true) 5]

def queuedKernel : Kernel := shiftedKernel 0 [tenTimer, twentySleeper] 10000000000 2000000000

/-- The interrupt at ten seconds reaches the next release of the timer, and no more. -/
theorem shiftedOps_reached (tl : Timeline) (htl : tl ∈ queuedKernel.timelines) (u : TimelineSleeper)
    (hu : Descends (expiredAtSome initTranslation tl [10000000001, 10000000003, 10000000003])
      tl.events u) :
    tl = shiftedTimeline 0 [tenTimer, twentySleeper]
      ∧ u ∈ [tenTimer, tenTimer.nextRelease, twentySleeper] := by
  simp only [queuedKernel, shiftedKernel, List.mem_cons, List.not_mem_nil, or_false] at htl
  rcases htl with rfl | rfl
  · exact ⟨rfl, hu.mem_of_closed _ (by decide) (by decide)⟩
  · exact absurd (hu.mem_of_closed [] (by decide) (by decide)) List.not_mem_nil

theorem shiftedOps_interrupt : ∀ tl ∈ queuedKernel.timelines, CoreOrdered initTranslation tl
    (expiredAtSome initTranslation tl [10000000001, 10000000003, 10000000003]) := by
  intro tl htl u v hu hv
  obtain ⟨rfl, hmem⟩ := shiftedOps_reached tl htl u hu
  obtain ⟨-, hmem'⟩ := shiftedOps_reached _ htl v hv
  clear hu hv
  revert v
  revert u
  decide

/-- It catches up at once. -/
theorem shiftedOps_caughtUp : CaughtUp queuedKernel [10000000001, 10000000003, 10000000003]
    ⟨10000000001, 10000000002⟩ := by
  refine ⟨by decide, fun tl htl u hu hactive => ?_, fun tl htl t ht hper => ?_⟩
  · obtain ⟨rfl, hmem⟩ := shiftedOps_reached tl htl u hu
    clear hu hactive
    revert u
    decide
  · obtain ⟨rfl, hmem⟩ := shiftedOps_reached tl htl t ht
    clear ht hper
    revert t
    decide

theorem shiftedOps_update :
    UpdateInTime
      (shiftedKernel 1000000000 [tenTimer.nextRelease, twentySleeper] 15000000000 10000000003)
      (shiftedTimeline 1000000000 [tenTimer.nextRelease, twentySleeper])
      ⟨11000000000, 11000000000, 11000000000, 11000000000⟩ := by
  have hlate : ∀ t ∈ [tenTimer.nextRelease, twentySleeper], (11000000000 : Int64).toInt
      < ((shiftedTimeline 1000000000 [tenTimer.nextRelease, twentySleeper]).coreNs
        initTranslation t.qotExpires).toInt := by decide
  refine ⟨coreOrdered_of_closed [tenTimer.nextRelease, twentySleeper] (by decide) (by decide)
    (by decide), fun u hu => ?_, fun u hu _ _ => ?_⟩
  · obtain ⟨t, ht, -, hexp, -⟩ := hu
    have hmem := ht.mem_of_closed [tenTimer.nextRelease, twentySleeper] (by decide) (by decide)
    rw [expiredOnCore_iff_coreNs] at hexp
    exact absurd hexp (not_lt.mpr (hlate t hmem).le)
  · exact hlate u (hu.mem_of_closed [tenTimer.nextRelease, twentySleeper] (by decide) (by decide))

theorem shiftedOps_inTime : Runs.AllSteps schedStep
    (fun k op => Forward k.now op.readings ∧ InTime k op) (freshKernel .x86) shiftedOps := by
  refine Runs.allSteps_cons (shiftedKernel 0 [tenTimer] 10000000000 1000000000) (by decide)
    ⟨by decide, ?_⟩ ?_
  · intro tl s htl hs _
    cases htl
    obtain rfl : s = tenTimer := Option.some.inj (hs.symm.trans (by decide))
    decide
  refine Runs.allSteps_cons queuedKernel (by decide) ⟨by decide, ?_⟩ ?_
  · intro tl _ hunarmed
    cases hunarmed
  refine Runs.allSteps_cons
    (shiftedKernel 0 [tenTimer.nextRelease, twentySleeper] 15000000000 10000000003) (by decide)
    ⟨by decide, shiftedOps_interrupt, fun _ => ⟨_, List.mem_cons_self, shiftedOps_caughtUp⟩⟩ ?_
  refine ⟨⟨by decide, fun tl htl _ => Or.inr ?_⟩, fun _ _ => trivial⟩
  cases htl
  refine ⟨fun j tl' hj hne => ?_, fun _ tl' htl' => ?_⟩
  · match j with
    | 0 => exact absurd rfl (hne rfl)
    | 1 =>
      cases hj
      intro t ht
      cases ht
    | j + 2 => cases hj
  · cases htl'
    exact shiftedOps_update

/-- The scheduler timer of a board with an oscillator of 24 MHz. -/
def oscTimer : SchedTimer := ⟨oscDevice, 24000000, oscRate_pos, oscDevice_configured⟩

/-- A task sleeps until eleven seconds, ten from now. -/
def elevenOps : List SchedOp := [.sleep 0 1 7 ⟨11, 0⟩ ⟨1000000000, 1000000000, 1000000000⟩]

theorem elevenOps_inTime : Runs.AllSteps schedStep
    (fun k op => Forward k.now op.readings ∧ InTime k op) (freshKernel (.am335x oscTimer))
    elevenOps := by
  refine ⟨⟨by decide, fun tl htl _ => ?_⟩, fun _ _ => trivial⟩
  cases htl
  decide

theorem armed_in_time_shiftedOps :
    (Runs.AllStates schedStep (fun k => k.driver = .x86 ∧ ArmedWithin 0 k)
      (freshKernel .x86) shiftedOps
        ∧ (Runs.exec schedStep (freshKernel .x86) shiftedOps).map (·.armed)
          = some (some 14000000000))
      ∧ Runs.AllStates schedStep
          (fun k => k.driver = .am335x oscTimer ∧ ArmedWithin oscTimer.lateness k)
          (freshKernel (.am335x oscTimer)) elevenOps :=
  ⟨⟨armed_in_time (freshKernel .x86) (freshKernel_unused .x86) shiftedOps shiftedOps_inTime,
      by decide⟩,
    armed_in_time (freshKernel (.am335x oscTimer)) (freshKernel_unused _) elevenOps
      elevenOps_inTime⟩

/-- **The interrupt is left where it was.** A task sleeps on the global timeline until a hundred
seconds; setting the global clock ahead makes that core time twelve seconds, and the interrupt stays
armed for a hundred. On x86 the interrupt itself can end with nothing armed: three times the next
release of a timer has passed when the driver reads its clock, and the forced attempt is refused as
well. On the am335x a single sleeper of ten seconds is armed for 125 nanoseconds after its expiry:
two cycles of rounding, and the one in which the counter overflows. -/
theorem armed_in_time_lost :
    (∃ k, Runs.exec schedStep (freshKernel .x86)
        [.sleep 1 1 7 ⟨100, 0⟩ ⟨1000000000, 1000000000, 1000000000⟩,
          .discipline 1 (.settime ⟨90, 0⟩) 2000000000
            ⟨2000000000, 2000000000, 2000000000, 2000000000⟩ (fun _ => true) 5] = some k
      ∧ k.armed = some 100000000000 ∧ ¬ ArmedWithin 0 k)
    ∧ (∃ k, Runs.exec schedStep (freshKernel .x86)
        [.createTimer 0 1 7 ⟨⟨10, 0⟩, ⟨0, 100000000000000000⟩, 0⟩ 1000000000
            ⟨1000000000, 1000000000, 1000000000⟩,
          .interrupt ⟨⟨10050000000, 10200000000⟩, ⟨10200000000, 10300000000⟩,
            ⟨10300000000, 10400000000⟩, 10400000000, 10400000000⟩ (fun _ => true) 5] = some k
      ∧ k.armed = none ∧ ¬ ArmedWithin 0 k)
    ∧ ∃ k, Runs.exec schedStep (freshKernel (.am335x oscTimer)) elevenOps = some k
      ∧ k.armed = some 11000000125 ∧ ¬ ArmedWithin 0 k :=
  ⟨Runs.exists_exec (by decide), Runs.exists_exec (by decide), Runs.exists_exec (by decide)⟩

end Qot
