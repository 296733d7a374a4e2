import QotStack.Lib.Runs
import QotStack.Scheduler.Kernel

/-!
# QotStack — a wait does not return early

`qot_attosleep` queues its node, converts the expiry to core time once, and goes round a loop until
the node's task pointer is cleared: by the interrupt (timeline-domain test), by the update path
(core-domain test), or by itself when its expiry fails to start. Here the three stages are separate
steps, so that other sleepers, interrupts, discipline operations and spurious wake-ups come between
them in any order; every return is logged with the timeline time at that moment.

The invariant says of each wait from when on it may return: `Late` at a core time means that the
timeline has reached the expiry there, up to the minimum delta of the driver. A wait that was woken
is late already, and one that is not is late from its stored core expiry (less the delta) on.
-/

namespace Qot

open MachineInt

/-- A call of `qot_attosleep` in progress: its timeline and node, the expiry asked for, and the core
expiry once computed. -/
structure Wait where
  timeline : Nat
  addr : Nat
  expires : Timepoint
  coreTimeExpiry : Option Int64
  deriving DecidableEq, Repr

structure WaitExit where
  type : QotTimelineType
  expires : Timepoint
  timelineTime : Timepoint
  deriving DecidableEq, Repr

structure WaitState where
  kernel : Kernel
  waits : List Wait
  exits : List WaitExit
  deriving DecidableEq

/-- The steps of a run. `enqueue`, `project` and `round` are the stages of `qot_attosleep`; a
`round` comes whenever the task runs, for whatever reason. -/
inductive WaitOp where
  | enqueue (i addr : Nat) (pid : Int32) (expires : Timepoint) (finish : Int64)
  | project (i addr : Nat) (finish : Int64)
  | round (i addr : Nat) (r : StartReadings)
  | createTimer (i addr : Nat) (pid : Int32) (timer : QotTimer) (core : Int64) (r : StartReadings)
  | interrupt (r : InterruptReadings) (alive : Int32 → Bool) (fuel : Nat)
  | discipline (i : Nat) (op : ClockOp) (reading : Int64) (r : UpdateReadings)
      (alive : Int32 → Bool) (fuel : Nat)

def Wait.project (w : Wait) (tl : Timeline) (clkglParams : TlTranslation) : Wait :=
  { w with coreTimeExpiry := w.coreTimeExpiry.or (some (tl.coreNs clkglParams w.expires)) }

def Wait.isAt (w : Wait) (i addr : Nat) : Bool := w.timeline = i ∧ w.addr = addr

def waitStep (s : WaitState) : WaitOp → Option WaitState
  | .enqueue i addr pid expires finish =>
    s.kernel.timelines[i]?.bind fun tl =>
      if addr ∈ addrs tl.events then none
      else
        let events := qotTimelineEventAdd tl.events (qotInitSleeper addr pid expires)
        some { s with
          kernel := { s.kernel.setEvents i tl events with now := finish }
          waits := ⟨i, addr, expires, none⟩ :: s.waits }
  | .project i addr finish =>
    s.kernel.timelines[i]?.map fun tl =>
      { s with
        kernel := { s.kernel with now := finish }
        waits := s.waits.map fun w =>
          if w.isAt i addr then w.project tl s.kernel.clkglParams else w }
  | .round i addr r =>
    (s.waits.find? fun w => w.isAt i addr).bind fun w =>
      w.coreTimeExpiry.bind fun coreTimeExpiry =>
        s.kernel.timelines[i]?.bind fun tl =>
          (qotAttosleepResume s.kernel i addr coreTimeExpiry r).map fun result =>
            if result.1 then
              -- the reading on the way out is through the mapping of the moment
              { kernel := result.2
                waits := s.waits.filter fun w => !w.isAt i addr
                exits := ⟨tl.type, w.expires, qotCoreToRemote tl.type tl.impl
                  s.kernel.clkglParams (tpFromNsec r.finish)⟩ :: s.exits }
            else { s with kernel := result.2 }
  | .createTimer i addr pid timer core r =>
    (qotTimerCreate s.kernel i addr pid timer core r).map fun k => { s with kernel := k }
  | .interrupt r alive fuel =>
    (schedulerInterfaceInterrupt s.kernel r alive fuel).map fun result =>
      { s with kernel := result.2 }
  | .discipline i op reading r alive fuel =>
    (discipline s.kernel i op reading r alive fuel).map fun k => { s with kernel := k }

def WaitOp.readings : WaitOp → List Int64
  | .enqueue _ _ _ _ finish => [finish]
  | .project _ _ finish => [finish]
  | .round _ _ r => r.inOrder
  | .createTimer _ _ _ _ core r => core :: r.inOrder
  | .interrupt r _ _ => r.inOrder
  | .discipline _ _ _ r _ _ => r.inOrder

/-- **The property**: no wait on a local timeline has returned with its expiry more than the minimum
delta ahead. -/
abbrev NotEarly (s : WaitState) : Prop :=
  ∀ x ∈ s.exits, x.type = .qotTimelineLocal →
    x.expires.value ≤ x.timelineTime.value + s.kernel.driver.minDelta * 1000000000

/-! ## Late enough -/

/-- At core time `t` the timeline has reached the expiry, up to `slack` nanoseconds. -/
abbrev Late (m : TlTranslation) (slack t : Int) (e : Timepoint) : Prop :=
  e.value ≤ (m.reading t + slack) * 1000000000

variable {slack : Int} {alive : Int32 → Bool} {fuel i : Nat} {op : ClockOp} {reading : Int64}
  {s s' : WaitState}

theorem late_mono {m : TlTranslation} (hrate : -1000000000 < m.mult.toInt) {t t' : Int}
    {e : Timepoint} (h : Late m slack t e) (hle : t ≤ t') : Late m slack t' e := by
  have hmono := reading_mono hrate hle
  omega

theorem late_of_expiredOnTimeline {m clkglParams : TlTranslation} {c : Int64} {e : Timepoint}
    (hslack : 0 ≤ slack) (hfits : Loc2remFits m c.toInt) (he : e.Normalised)
    (h : expiredOnTimeline .qotTimelineLocal m clkglParams (tpFromNsec c) e) :
    Late m slack c.toInt e := by
  have hfits' : Loc2remFits (mappingInForce .qotTimelineLocal m clkglParams) c.toInt := hfits
  obtain ⟨-, hval⟩ := qotCoreToRemote_reading rfl hfits'
  have hnorm : (qotCoreToRemote .qotTimelineLocal m clkglParams (tpFromNsec c)).Normalised := by
    rw [qotCoreToRemote_eq]
    exact tpFromNsec_normalised _
  rw [expiredOnTimeline, timepointCmp_pos, Timepoint.rank_lt_iff_value_lt he hnorm, hval] at h
  have hread : (mappingInForce .qotTimelineLocal m clkglParams).reading c.toInt
      = m.reading c.toInt := rfl
  omega

/-- What is known of a wait at core time `now`. -/
structure Sleeps (tl : Timeline) (slack now : Int) (w : Wait) : Prop where
  normalised : w.expires.Normalised
  node : ∃ t ∈ tl.events, t.addr = w.addr ∧ t.periodicTimerFlag = false
    ∧ t.qotExpires = w.expires ∧ (t.task = false → Late tl.impl slack now w.expires)
  start : ∀ x, w.coreTimeExpiry = some x → Late tl.impl slack (max now (x.toInt - slack)) w.expires

section Sleeps

variable {tl : Timeline} {slack now : Int} {w : Wait} (h : Sleeps tl slack now w)

include h

theorem sleeps_later (hrate : -1000000000 < tl.impl.mult.toInt) {now' : Int} (hle : now ≤ now') :
    Sleeps tl slack now' w := by
  obtain ⟨t, ht, haddr, hper, hexp, hwoken⟩ := h.node
  refine ⟨h.normalised, ⟨t, ht, haddr, hper, hexp, fun htask => ?_⟩, fun x hx => ?_⟩
  · exact late_mono hrate (hwoken htask) hle
  · exact late_mono hrate (h.start x hx) (by omega)

theorem sleeps_of_subset {events : List TimelineSleeper}
    (hsub : ∀ t ∈ tl.events, t.addr = w.addr → t ∈ events) :
    Sleeps { tl with events := events } slack now w := by
  obtain ⟨t, ht, haddr, hrest⟩ := h.node
  exact ⟨h.normalised, ⟨t, hsub t ht haddr, haddr, hrest⟩, h.start⟩

/-- A wake-up loop passes over the timeline, by a test that expires only what is late. -/
theorem sleeps_wake {expired : Timepoint → Bool} {alive : Int32 → Bool} {fuel : Nat}
    {d r : List TimelineSleeper} (hloop : wakeLoop expired alive fuel [] tl.events = some (d, r))
    (hlate : expired w.expires = true → Late tl.impl slack now w.expires) :
    Sleeps { tl with events := d ++ r } slack now w := by
  obtain ⟨t, ht, haddr, hper, hexp, hwoken⟩ := h.node
  refine ⟨h.normalised, ?_, h.start⟩
  rcases wakeLoop_blocked hloop t ht hper with hmem | ⟨hpast, hmem⟩
  · exact ⟨t, hmem, haddr, hper, hexp, hwoken⟩
  · exact ⟨t.woken, hmem, haddr, hper, hexp, fun _ => hlate (hexp ▸ hpast)⟩

/-- The timeline is disciplined, and not back. -/
theorem sleeps_discipline {m : TlTranslation}
    (hback : ∀ t, now ≤ t → tl.impl.reading t ≤ m.reading t) :
    Sleeps { tl with impl := m } slack now w := by
  have hlate : ∀ t, now ≤ t → Late tl.impl slack t w.expires → Late m slack t w.expires := by
    intro t ht hl
    have := hback t ht
    omega
  obtain ⟨t, ht, haddr, hper, hexp, hwoken⟩ := h.node
  refine ⟨h.normalised, ⟨t, ht, haddr, hper, hexp, fun htask => ?_⟩, fun x hx => ?_⟩
  · exact hlate now le_rfl (hwoken htask)
  · exact hlate _ (le_max_left _ _) (h.start x hx)

end Sleeps

/-! ## All waits -/

structure TimelinesInv (tls : List Timeline) (waits : List Wait) (slack now : Int) : Prop where
  rates : ∀ tl ∈ tls, tl.type = .qotTimelineLocal → -1000000000 < tl.impl.mult.toInt
  nodup : ∀ tl ∈ tls, (addrs tl.events).Nodup
  sleeps : ∀ w ∈ waits, ∀ tl, tls[w.timeline]? = some tl → tl.type = .qotTimelineLocal →
    Sleeps tl slack now w

section Timelines

variable {tls : List Timeline} {waits : List Wait} {slack now : Int}
  (h : TimelinesInv tls waits slack now)

include h

theorem timelinesInv_later {now' : Int} (hle : now ≤ now') : TimelinesInv tls waits slack now' :=
  ⟨h.rates, h.nodup, fun w hw tl htl hlocal => sleeps_later (h.sleeps w hw tl htl hlocal)
    (h.rates tl (List.mem_of_getElem? htl) hlocal) hle⟩

theorem timelinesInv_set {waits' : List Wait} {i : Nat} {tl' : Timeline}
    (hrate : tl'.type = .qotTimelineLocal → -1000000000 < tl'.impl.mult.toInt)
    (hnodup : (addrs tl'.events).Nodup) (hsub : ∀ w ∈ waits', w.timeline ≠ i → w ∈ waits)
    (hsleeps : ∀ w ∈ waits', w.timeline = i → tl'.type = .qotTimelineLocal →
      Sleeps tl' slack now w) : TimelinesInv (tls.set i tl') waits' slack now := by
  refine ⟨fun tl htl => ?_, fun tl htl => ?_, fun w hw tl htl hlocal => ?_⟩
  · rcases List.mem_or_eq_of_mem_set htl with hmem | rfl
    · exact h.rates tl hmem
    · exact hrate
  · rcases List.mem_or_eq_of_mem_set htl with hmem | rfl
    · exact h.nodup tl hmem
    · exact hnodup
  · rw [List.getElem?_set] at htl
    split at htl
    · next heq =>
      split at htl
      · cases htl
        exact hsleeps w hw heq.symm hlocal
      · cases htl
    · next hne => exact h.sleeps w (hsub w hw (Ne.symm hne)) tl htl hlocal

end Timelines

theorem addrs_nodup_add {events : List TimelineSleeper} (h : (addrs events).Nodup)
    {s : TimelineSleeper} (hs : s.addr ∉ addrs events) :
    (addrs (qotTimelineEventAdd events s)).Nodup :=
  (addrs_eventAdd_perm events s).nodup_iff.mpr (List.nodup_cons.mpr ⟨hs, h⟩)

theorem addrs_nodup_wake {expired : Timepoint → Bool} {events d r : List TimelineSleeper}
    (h : (addrs events).Nodup) (hloop : wakeLoop expired alive fuel [] events = some (d, r)) :
    (addrs (d ++ r)).Nodup := by
  obtain ⟨l, hperm, hsub⟩ := wakeLoop_addrs hloop
  exact hperm.nodup_iff.mpr (h.sublist hsub)

/-! ## The steps -/

section Steps

variable {tls : List Timeline} {waits : List Wait} {slack now : Int}
  (h : TimelinesInv tls waits slack now) {i : Nat} {tl : Timeline} (htl : tls[i]? = some tl)

include h htl

theorem timelinesInv_createTimer {s : TimelineSleeper} (haddr : s.addr ∉ addrs tl.events) :
    TimelinesInv (tls.set i { tl with events := qotTimelineEventAdd tl.events s }) waits slack
      now := by
  have hmem := List.mem_of_getElem? htl
  refine timelinesInv_set h (h.rates tl hmem) (addrs_nodup_add (h.nodup tl hmem) haddr)
    (fun w hw _ => hw) (fun w hw heq hlocal => ?_)
  subst heq
  exact sleeps_of_subset (h.sleeps w hw tl htl hlocal) fun t ht _ => by simp [ht]

theorem timelinesInv_enqueue {addr : Nat} (haddr : addr ∉ addrs tl.events) (pid : Int32)
    {expires : Timepoint} (he : expires.Normalised) :
    TimelinesInv (tls.set i
        { tl with events := qotTimelineEventAdd tl.events (qotInitSleeper addr pid expires) })
      (⟨i, addr, expires, none⟩ :: waits) slack now := by
  have hadded := timelinesInv_createTimer (s := qotInitSleeper addr pid expires) h htl haddr
  refine ⟨hadded.rates, hadded.nodup, fun w hw tl' htl' hlocal => ?_⟩
  rcases List.mem_cons.mp hw with rfl | hw
  · -- the new node is not woken, and its core expiry not computed
    rw [List.getElem?_set_self (List.getElem?_eq_some_iff.mp htl).1] at htl'
    cases htl'
    exact ⟨he, ⟨qotInitSleeper addr pid expires, by simp, rfl, rfl, rfl, nofun⟩, nofun⟩
  · exact hadded.sleeps w hw tl' htl' hlocal

theorem timelinesInv_leave (addr : Nat) :
    TimelinesInv (tls.set i { tl with events := eventErase tl.events addr })
      (waits.filter fun w => !w.isAt i addr) slack now := by
  have hmem := List.mem_of_getElem? htl
  refine timelinesInv_set h (h.rates tl hmem) (addrs_nodup_eventErase (h.nodup tl hmem) addr)
    (fun w hw _ => (List.mem_filter.mp hw).1) (fun w hw heq hlocal => ?_)
  obtain ⟨hold, hother⟩ := List.mem_filter.mp hw
  have hne : w.addr ≠ addr := by simpa [Wait.isAt, heq] using hother
  subst heq
  refine sleeps_of_subset (h.sleeps w hold tl htl hlocal) fun t ht haddr => ?_
  exact mem_eventErase.mpr ⟨ht, haddr ▸ hne⟩

theorem timelinesInv_project {addr : Nat} {clkglParams : TlTranslation}
    (hlate : tl.type = .qotTimelineLocal → ∀ w ∈ waits, w.isAt i addr = true →
      w.coreTimeExpiry = none →
        Late tl.impl slack ((tl.coreNs clkglParams w.expires).toInt - slack) w.expires) :
    TimelinesInv tls (waits.map fun w => if w.isAt i addr then w.project tl clkglParams else w)
      slack now := by
  refine ⟨h.rates, h.nodup, fun w' hw' tl' htl' hlocal => ?_⟩
  obtain ⟨w, hw, rfl⟩ := List.mem_map.mp hw'
  cases hat : w.isAt i addr with
  | false =>
    simp only [hat, Bool.false_eq_true, if_false] at htl' ⊢
    exact h.sleeps w hw tl' htl' hlocal
  | true =>
    simp only [hat, if_true] at htl' ⊢
    have hi : w.timeline = i := by
      simp only [Wait.isAt, decide_eq_true_eq] at hat
      exact hat.1
    obtain rfl : tl' = tl := by
      have : tls[w.timeline]? = some tl' := htl'
      rw [hi, htl, Option.some.injEq] at this
      exact this.symm
    have hsleeps := h.sleeps w hw tl' htl' hlocal
    refine ⟨hsleeps.normalised, hsleeps.node, fun x hx => ?_⟩
    -- the core expiry is computed once: a later round keeps the first
    cases hcore : w.coreTimeExpiry with
    | some y =>
      rw [Wait.project, hcore, Option.some_or] at hx
      exact hsleeps.start x (hcore.trans hx)
    | none =>
      rw [Wait.project, hcore, Option.none_or, Option.some.injEq] at hx
      subst hx
      exact late_mono (h.rates tl' (List.mem_of_getElem? htl) hlocal) (hlate hlocal w hw hat hcore)
        (le_max_right _ _)

theorem timelinesInv_wake {expired : Timepoint → Bool} {alive : Int32 → Bool} {fuel : Nat}
    {d r : List TimelineSleeper} (hloop : wakeLoop expired alive fuel [] tl.events = some (d, r))
    (hlate : tl.type = .qotTimelineLocal → ∀ w ∈ waits, w.timeline = i →
      expired w.expires = true → Late tl.impl slack now w.expires) :
    TimelinesInv (tls.set i { tl with events := d ++ r }) waits slack now := by
  have hmem := List.mem_of_getElem? htl
  refine timelinesInv_set h (h.rates tl hmem) (addrs_nodup_wake (h.nodup tl hmem) hloop)
    (fun w hw _ => hw) (fun w hw heq hlocal => ?_)
  subst heq
  exact sleeps_wake (h.sleeps w hw tl htl hlocal) hloop (hlate hlocal w hw rfl)

/-- A wait that may leave is late: it was woken, or its core expiry is near. -/
theorem late_of_leave {w : Wait} (hw : w ∈ waits) (hi : w.timeline = i)
    (hlocal : tl.type = .qotTimelineLocal) {t : TimelineSleeper} (ht : t ∈ tl.events)
    (haddr : t.addr = w.addr) {x : Int64} (hx : w.coreTimeExpiry = some x) {finish : Int}
    (hnow : now ≤ finish) (hwhy : t.task = false ∨ x.toInt ≤ finish + slack) :
    Late tl.impl slack finish w.expires := by
  have hrate := h.rates tl (List.mem_of_getElem? htl) hlocal
  subst hi
  have hsleeps := h.sleeps w hw tl htl hlocal
  rcases hwhy with htask | hnear
  · -- only a late wait is ever woken
    obtain ⟨t', ht', haddr', -, -, hwoken⟩ := hsleeps.node
    obtain rfl : t = t' :=
      eq_of_addr_eq (h.nodup tl (List.mem_of_getElem? htl)) ht ht' (haddr.trans haddr'.symm)
    exact late_mono hrate (hwoken htask) hnow
  · exact late_mono hrate (hsleeps.start x hx) (by omega)

end Steps

/-! ## Interrupts and discipline -/

theorem timelinesInv_wakeTimelines {tls tls' : List Timeline} {waits : List Wait} {now : Int}
    (h : TimelinesInv tls waits slack now) (hslack : 0 ≤ slack) {clkglParams : TlTranslation}
    {c : Int64} (hc : c.toInt ≤ now)
    (hfits : ∀ w ∈ waits, ∀ tl, tls[w.timeline]? = some tl → tl.type = .qotTimelineLocal →
      Loc2remFits tl.impl c.toInt)
    (hwake : wakeTimelines clkglParams c alive fuel tls = some tls') :
    TimelinesInv tls' waits slack now := by
  refine ⟨fun tl' htl' => ?_, fun tl' htl' => ?_, fun w hw tl' htl' hlocal => ?_⟩
  · obtain ⟨j, hj⟩ := List.mem_iff_getElem?.mp htl'
    obtain ⟨tl, d, r, htl, -, rfl⟩ := getElem?_wakeTimelines hwake hj
    exact h.rates tl (List.mem_of_getElem? htl)
  · obtain ⟨j, hj⟩ := List.mem_iff_getElem?.mp htl'
    obtain ⟨tl, d, r, htl, hloop, rfl⟩ := getElem?_wakeTimelines hwake hj
    exact addrs_nodup_wake (h.nodup tl (List.mem_of_getElem? htl)) hloop
  · obtain ⟨tl, d, r, htl, hloop, rfl⟩ := getElem?_wakeTimelines hwake htl'
    have hlocal : tl.type = .qotTimelineLocal := hlocal
    have hsleeps := h.sleeps w hw tl htl hlocal
    refine sleeps_wake hsleeps hloop fun hexp => ?_
    have hexp := of_decide_eq_true hexp
    rw [hlocal] at hexp
    exact late_mono (h.rates tl (List.mem_of_getElem? htl) hlocal)
      (late_of_expiredOnTimeline hslack (hfits w hw tl htl hlocal) hsleeps.normalised hexp) hc

/-- The same timelines with the same mappings, whatever is queued on them. -/
def SameMappings (tls tls' : List Timeline) : Prop :=
  ∀ (j : Nat) (tl' : Timeline), tls'[j]? = some tl' →
    ∃ tl, tls[j]? = some tl ∧ tl'.type = tl.type ∧ tl'.impl = tl.impl

theorem getElem?_applyDiscipline {k : Kernel} {tl tl' : Timeline} (htl : k.timelines[i]? = some tl)
    (htl' : (applyDiscipline k i tl op reading).timelines[i]? = some tl')
    (hlocal : tl'.type = .qotTimelineLocal) :
    tl.type = .qotTimelineLocal
      ∧ tl'.impl = clockApply .qotTimelineLocal tl.impl reading op
      ∧ (applyDiscipline k i tl op reading).clkglParams = k.clkglParams := by
  cases htype : tl.type with
  | qotTimelineGlobal =>
    simp only [applyDiscipline, htype, htl, Option.some.injEq] at htl'
    simp [← htl', htype] at hlocal
  | qotTimelineLocal =>
    have hlt := (List.getElem?_eq_some_iff.mp htl).1
    simp only [applyDiscipline, htype, List.getElem?_set_self hlt, Option.some.injEq] at htl'
    refine ⟨rfl, by rw [← htl'], by simp only [applyDiscipline, htype]⟩

/-- Changing the mapping of a timeline, local or shared. -/
theorem timelinesInv_applyDiscipline {k : Kernel} {waits : List Wait} {now : Int}
    (h : TimelinesInv k.timelines waits slack now) {tl : Timeline} (htl : k.timelines[i]? = some tl)
    (hrate : tl.type = .qotTimelineLocal →
      -1000000000 < (clockApply .qotTimelineLocal tl.impl reading op).mult.toInt)
    (hback : tl.type = .qotTimelineLocal → ∀ w ∈ waits, w.timeline = i → ∀ t, now ≤ t →
      tl.impl.reading t ≤ (clockApply .qotTimelineLocal tl.impl reading op).reading t) :
    TimelinesInv (applyDiscipline k i tl op reading).timelines waits slack now := by
  cases htype : tl.type with
  | qotTimelineGlobal =>
    rw [applyDiscipline, htype]
    exact h
  | qotTimelineLocal =>
    rw [applyDiscipline, htype]
    refine timelinesInv_set h (fun _ => hrate htype) (h.nodup tl (List.mem_of_getElem? htl))
      (fun w hw _ => hw) (fun w hw heq _ => ?_)
    have hforward := hback htype w hw heq
    subst heq
    have hsleeps := sleeps_discipline (h.sleeps w hw tl htl htype) hforward
    rwa [htype] at hsleeps

/-! ## Runs -/

/-- What the paths do not ensure by themselves. Expiries are normalised; a core expiry, when it is
computed, is not early; no reading through the mapping overflows; and while a task sleeps on a
timeline it is not disciplined back, nor so that the update path takes its expiry for passed when it
is not. -/
def KeepsLate (s : WaitState) : WaitOp → Prop
  | .enqueue _ _ _ expires _ => expires.Normalised
  | .project i addr _ => ∀ tl, s.kernel.timelines[i]? = some tl → tl.type = .qotTimelineLocal →
      ∀ w ∈ s.waits, w.isAt i addr = true → w.coreTimeExpiry = none →
        Late tl.impl s.kernel.driver.minDelta
          ((tl.coreNs s.kernel.clkglParams w.expires).toInt - s.kernel.driver.minDelta) w.expires
  | .round i _ r => ∀ tl, s.kernel.timelines[i]? = some tl → tl.type = .qotTimelineLocal →
      Loc2remFits tl.impl r.finish.toInt
  | .createTimer _ _ _ _ _ _ => True
  | .interrupt r _ _ => ∀ w ∈ s.waits, ∀ tl, s.kernel.timelines[w.timeline]? = some tl →
      tl.type = .qotTimelineLocal → ∀ c ∈ r.cores, Loc2remFits tl.impl c.toInt
  | .discipline i op reading r _ _ => ∀ tl, s.kernel.timelines[i]? = some tl →
      tl.type = .qotTimelineLocal →
        -1000000000 < (clockApply .qotTimelineLocal tl.impl reading op).mult.toInt
          ∧ ∀ w ∈ s.waits, w.timeline = i →
            (∀ t, s.kernel.now.toInt ≤ t →
              tl.impl.reading t ≤ (clockApply .qotTimelineLocal tl.impl reading op).reading t)
            ∧ (expiredOnCore .qotTimelineLocal (clockApply .qotTimelineLocal tl.impl reading op)
                s.kernel.clkglParams (tpFromNsec r.core) w.expires →
              Late (clockApply .qotTimelineLocal tl.impl reading op) s.kernel.driver.minDelta
                r.core.toInt w.expires)

structure WaitInv (s : WaitState) : Prop where
  clock : 0 ≤ s.kernel.now.toInt
  timelines : TimelinesInv s.kernel.timelines s.waits s.kernel.driver.minDelta s.kernel.now.toInt
  exits : NotEarly s

/-- A step of the kernel that no wait returns from. -/
theorem waitInv_kernel (h : WaitInv s) {k : Kernel} (hnow : s.kernel.now.toInt ≤ k.now.toInt)
    (hdriver : k.driver = s.kernel.driver)
    (htimelines : TimelinesInv k.timelines s.waits s.kernel.driver.minDelta k.now.toInt) :
    WaitInv { s with kernel := k } := by
  refine ⟨h.clock.trans hnow, ?_, ?_⟩
  · simp only [hdriver]
    exact htimelines
  · simp only [NotEarly, hdriver]
    exact h.exits

theorem waitInv_round (h : WaitInv s) {addr : Nat} {r : StartReadings}
    (hr : Forward s.kernel.now r.inOrder) (hkeeps : KeepsLate s (.round i addr r))
    (hs' : waitStep s (.round i addr r) = some s') : WaitInv s' := by
  have hclock := h.clock
  obtain ⟨htime, hprogram, hfinish, hlast⟩ := forward_start hr
  obtain ⟨w, hw, hs'⟩ := Option.bind_eq_some_iff.mp hs'
  obtain ⟨x, hx, hs'⟩ := Option.bind_eq_some_iff.mp hs'
  obtain ⟨tl, htl, hs'⟩ := Option.bind_eq_some_iff.mp hs'
  obtain ⟨⟨left, k⟩, hres, rfl⟩ := Option.map_eq_some_iff.mp hs'
  have hmem := List.mem_of_find?_eq_some hw
  have hat : w.timeline = i ∧ w.addr = addr := by
    have := List.find?_some hw
    simpa only [Wait.isAt, decide_eq_true_eq] using this
  obtain ⟨tl', htl', t, ht, haddr, hcases⟩ := qotAttosleepResume_cases hres
  obtain rfl : tl = tl' := Option.some.inj (htl.symm.trans htl')
  have hlater := timelinesInv_later h.timelines hlast
  rcases hcases with ⟨rfl, rfl, hwhy⟩ | ⟨rfl, -, rfl⟩
  · -- the wait returns: what it reads on the way out is late, since the wait is
    refine ⟨hclock.trans hlast, timelinesInv_leave hlater htl addr, fun e he hlocal => ?_⟩
    rcases List.mem_cons.mp he with rfl | he
    · have hlate := late_of_leave h.timelines htl hmem hat.1 hlocal ht (haddr.trans hat.2.symm) hx
        hlast (hwhy.imp_right fun hfail =>
          (qotSleeperStartExpires_false (by omega) hprogram hfail).trans (by omega))
      have hfits : Loc2remFits (mappingInForce .qotTimelineLocal tl.impl s.kernel.clkglParams)
        r.finish.toInt := hkeeps tl htl hlocal
      have hlocal : tl.type = .qotTimelineLocal := hlocal
      simp only [hlocal]
      rw [(qotCoreToRemote_reading rfl hfits).2]
      rw [Late, add_mul] at hlate
      exact hlate
    · exact h.exits e he hlocal
  · obtain ⟨hsame, -, hdriver, -⟩ :=
      qotSleeperStartExpires_frame s.kernel t.sleeperActive (tpFromNsec x) r
    refine waitInv_kernel h hlast hdriver ?_
    simp only [hsame]
    exact hlater

theorem waitInv_interrupt (h : WaitInv s) {r : InterruptReadings}
    (hr : Forward s.kernel.now r.inOrder) (hkeeps : KeepsLate s (.interrupt r alive fuel))
    (hs' : waitStep s (.interrupt r alive fuel) = some s') : WaitInv s' := by
  obtain ⟨⟨flag, k⟩, hk, rfl⟩ := Option.map_eq_some_iff.mp hs'
  obtain ⟨⟨flag', k₁⟩, hend, heq⟩ := Option.map_eq_some_iff.mp hk
  simp only [Prod.mk.injEq] at heq
  obtain ⟨-, rfl⟩ := heq
  obtain ⟨hforced, hfinish, hrounds⟩ := forward_interrupt hr
  have hlast := hforced.trans hfinish
  -- the mappings have to be kept track of too: it is through them that a pass finds what expired
  have hpass : ∀ a ∈ [r.first, r.second, r.third], ∀ tls tls',
      TimelinesInv tls s.waits s.kernel.driver.minDelta r.finish.toInt
        ∧ SameMappings s.kernel.timelines tls →
      wakeTimelines s.kernel.clkglParams a.core alive fuel tls = some tls' →
      TimelinesInv tls' s.waits s.kernel.driver.minDelta r.finish.toInt
        ∧ SameMappings s.kernel.timelines tls' := by
    rintro a ha tls tls' ⟨hinv, hmap⟩ hwake
    obtain ⟨hcore, hle, -⟩ := hrounds a ha
    refine ⟨timelinesInv_wakeTimelines hinv s.kernel.driver.minDelta_nonneg hle
      (fun w hw tl htl hlocal => ?_) hwake, fun j tl' htl' => ?_⟩
    · obtain ⟨tl₀, htl₀, htype, himpl⟩ := hmap _ tl htl
      rw [himpl]
      exact hkeeps w hw tl₀ htl₀ (htype.symm.trans hlocal) _ hcore
    · obtain ⟨tl, d, r, htl, -, rfl⟩ := getElem?_wakeTimelines hwake htl'
      exact hmap j tl htl
  obtain ⟨⟨hinv, -⟩, hdriver⟩ := interruptRounds_induction (k := { s.kernel with armed := none })
    hpass ⟨timelinesInv_later h.timelines hlast, fun j tl htl => ⟨tl, htl, rfl, rfl⟩⟩ hend
  exact waitInv_kernel h (k := { k₁ with now := r.finish }) hlast hdriver hinv

theorem waitInv_discipline (h : WaitInv s) {r : UpdateReadings}
    (hr : Forward s.kernel.now r.inOrder)
    (hkeeps : KeepsLate s (.discipline i op reading r alive fuel))
    (hs' : waitStep s (.discipline i op reading r alive fuel) = some s') : WaitInv s' := by
  obtain ⟨hcore, hsecond, hprogram, hfinish⟩ := forward_update hr
  have hlast : r.core.toInt ≤ r.finish.toInt := by omega
  obtain ⟨k, hk, rfl⟩ := Option.map_eq_some_iff.mp hs'
  obtain ⟨hnow, tl, htl, hdriver, htls⟩ := discipline_frame hk
  rw [(applyDiscipline_fields s.kernel i tl op reading).1] at hdriver
  have hinv := timelinesInv_later (timelinesInv_applyDiscipline h.timelines htl
    (fun hlocal => (hkeeps tl htl hlocal).1)
    (fun hlocal w hw heq => ((hkeeps tl htl hlocal).2 w hw heq).1)) (hcore.trans hlast)
  refine waitInv_kernel h (by rw [hnow]; exact hcore.trans hlast) hdriver ?_
  rw [hnow]
  rcases htls with htls | ⟨tl', d, rest, htl', hloop, htls⟩
  · rw [htls]
    exact hinv
  · -- the update path wakes by its own test, which the condition says does not err
    rw [htls]
    refine timelinesInv_wake hinv htl' hloop fun hlocal w hw heq hexp => ?_
    obtain ⟨htype, himpl, hclkgl⟩ := getElem?_applyDiscipline htl htl' hlocal
    have hexp := of_decide_eq_true hexp
    rw [hlocal, himpl, hclkgl] at hexp
    have hrate := hinv.rates tl' (List.mem_of_getElem? htl') hlocal
    refine late_mono hrate ?_ hlast
    rw [himpl]
    exact ((hkeeps tl htl htype).2 w hw heq).2 hexp

theorem waitInv_step {op : WaitOp} (h : WaitInv s)
    (hop : Forward s.kernel.now op.readings ∧ KeepsLate s op) (hs' : waitStep s op = some s') :
    WaitInv s' := by
  obtain ⟨hr, hkeeps⟩ := hop
  have hclock := h.clock
  have hslack := s.kernel.driver.minDelta_nonneg
  cases op with
  | enqueue i addr pid expires finish =>
    have hfinish : s.kernel.now.toInt ≤ finish.toInt := by
      simpa [Forward, WaitOp.readings] using hr
    obtain ⟨tl, htl, hs'⟩ := Option.bind_eq_some_iff.mp hs'
    split at hs'
    · cases hs'
    · next haddr =>
      cases hs'
      exact ⟨hclock.trans hfinish, timelinesInv_enqueue (timelinesInv_later h.timelines hfinish)
        htl haddr pid hkeeps, h.exits⟩
  | project i addr finish =>
    have hfinish : s.kernel.now.toInt ≤ finish.toInt := by
      simpa [Forward, WaitOp.readings] using hr
    obtain ⟨tl, htl, rfl⟩ := Option.map_eq_some_iff.mp hs'
    exact ⟨hclock.trans hfinish, timelinesInv_project (timelinesInv_later h.timelines hfinish) htl
      (hkeeps tl htl), h.exits⟩
  | round i addr r => exact waitInv_round h hr hkeeps hs'
  | createTimer i addr pid timer core r =>
    obtain ⟨-, -, -, hlast⟩ := forward_start (forward_of_cons hr)
    obtain ⟨k, hk, rfl⟩ := Option.map_eq_some_iff.mp hs'
    obtain ⟨hdriver, hnow, tl, t, htl, haddr, htls⟩ := qotTimerCreate_frame hk
    have hlater := timelinesInv_later h.timelines hlast
    refine waitInv_kernel h (by rw [hnow]; exact hlast) hdriver ?_
    rw [hnow]
    rcases htls with htls | htls
    · rw [htls]
      exact hlater
    · rw [htls]
      exact timelinesInv_createTimer hlater htl haddr
  | interrupt r alive fuel => exact waitInv_interrupt h hr hkeeps hs'
  | discipline i op reading r alive fuel => exact waitInv_discipline h hr hkeeps hs'

/-- No wait is in progress; the core clock is not negative, no local timeline runs backwards, and
nodes have addresses of their own. -/
structure WaitState.NoWaits (s : WaitState) : Prop where
  waits : s.waits = []
  exits : s.exits = []
  clock : 0 ≤ s.kernel.now.toInt
  rates : ∀ tl ∈ s.kernel.timelines, tl.type = .qotTimelineLocal →
    -1000000000 < tl.impl.mult.toInt
  nodup : ∀ tl ∈ s.kernel.timelines, (addrs tl.events).Nodup

theorem waitInv_noWaits (h : s.NoWaits) : WaitInv s := by
  refine ⟨h.clock, ⟨h.rates, h.nodup, ?_⟩, ?_⟩
  · rw [h.waits]
    simp
  · rw [NotEarly, h.exits]
    simp

/-- **A wait does not return early** in any run in which the core clock never goes back and every
step keeps the waits late. -/
theorem wait_not_early (s : WaitState) (hs : s.NoWaits) (ops : List WaitOp)
    (hops : Runs.AllSteps waitStep
      (fun s op => Forward s.kernel.now op.readings ∧ KeepsLate s op) s ops) :
    Runs.AllStates waitStep NotEarly s ops :=
  Runs.allStates_of_inv (fun _ h => h.exits) (fun _ _ _ h hop hs' => waitInv_step h hop hs')
    (waitInv_noWaits hs) hops

def hundredOps : List WaitOp :=
  [.enqueue 0 1 7 ⟨100, 0⟩ 1000000000, .project 0 1 1000000000,
    .round 0 1 ⟨1000000000, 1000000000, 1000000000⟩]

/-- The timeline is shifted ahead by a second while the task sleeps; the interrupt wakes the task,
and it returns. -/
def shiftedWait : List WaitOp :=
  hundredOps ++ [.discipline 0 (.adjtime 1000000000) 50000000000
      ⟨50000000000, 50000000000, 50000000000, 50000000000⟩ (fun _ => true) 5,
    .interrupt ⟨⟨99100000000, 99100000000⟩, ⟨99100000000, 99100000000⟩, ⟨99100000000, 99100000000⟩,
      99100000000, 99100000000⟩ (fun _ => true) 5,
    .round 0 1 ⟨99200000000, 99200000000, 99200000000⟩]

/-- The wait of `hundredOps` on its timeline shifted by `delta`. -/
def hundredState (delta : Int64) (node : TimelineSleeper) (coreTimeExpiry : Option Int64)
    (callback : Timepoint) (armed : Option Int) (now : Int64) : WaitState where
  kernel := { steadyKernel [] with
    timelines := [⟨.qotTimelineLocal, adjtime initTranslation 0 delta, [node]⟩]
    nextInterruptCallback := callback
    armed := armed
    now := now }
  waits := [⟨0, 1, ⟨100, 0⟩, coreTimeExpiry⟩]
  exits := []

theorem shiftedWait_keepsLate : Runs.AllSteps waitStep
    (fun s op => Forward s.kernel.now op.readings ∧ KeepsLate s op) ⟨steadyKernel [], [], []⟩
    shiftedWait := by
  refine Runs.allSteps_cons (hundredState 0 (qotInitSleeper 1 7 ⟨100, 0⟩) none maxTimepoint none
    1000000000) (by decide) ⟨by decide, show Timepoint.Normalised ⟨100, 0⟩ by decide⟩ ?_
  refine Runs.allSteps_cons (hundredState 0 (qotInitSleeper 1 7 ⟨100, 0⟩) (some 100000000000)
    maxTimepoint none 1000000000) (by decide) ⟨by decide, fun tl htl _ w hw _ _ => ?_⟩ ?_
  · cases htl
    obtain rfl := List.mem_singleton.mp hw
    decide
  refine Runs.allSteps_cons (hundredState 0 (qotInitSleeper 1 7 ⟨100, 0⟩) (some 100000000000)
    ⟨100, 0⟩ (some 100000000000) 1000000000) (by decide) ⟨by decide, fun tl htl _ => ?_⟩ ?_
  · cases htl
    exact ⟨by decide, by decide, by decide, by decide⟩
  refine Runs.allSteps_cons (hundredState 1000000000 (qotInitSleeper 1 7 ⟨100, 0⟩)
    (some 100000000000) ⟨99, 0⟩ (some 99000000000) 50000000000) (by decide)
    ⟨by decide, fun tl htl _ => ?_⟩ ?_
  · cases htl
    refine ⟨by decide, fun w hw _ => ⟨fun t _ => ?_, ?_⟩⟩
    · have hfits : Fits64
          ((adjtime initTranslation 0 0).nsec.toInt + (1000000000 : Int64).toInt) := by decide
      have hpos : (0 : Int) ≤ (1000000000 : Int64).toInt := by decide
      exact (le_add_of_nonneg_right hpos).trans_eq (reading_adjtime hfits 50000000000 t).symm
    · obtain rfl := List.mem_singleton.mp hw
      decide
  refine Runs.allSteps_cons (hundredState 1000000000 (qotInitSleeper 1 7 ⟨100, 0⟩).woken
    (some 100000000000) maxTimepoint (some 9223372036000000000) 99100000000) (by decide)
    ⟨by decide, fun w hw tl htl _ c hc => ?_⟩ ?_
  · obtain rfl := List.mem_singleton.mp hw
    cases htl
    obtain rfl : c = 99100000000 := by simpa [InterruptReadings.cores] using hc
    exact ⟨by decide, by decide, by decide, by decide⟩
  refine ⟨⟨by decide, fun tl htl _ => ?_⟩, fun _ _ => trivial⟩
  cases htl
  exact ⟨by decide, by decide, by decide, by decide⟩

theorem wait_not_early_shiftedWait :
    Runs.AllStates waitStep NotEarly ⟨steadyKernel [], [], []⟩ shiftedWait
      ∧ (Runs.exec waitStep ⟨steadyKernel [], [], []⟩ shiftedWait).map (·.exits)
        = some [⟨.qotTimelineLocal, ⟨100, 0⟩, ⟨100, 200000000000000000⟩⟩] :=
  ⟨wait_not_early _ ⟨rfl, rfl, by decide, by decide, by decide⟩ shiftedWait shiftedWait_keepsLate,
    by decide⟩

/-- **A wait returns early.** Half way through the timeline is set back to zero; the core expiry the
task keeps is then fifty seconds early, and if anything wakes it after a hundred seconds it returns
with the timeline at fifty-one. -/
theorem wait_early :
    ∃ s, Runs.exec waitStep ⟨steadyKernel [], [], []⟩
        (hundredOps ++ [.discipline 0 (.settime ⟨0, 0⟩) 50000000000
            ⟨50000000000, 50000000000, 50000000000, 50000000000⟩ (fun _ => true) 5,
          .round 0 1 ⟨101000000000, 101000000000, 101000000000⟩]) = some s
      ∧ s.exits = [⟨.qotTimelineLocal, ⟨100, 0⟩, ⟨51, 0⟩⟩] ∧ ¬ NotEarly s :=
  Runs.exists_exec (by decide)

end Qot
