import QotStack.Scheduler.Distance
import QotStack.Scheduler.Kernel
import QotStack.Scheduler.Timers

/-!
# QotStack — a request for a timer (`TIMELINE_CREATE_TIMER`)

Start, period and count of a timer come from the caller unchecked. The request computes the first
release from them, under the lock of the event tree and by a division by the period; queues the
timer; converts the release to core time, by a division by the rate of the mapping; starts the
expiry, taking the timer off again if that fails; and copies the timer back to the caller.

`create_timer_safe_iff` goes through every outcome. The request is safe if

* the mapping does not have the rate whose divisor is zero;
* the start is still to come, or the period has at least one whole nanosecond in 64 bits;
* the timer, unless it is refused for being too close, can be copied back: the error return does not
  take it off; and the start is still to come, or what is counted from it fits in 64 bits
  (`CountFits`) and does not fall short of the present (`FallsShort`): it does after a start with a
  fraction of a nanosecond, if the whole nanoseconds since then are a number of periods.

Where the count fits in 64 bits the condition is exact.
-/

namespace Qot

open MachineInt

/-! ## The call -/

/-- What a call depends on: the process, the timer if it can be copied from the caller, the address
the allocator returns, the core time at which the first release is computed, the readings of
`qot_sleeper_start_expires`, and whether the timer can be copied back. -/
structure CreateRequest where
  pid : Int32
  timer : Option QotTimer
  kzalloc : Option Nat
  core : Int64
  start : StartReadings
  copiedBack : Bool

inductive CreateOutcome where
  /-- A division by zero, in the kernel. -/
  | fault
  | eacces (k : Kernel) (table : BindingTable)
  | ok (k : Kernel) (table : BindingTable)
  deriving DecidableEq

/-- The timeline time at which the first release is computed. -/
def CreateRequest.timelineTime (req : CreateRequest) (k : Kernel) (tl : Timeline) : Timepoint :=
  qotCoreToRemote tl.type tl.impl k.clkglParams (tpFromNsec req.core)

def Timeline.mappingIn (tl : Timeline) (k : Kernel) : TlTranslation :=
  mappingInForce tl.type tl.impl k.clkglParams

/-- Whether `qot_sleeper_start_expires` accepts an expiry on this timeline. -/
def starts (k : Kernel) (tl : Timeline) (expires : Timepoint) (r : StartReadings) : Bool :=
  (qotSleeperStartExpires k true (tl.core k.clkglParams expires) r).1

/-- The call from `qot_init_timer_sleeper` on, for the `i`-th timeline `tl`. -/
def createTimer (w : AbsWidth) (k : Kernel) (table : BindingTable) (i : Nat) (tl : Timeline)
    (req : CreateRequest) (timer : QotTimer) (addr : Nat) : CreateOutcome :=
  match qotInitTimerSleeperWith w addr req.pid timer (req.timelineTime k tl) with
  | none => .fault
  | some sleeper =>
    if rateDivisor (tl.mappingIn k) = 0 then .fault
    else if starts k tl sleeper.qotExpires req.start then
      let table' := (TimerState.setTimer ⟨table, []⟩ req.pid (some addr)).table
      -- the error return leaves the timer where it is
      if req.copiedBack then .ok (startSleeper k i tl sleeper req.start) table'
      else .eacces (startSleeper k i tl sleeper req.start) table'
    else .eacces (startSleeper k i tl sleeper req.start) table

/-- `TIMELINE_CREATE_TIMER`. -/
def qotTimelineChdevIoctlCreateTimer (w : AbsWidth) (k : Kernel) (table : BindingTable) (i : Nat)
    (tl : Timeline) (req : CreateRequest) : CreateOutcome :=
  match req.timer, findBinding table.root req.pid, req.kzalloc with
  | some timer, some _, some addr =>
    -- the allocator hands out no address in use
    if addr ∈ addrs tl.events then .eacces k table else createTimer w k table i tl req timer addr
  | _, _, _ => .eacces k table

/-- **Safety of the call**: no division by zero; an error leaves every event tree as it was; success
adds one timer to the tree, and it does not expire before the time at which it was computed. -/
def CreateOutcome.Safe (k : Kernel) (i : Nat) (tl : Timeline) (now : Timepoint) :
    CreateOutcome → Prop
  | .fault => False
  | .eacces k' _ => k'.timelines = k.timelines
  | .ok k' _ => ∃ sleeper, sleeper.periodicTimerFlag = true ∧ now.value ≤ sleeper.qotExpires.value
      ∧ k'.timelines
        = k.timelines.set i { tl with events := qotTimelineEventAdd tl.events sleeper }

/-! ## The condition -/

/-- The start is in order, and nothing that is counted from it leaves 64 bits. -/
structure CountFits (w : AbsWidth) (period : Timelength) (start now : Timepoint) : Prop where
  normalised : start.Normalised
  seconds : w.Keeps (now.sec.toInt - start.sec.toInt)
  room : (now.sec.toInt - start.sec.toInt) * 1000000000 + 1000000000 + (tlToNsec period).toNat
    < 18446744073709551616

/-- The whole periods counted from the start end before the present: only whole nanoseconds are
counted, they are a number of periods already, and the start has a fraction of a nanosecond. A start
whose fraction is the larger one is safe from this, since its difference is counted the wrong
way. -/
structure FallsShort (period : Timelength) (start now : Timepoint) : Prop where
  fraction : start.asec.toNat % 1000000000 ≠ 0
  ahead : start.asec.toNat ≤ now.asec.toNat
  whole : ((tlToNsec period).toNat : Int) ∣ (now.value - start.value) / 1000000000

/-- The first release is in time. -/
def OnTime (w : AbsWidth) (period : Timelength) (start now : Timepoint) : Prop :=
  timepointCmp start now < 0 ∨ (CountFits w period start now ∧ ¬ FallsShort period start now)

/-- An expiry is refused if it has passed, or if it comes first and the driver's clock leaves it no
more than the minimum delta. -/
def RefusedAt (k : Kernel) (tl : Timeline) (expires : Timepoint) (r : StartReadings) : Prop :=
  (tl.coreNs k.clkglParams expires).toInt < r.timeNow.toInt
    ∨ (timepointCmp (tl.core k.clkglParams expires) k.nextInterruptCallback > 0
      ∧ (tl.coreNs k.clkglParams expires).toInt ≤ r.program.toInt + k.driver.minDelta)

/-- The request gets as far as `qot_init_timer_sleeper`. -/
structure Admitted (table : BindingTable) (tl : Timeline) (req : CreateRequest) (timer : QotTimer)
    (addr : Nat) : Prop where
  timer : req.timer = some timer
  bound : (findBinding table.root req.pid).isSome
  kzalloc : req.kzalloc = some addr
  fresh : addr ∉ addrs tl.events

/-- The condition on a request that is admitted. -/
structure HarmlessTimer (w : AbsWidth) (k : Kernel) (tl : Timeline) (req : CreateRequest)
    (timer : QotTimer) : Prop where
  rate : rateDivisor (tl.mappingIn k) ≠ 0
  period : timepointCmp timer.startOffset (req.timelineTime k tl) < 0 ∨ tlToNsec timer.period ≠ 0
  started : ∀ e, nextPeriod w timer.period timer.startOffset (req.timelineTime k tl) = some e →
    ¬ RefusedAt k tl e req.start → req.copiedBack = true
      ∧ OnTime w timer.period timer.startOffset (req.timelineTime k tl)

def Harmless (w : AbsWidth) (k : Kernel) (table : BindingTable) (tl : Timeline)
    (req : CreateRequest) : Prop :=
  ∀ timer addr, Admitted table tl req timer addr → HarmlessTimer w k tl req timer

/-- Whatever is requested, its start is to come or the count from it fits. -/
def Countable (w : AbsWidth) (k : Kernel) (tl : Timeline) (req : CreateRequest) : Prop :=
  ∀ timer, req.timer = some timer →
    timepointCmp timer.startOffset (req.timelineTime k tl) < 0
      ∨ CountFits w timer.period timer.startOffset (req.timelineTime k tl)

/-! ## The first release -/

/-- The time that is computed is a whole number of nanoseconds of 64 bits. -/
theorem timelineTime_isNs (req : CreateRequest) (k : Kernel) (tl : Timeline) :
    ∃ n : Int64, req.timelineTime k tl = tpFromNsec n :=
  ⟨_, qotCoreToRemote_eq tl.type tl.impl k.clkglParams _⟩

/-- A start that is still to come is not before the present, normalised or not. -/
theorem value_le_of_cmp_neg {start : Timepoint} {n : Int64}
    (h : timepointCmp start (tpFromNsec n) < 0) : (tpFromNsec n).value ≤ start.value := by
  have hn := tpFromNsec_normalised n
  rw [timepointCmp_neg] at h
  unfold Timepoint.rank at h
  unfold Timepoint.value
  omega

/-- The first release exists exactly if the start is still to come or the period is not zero in
nanoseconds. -/
theorem nextPeriod_isSome_iff (w : AbsWidth) (period : Timelength) (start now : Timepoint) :
    (nextPeriod w period start now).isSome
      ↔ timepointCmp start now < 0 ∨ tlToNsec period ≠ 0 := by
  by_cases hfuture : timepointCmp start now < 0
  · unfold nextPeriod
    rw [if_pos hfuture]
    exact iff_of_true rfl (Or.inl hfuture)
  · rcases nextPeriod_of_not_before w period hfuture with ⟨hzero, hnone⟩ | ⟨hpos, T, -, hsome⟩
    · rw [hnone, or_iff_right hfuture]
      exact iff_of_false Bool.false_ne_true (not_not_intro hzero)
    · rw [hsome]
      exact iff_of_true rfl (Or.inr hpos)

theorem toNat_pos_of_ne_zero {t : UInt64} (h : t ≠ 0) : 0 < t.toNat :=
  Nat.pos_of_ne_zero fun hz => h (UInt64.toNat_inj.mp hz)

section Counted

variable {w : AbsWidth} {period : Timelength} {start : Timepoint} {n : Int64}
  (hfit : CountFits w period start (tpFromNsec n))
  (hstarted : ¬ timepointCmp start (tpFromNsec n) < 0)

include hstarted

theorem start_sec_le : start.sec.toInt ≤ (tpFromNsec n).sec.toInt := by
  have hnow := tpFromNsec_normalised n
  rw [timepointCmp_neg] at hstarted
  unfold Timepoint.rank at hstarted
  omega

include hfit

/-- The elapsed time as it is counted: seconds and fractions apart, in whole nanoseconds. -/
theorem toNat_elapsed_of_fits :
    ((tlToNsec (timepointDiffWith w (tpFromNsec n) start)).toNat : Int)
      = ((tpFromNsec n).sec.toInt - start.sec.toInt) * 1000000000
        + (((tpFromNsec n).asec.toNat : Int) - start.asec.toNat).natAbs / 1000000000 := by
  have hle := start_sec_le hstarted
  have hnow := tpFromNsec_normalised n
  have hstart := hfit.normalised
  have hroom := hfit.room
  have hfits : Fits64 ((tpFromNsec n).sec.toInt - start.sec.toInt) := by
    omega
  have hsec := toNat_timepointDiffWith_sec w hfits
  rw [(secs_eq_iff w hfits).mpr hfit.seconds] at hsec
  have hasec := toNat_timepointDiffWith_asec w (tpFromNsec n) start
  unfold tlToNsec
  rw [UInt64.toNat_add, UInt64.toNat_mul, UInt64.toNat_div,
    show nSecPerSec.toNat = 1000000000 from rfl]
  generalize (timepointDiffWith w (tpFromNsec n) start).sec.toNat = s at hsec
  generalize (timepointDiffWith w (tpFromNsec n) start).asec.toNat = a at hasec
  omega

/-- The first release: the start and the elapsed time rounded up to whole periods. -/
theorem nextPeriod_value (hperiod : tlToNsec period ≠ 0) :
    ∃ e, nextPeriod w period start (tpFromNsec n) = some e
      ∧ e.value = start.value + ((tlToNsec period).toNat
        * ((tlToNsec (timepointDiffWith w (tpFromNsec n) start)).toNat ⌈/⌉ (tlToNsec period).toNat)
          : Nat) * 1000000000 := by
  obtain ⟨hzero, -⟩ | ⟨-, T, hT, hsome⟩ := nextPeriod_of_not_before w period hstarted
  · exact absurd hzero hperiod
  refine ⟨_, hsome, ?_⟩
  have helapsed := toNat_elapsed_of_fits hfit hstarted
  have hpos := toNat_pos_of_ne_zero hperiod
  have hceil := Periodic.round_up_lt_add (tlToNsec (timepointDiffWith w (tpFromNsec n) start)).toNat
    hpos
  have hnow := tpFromNsec_normalised n
  have hle := start_sec_le hstarted
  have hstart := hfit.normalised
  have hroom := hfit.room
  have hsec := tpFromNsec_sec n
  have hn := fits_toInt n
  -- the count stays below `2 ^ 64`
  rw [Nat.mod_eq_of_lt (by omega)] at hT
  rw [← hT]
  obtain ⟨hvalue, hnorm⟩ := tlFromNsec_value T
  rw [(timepointAdd_value hfit.normalised hnorm (by
    unfold Timelength.value at hvalue
    unfold Timepoint.value Timelength.value
    omega)).1, hvalue]

/-- **The first release is before the present** exactly if the count falls short. -/
theorem nextPeriod_late_iff {e : Timepoint}
    (h : nextPeriod w period start (tpFromNsec n) = some e) :
    e.value < (tpFromNsec n).value ↔ FallsShort period start (tpFromNsec n) := by
  have hperiod := ((nextPeriod_isSome_iff w period start (tpFromNsec n)).mp
    (by rw [h]; rfl)).resolve_left hstarted
  obtain ⟨e', he', hvalue⟩ := nextPeriod_value hfit hstarted hperiod
  obtain rfl : e' = e := Option.some.inj (he'.symm.trans h)
  have helapsed := toNat_elapsed_of_fits hfit hstarted
  have hpos := toNat_pos_of_ne_zero hperiod
  have hle := start_sec_le hstarted
  have hnow := tpFromNsec_asec n
  rw [hvalue]
  generalize (tlToNsec (timepointDiffWith w (tpFromNsec n) start)).toNat = elapsed at helapsed ⊢
  have hup := Periodic.le_round_up elapsed hpos
  have hdvd := Periodic.round_up_le_iff elapsed hpos
  generalize (tlToNsec period).toNat * (elapsed ⌈/⌉ (tlToNsec period).toNat) = counted at hup hdvd ⊢
  rcases Nat.lt_or_ge (tpFromNsec n).asec.toNat start.asec.toNat with hlt | hge
  · -- the difference of the fractions, counted the wrong way, makes up for the second it borrows
    refine iff_of_false ?_ fun hshort => absurd hshort.ahead (not_le.mpr hlt)
    unfold Timepoint.value
    omega
  · have hwhole : (elapsed : Int) = ((tpFromNsec n).value - start.value) / 1000000000 := by
      unfold Timepoint.value
      omega
    have hshort : FallsShort period start (tpFromNsec n)
        ↔ start.asec.toNat % 1000000000 ≠ 0 ∧ counted ≤ elapsed := by
      rw [hdvd, ← Int.natCast_dvd_natCast, hwhole]
      exact ⟨fun h => ⟨h.fraction, h.whole⟩, fun h => ⟨h.1, hge, h.2⟩⟩
    rw [hshort]
    unfold Timepoint.value at hwhole ⊢
    omega

end Counted

/-- **The first release is not before the present** if it is on time; where the count fits, only
then. -/
theorem nextPeriod_not_before_iff (w : AbsWidth) {period : Timelength} {start e : Timepoint}
    {n : Int64} (h : nextPeriod w period start (tpFromNsec n) = some e) :
    (OnTime w period start (tpFromNsec n) → (tpFromNsec n).value ≤ e.value)
      ∧ (timepointCmp start (tpFromNsec n) < 0 ∨ CountFits w period start (tpFromNsec n) →
        (tpFromNsec n).value ≤ e.value → OnTime w period start (tpFromNsec n)) := by
  by_cases hfuture : timepointCmp start (tpFromNsec n) < 0
  · refine ⟨fun _ => ?_, fun _ _ => Or.inl hfuture⟩
    unfold nextPeriod at h
    rw [if_pos hfuture, Option.some.injEq] at h
    exact h ▸ value_le_of_cmp_neg hfuture
  · constructor
    · rintro (hearly | ⟨hfit, hshort⟩)
      · exact absurd hearly hfuture
      · rw [← not_lt, nextPeriod_late_iff hfit hfuture h]
        exact hshort
    · rintro (hearly | hfit) hvalue
      · exact absurd hearly hfuture
      · refine Or.inr ⟨hfit, ?_⟩
        rwa [← nextPeriod_late_iff hfit hfuture h, not_lt]

/-! ## The outcomes -/

theorem starts_setEvents (k : Kernel) (i : Nat) (tl : Timeline) (events : List TimelineSleeper)
    (e : Timepoint) (r : StartReadings) :
    (qotSleeperStartExpires (k.setEvents i tl events) true (tl.core k.clkglParams e) r).1
      = starts k tl e r := by
  unfold starts qotSleeperStartExpires
  simp only [Kernel.setEvents]
  split
  · rfl
  · split
    · cases programSchedInterrupt k.driver r.program (tl.core k.clkglParams e) false with
      | none => rfl
      | some a => rfl
    · rfl

/-- The new node can be told from the tree. -/
theorem eventAdd_injective (events : List TimelineSleeper) :
    Function.Injective (qotTimelineEventAdd events) := by
  intro s t h
  have hperm : (s :: events).Perm (t :: events) :=
    (eventAdd_perm events s).symm.trans (h ▸ eventAdd_perm events t)
  have hcount := hperm.count_eq s
  rw [List.count_cons_self, List.count_cons] at hcount
  by_contra hne
  rw [if_neg (by simpa using Ne.symm hne)] at hcount
  omega

theorem eventAdd_ne_self (events : List TimelineSleeper) (s : TimelineSleeper) :
    qotTimelineEventAdd events s ≠ events := by
  intro h
  have hlen := (eventAdd_perm events s).length_eq
  rw [h, List.length_cons] at hlen
  omega

/-- An expiry is accepted exactly if it is not refused. -/
theorem starts_iff {k : Kernel} {tl : Timeline} {e : Timepoint} {r : StartReadings}
    (hnow : 0 ≤ r.timeNow.toInt) (hprogram : r.timeNow.toInt ≤ r.program.toInt) :
    starts k tl e r = true ↔ ¬ RefusedAt k tl e r := by
  unfold starts RefusedAt qotSleeperStartExpires
  simp only [Timeline.core_eq, timepointCmp_tpFromNsec]
  by_cases hpast : (tl.coreNs k.clkglParams e).toInt < r.timeNow.toInt
  · simp [hpast]
  by_cases hfirst :
      timepointCmp (tpFromNsec (tl.coreNs k.clkglParams e)) k.nextInterruptCallback > 0
  · rcases programSchedInterrupt_unforced (d := k.driver) (k := tl.coreNs k.clkglParams e)
      (show 0 ≤ r.program.toInt by omega) (by omega) with ⟨hle, hnone⟩ | ⟨hlt, a, ha, -⟩
    · simp [hpast, hfirst, hnone, hle]
    · simp [hpast, hfirst, ha, hlt]
  · simp [hpast, hfirst]

section Outcome

variable {k : Kernel} {i : Nat} {tl : Timeline} {sleeper : TimelineSleeper} {r : StartReadings}

/-- A timer that is started is in the tree. -/
theorem startSleeper_timelines_of_starts (h : starts k tl sleeper.qotExpires r = true) :
    (startSleeper k i tl sleeper r).timelines
      = k.timelines.set i { tl with events := qotTimelineEventAdd tl.events sleeper } := by
  unfold startSleeper
  simp only [starts_setEvents, h, if_true]
  exact (qotSleeperStartExpires_frame _ _ _ _).1

section
variable (htl : k.timelines[i]? = some tl)
include htl

/-- A timer that cannot be started is off the tree again. -/
theorem startSleeper_timelines_of_not_starts
    (hfresh : sleeper.addr ∉ addrs tl.events) (h : starts k tl sleeper.qotExpires r = false) :
    (startSleeper k i tl sleeper r).timelines = k.timelines := by
  have hframe :=
    (qotSleeperStartExpires_frame (k.setEvents i tl (qotTimelineEventAdd tl.events sleeper))
    true (tl.core k.clkglParams sleeper.qotExpires) r).1
  unfold startSleeper
  simp only [starts_setEvents, h, Bool.false_eq_true, if_false, eventErase_eventAdd hfresh]
  show (_ : Kernel).timelines.set i tl = k.timelines
  rw [hframe, Kernel.timelines_setEvents, List.set_set, Kernel.set_self htl]

/-- A timeline's tree can be read back. -/
theorem set_events_inj {events events' : List TimelineSleeper}
    (h : k.timelines.set i { tl with events := events }
      = k.timelines.set i { tl with events := events' }) : events = events' := by
  have hlt := (List.getElem?_eq_some_iff.mp htl).1
  have hget := congrArg (fun l : List Timeline => l[i]?) h
  simp only [List.getElem?_set_self hlt, Option.some.injEq, Timeline.mk.injEq] at hget
  exact hget.2.2

/-- A timer that is started changes the tree. -/
theorem startSleeper_timelines_ne (h : starts k tl sleeper.qotExpires r = true) :
    (startSleeper k i tl sleeper r).timelines ≠ k.timelines := by
  rw [startSleeper_timelines_of_starts h]
  intro hsame
  exact eventAdd_ne_self tl.events sleeper
    (set_events_inj htl (hsame.trans (Kernel.set_self htl).symm))

/-- A timer that is started and reported is safe if it is not late. -/
theorem ok_safe_iff (hper : sleeper.periodicTimerFlag = true)
    (h : starts k tl sleeper.qotExpires r = true) (table' : BindingTable) (now : Timepoint) :
    (CreateOutcome.ok (startSleeper k i tl sleeper r) table').Safe k i tl now
      ↔ now.value ≤ sleeper.qotExpires.value := by
  have htimelines := startSleeper_timelines_of_starts (i := i) h
  constructor
  · rintro ⟨sleeper', -, hvalue, htimelines'⟩
    have hsame := eventAdd_injective tl.events
      (set_events_inj htl (htimelines.symm.trans htimelines'))
    rwa [hsame]
  · intro hvalue
    exact ⟨sleeper, hper, hvalue, htimelines⟩

end

end Outcome

section Safe

variable {w : AbsWidth} {k : Kernel} {table : BindingTable} {i : Nat} {tl : Timeline}
  {req : CreateRequest} {timer : QotTimer} {addr : Nat}

/-- What a timer that is initialised holds. -/
theorem qotInitTimerSleeperWith_some {pid : Int32} {now : Timepoint} {sleeper : TimelineSleeper}
    (h : qotInitTimerSleeperWith w addr pid timer now = some sleeper) :
    nextPeriod w timer.period timer.startOffset now = some sleeper.qotExpires
      ∧ sleeper.addr = addr ∧ sleeper.periodicTimerFlag = true := by
  obtain ⟨e, he, rfl⟩ := Option.map_eq_some_iff.mp h
  exact ⟨he, rfl, rfl⟩

section
variable (htl : k.timelines[i]? = some tl)
include htl

/-- What an admitted request has to avoid, in the outcomes of its steps. -/
theorem createTimer_safe_iff (hfresh : addr ∉ addrs tl.events) :
    (createTimer w k table i tl req timer addr).Safe k i tl (req.timelineTime k tl)
      ↔ rateDivisor (tl.mappingIn k) ≠ 0
        ∧ ∃ e, nextPeriod w timer.period timer.startOffset (req.timelineTime k tl) = some e
          ∧ (starts k tl e req.start = true →
            req.copiedBack = true ∧ (req.timelineTime k tl).value ≤ e.value) := by
  unfold createTimer
  cases hinit : qotInitTimerSleeperWith w addr req.pid timer (req.timelineTime k tl) with
  | none =>
    -- the period is zero and the start has passed
    refine iff_of_false id ?_
    rintro ⟨-, e, he, -⟩
    rw [Option.map_eq_none_iff.mp hinit] at he
    cases he
  | some sleeper =>
    obtain ⟨hnext, haddr, hper⟩ := qotInitTimerSleeperWith_some hinit
    simp only [hnext, Option.some.injEq, exists_eq_left']
    by_cases hrate : rateDivisor (tl.mappingIn k) = 0
    · rw [if_pos hrate]
      exact iff_of_false id fun h => h.1 hrate
    rw [if_neg hrate, and_iff_right hrate]
    by_cases hstart : starts k tl sleeper.qotExpires req.start = true
    · rw [if_pos hstart]
      cases req.copiedBack with
      | false =>
        rw [if_neg Bool.false_ne_true]
        refine iff_of_false (startSleeper_timelines_ne htl hstart) fun h => ?_
        exact Bool.false_ne_true (h hstart).1
      | true =>
        rw [if_pos rfl, ok_safe_iff htl hper hstart]
        exact ⟨fun h _ => ⟨rfl, h⟩, fun h => (h hstart).2⟩
    · rw [if_neg hstart]
      refine iff_of_true ?_ fun h => absurd h hstart
      show (startSleeper k i tl sleeper req.start).timelines = k.timelines
      exact startSleeper_timelines_of_not_starts htl (haddr ▸ hfresh) (by simpa using hstart)

/-- The steps of a harmless request come out well; where the count fits, only those of a harmless
one do. -/
theorem createTimer_safe_of_harmless
    (hfresh : addr ∉ addrs tl.events) (hnow : 0 ≤ req.start.timeNow.toInt)
    (hprogram : req.start.timeNow.toInt ≤ req.start.program.toInt) :
    (HarmlessTimer w k tl req timer →
        (createTimer w k table i tl req timer addr).Safe k i tl (req.timelineTime k tl))
      ∧ (timepointCmp timer.startOffset (req.timelineTime k tl) < 0
          ∨ CountFits w timer.period timer.startOffset (req.timelineTime k tl) →
        (createTimer w k table i tl req timer addr).Safe k i tl (req.timelineTime k tl) →
        HarmlessTimer w k tl req timer) := by
  rw [createTimer_safe_iff htl hfresh]
  simp only [starts_iff hnow hprogram]
  have htime : ∀ e, nextPeriod w timer.period timer.startOffset (req.timelineTime k tl) = some e →
      (OnTime w timer.period timer.startOffset (req.timelineTime k tl) →
          (req.timelineTime k tl).value ≤ e.value)
        ∧ (timepointCmp timer.startOffset (req.timelineTime k tl) < 0
            ∨ CountFits w timer.period timer.startOffset (req.timelineTime k tl) →
          (req.timelineTime k tl).value ≤ e.value →
          OnTime w timer.period timer.startOffset (req.timelineTime k tl)) := by
    obtain ⟨n, hn⟩ := timelineTime_isNs req k tl
    rw [hn]
    exact fun e he => nextPeriod_not_before_iff w he
  constructor
  · intro h
    obtain ⟨e, he⟩ := Option.isSome_iff_exists.mp ((nextPeriod_isSome_iff w _ _ _).mpr h.period)
    refine ⟨h.rate, e, he, fun haccepted => ?_⟩
    obtain ⟨hcopied, hontime⟩ := h.started e he haccepted
    exact ⟨hcopied, (htime e he).1 hontime⟩
  · rintro hcount ⟨hrate, e, he, haccepted⟩
    refine ⟨hrate, (nextPeriod_isSome_iff w _ _ _).mp (by rw [he]; rfl), fun e' he' hstarts => ?_⟩
    obtain rfl : e = e' := Option.some.inj (he.symm.trans he')
    obtain ⟨hcopied, hvalue⟩ := haccepted hstarts
    exact ⟨hcopied, (htime e he).2 hcount hvalue⟩

/-- On a machine with a wide `abs` the kernel state is that of `qot_timer_create`. -/
theorem qotTimerCreate_of_createTimer
    (hfresh : addr ∉ addrs tl.events) {k' : Kernel} {table' : BindingTable}
    (h : createTimer .wide k table i tl req timer addr = .ok k' table'
      ∨ createTimer .wide k table i tl req timer addr = .eacces k' table') :
    qotTimerCreate k i addr req.pid timer req.core req.start = some k' := by
  have hcreate : qotTimerCreate k i addr req.pid timer req.core req.start
      = (qotInitTimerSleeperWith .wide addr req.pid timer (req.timelineTime k tl)).map
        fun sleeper => startSleeper k i tl sleeper req.start := by
    unfold qotTimerCreate
    rw [htl, Option.bind_some, if_neg hfresh, qotInitTimerSleeper]
    rfl
  rw [hcreate]
  revert h
  fun_cases createTimer .wide k table i tl req timer addr with
  | case1 => simp
  | case2 => simp
  | case3 sleeper hinit =>
    simp only [CreateOutcome.ok.injEq, reduceCtorEq, or_false]
    rintro ⟨rfl, -⟩
    rw [hinit]
    rfl
  | case4 sleeper hinit | case5 sleeper hinit =>
    simp only [CreateOutcome.eacces.injEq, reduceCtorEq, false_or]
    rintro ⟨rfl, -⟩
    rw [hinit]
    rfl

end

end Safe

/-- Process 7 asks for a timer at one second. -/
def requestAtOne (timer : QotTimer) (copiedBack : Bool) : CreateRequest where
  pid := 7
  timer := some timer
  kzalloc := some 1
  core := 1000000000
  start := ⟨1000000000, 1000000000, 1000000000⟩
  copiedBack := copiedBack

/-- A timeline whose rate has been set to zero. -/
def stoppedTimeline : Timeline := ⟨.qotTimelineLocal, adjfreq initTranslation 0 (-1000000000), []⟩

/-- A timer of two seconds that was to start at zero. -/
def twoTimer : QotTimer := ⟨⟨0, 0⟩, ⟨2, 0⟩, 3⟩

theorem twoTimer_harmless : Harmless .wide (steadyKernel []) boundTable
    ⟨.qotTimelineLocal, initTranslation, []⟩ (requestAtOne twoTimer true) := by
  intro timer addr h
  obtain rfl : twoTimer = timer := Option.some.inj h.timer
  refine ⟨by decide, Or.inr (by decide), fun e _ _ => ⟨rfl, Or.inr ⟨?_, fun hshort => ?_⟩⟩⟩
  · exact ⟨by decide, trivial, by decide⟩
  · exact hshort.fraction (by decide)

end Qot
