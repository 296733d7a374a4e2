import QotStack.Am335x.Driver

/-!
# QotStack — the lock of the am335x driver

The interrupt holds the driver's lock while it handles the events of a periodic output, and handling
them reads the time, which takes the lock again; `qot_am335x_perout` returns without giving the lock
back when the start is out of range. `lock_kept_iff` says that these are all: every other call of
the driver, in whatever state, acquires the lock only when it is free, and returns with the lock
free.
-/

namespace Qot

/-! ## Calls -/

/-- The outermost calls: of the clock core, the interrupt, the PTP clock and the user's device. -/
inductive Am335xCall (φ : Type) where
  | readTime (cycleNow : UInt64)
  | interrupt (id : ChannelId) (irq : Am335x.Irq φ)
  | enable (index : Nat) (start period : PtpClockTime) (on : Bool)
  | enableCompare (coreStart : Timepoint) (corePeriod : Timelength) (perout : QotPerout φ)
    (on : Bool)

namespace Am335x

variable {φ : Type} [DecidableEq φ]

def call (p : Am335x φ) : Am335xCall φ → Option (Am335x φ)
  | .readTime cycleNow => (p.qotAm335xReadTime cycleNow).map (·.2)
  | .interrupt id irq => p.qotAm335xInterrupt id irq
  | .enable index start period on => (p.qotAm335xEnable index start period on).map (·.2)
  | .enableCompare coreStart corePeriod perout on =>
    (p.qotAm335xTimelineEnableCompare coreStart corePeriod perout on).map (·.2)

/-- The call returns, with the lock free. -/
def LockKept (p : Am335x φ) (c : Am335xCall φ) : Prop :=
  ∃ p', p.call c = some p' ∧ p'.locked = false

/-- Both timers are there. -/
def HasTimers (p : Am335x φ) (id : ChannelId) : Prop :=
  (p.channel id).timer.isSome = true ∧ p.core.timer.isSome = true

/-- The period is in range, and the start is not. -/
def StartOutOfRange (p : Am335x φ) (start period : PtpClockTime) : Prop :=
  InRange (ptpToS64 period) ∧ ¬ InRange ((ptpToS64 start).toUInt64 - p.tc.nsec).toInt64

/-- The calls that break the lock: an interrupt that calls back, and an output whose start is out of
range. -/
def BreaksLock (p : Am335x φ) : Am335xCall φ → Prop
  | .readTime _ => False
  | .interrupt id irq => (p.channel id).type = .perout ∧ p.HasTimers id ∧ p.compare.callback = true
    ∧ (irq.status.matched = true
      ∨ irq.status.overflow = true ∧ ∃ timer ∈ (p.channel id).timer, timer.id = compareTimer)
  | .enable index start period on =>
    on = true ∧ p.HasTimers (.pin index) ∧ p.StartOutOfRange start period
  | .enableCompare coreStart corePeriod perout on => on = true ∧ ¬ p.Refused perout
    ∧ ¬ p.Deferred perout ∧ p.HasTimers (.pin comparePin)
    ∧ p.StartOutOfRange (ptpOfTimepoint coreStart) (ptpOfTimelength corePeriod)

/-! ## What the parts leave -/

omit [DecidableEq φ]

variable {p : Am335x φ}

theorem lock_of_free (h : p.locked = false) : p.lock = some { p with locked := true } := by
  simp [lock, h]

theorem lock_of_held (h : p.locked = true) : p.lock = none := by
  simp [lock, h]

theorem unlock_of_free (h : p.locked = false) : { p with locked := true }.unlock = p := by
  cases p
  cases h
  rfl

@[simp] theorem setTimer_locked (id : ChannelId) (timer : OmapDmTimer) :
    (p.setTimer id timer).locked = p.locked := by
  cases id <;> rfl

@[simp] theorem setTimer_compare (id : ChannelId) (timer : OmapDmTimer) :
    (p.setTimer id timer).compare = p.compare := by
  cases id <;> rfl

variable {id : ChannelId}

theorem hasTimers_setTimer (h : p.HasTimers id) (timer : OmapDmTimer) :
    (p.setTimer id timer).HasTimers id := by
  cases id with
  | core => exact ⟨rfl, rfl⟩
  | pin index => exact ⟨by simp [setTimer, channel], h.2⟩

@[simp] theorem edged_locked (timer : OmapDmTimer) : (p.edged timer).locked = p.locked := by
  unfold edged
  split <;> rfl

theorem program_channel (coreStart : Timepoint) (corePeriod : Timelength) (perout : QotPerout φ) :
    (p.program coreStart corePeriod perout).channel (.pin comparePin)
      = { p.pins comparePin with
        type := .perout
        start := ptpOfTimepoint coreStart
        period := ptpOfTimelength corePeriod } := by
  simp only [channel, program, Function.update_self]

theorem perout_of_not_hasTimers (h : ¬ p.HasTimers id) (event : Am335xEvent φ) :
    p.qotAm335xPerout id event = some (-einval, p) := by
  unfold qotAm335xPerout
  split
  · next timer core ht hc => exact absurd ⟨by simp [ht], by simp [hc]⟩ h
  · rfl

/-- The outcomes of starting an output. -/
theorem perout_start {timer core : OmapDmTimer} (hlocked : p.locked = false)
    (ht : (p.channel id).timer = some timer) (hc : p.core.timer = some core) :
    p.qotAm335xPerout id .eventStart
      = if ¬ InRange (ptpToS64 (p.channel id).period) then some (-einval, p.edged timer)
        else if ¬ InRange ((ptpToS64 (p.channel id).start).toUInt64 - p.tc.nsec).toInt64 then
          some (-einval, { p.edged timer with locked := true })
        else some (0, (p.edged timer).configure id timer core
          ((ptpToS64 (p.channel id).start).toUInt64 - p.tc.nsec).toInt64
          (ptpToS64 (p.channel id).period) (p.duty timer (ptpToS64 (p.channel id).period))) := by
  have hfree : (p.edged timer).locked = false := (edged_locked timer).trans hlocked
  have htc : (p.edged timer).tc = p.tc := by
    unfold edged
    split <;> rfl
  have hunlock := unlock_of_free hfree
  simp only [htc] at hunlock
  simp only [qotAm335xPerout, ht, hc, peroutStart, lock_of_free hfree, Option.map_some, htc]
  split
  · rfl
  · split
    · rfl
    · rw [hunlock]

/-- Starting an output returns with the lock exactly if its start is out of range. -/
theorem perout_start_locked (id : ChannelId) (hlocked : p.locked = false) :
    ∃ result p', p.qotAm335xPerout id .eventStart = some (result, p')
      ∧ ((p.HasTimers id ∧ p.StartOutOfRange (p.channel id).start (p.channel id).period)
          ∧ p'.locked = true ∧ result < 0
        ∨ ¬ (p.HasTimers id ∧ p.StartOutOfRange (p.channel id).start (p.channel id).period)
          ∧ p'.locked = false) := by
  by_cases htimers : p.HasTimers id
  · obtain ⟨timer, ht⟩ := Option.isSome_iff_exists.mp htimers.1
    obtain ⟨core, hc⟩ := Option.isSome_iff_exists.mp htimers.2
    have hedged : (p.edged timer).locked = false := (edged_locked timer).trans hlocked
    rw [perout_start hlocked ht hc]
    split
    · next hperiod => exact ⟨_, _, rfl, Or.inr ⟨fun h => hperiod h.2.1, hedged⟩⟩
    · next hperiod =>
      split
      · next hstart =>
        exact ⟨_, _, rfl, Or.inl ⟨⟨htimers, not_not.mp hperiod, hstart⟩, rfl, by decide⟩⟩
      · next hstart =>
        exact ⟨_, _, rfl, Or.inr ⟨fun h => hstart h.2.2, (setTimer_locked id _).trans hedged⟩⟩
  · exact ⟨_, _, perout_of_not_hasTimers htimers _, Or.inr ⟨fun h => htimers h.1, hlocked⟩⟩

/-- Stopping an output touches neither the lock nor what the next one depends on. -/
theorem perout_stop (p : Am335x φ) (id : ChannelId) :
    ∃ result p', p.qotAm335xPerout id .eventStop = some (result, p') ∧ p'.locked = p.locked
      ∧ p'.tc = p.tc ∧ (p'.HasTimers id ↔ p.HasTimers id)
      ∧ (p'.channel id).start = (p.channel id).start
      ∧ (p'.channel id).period = (p.channel id).period ∧ p'.compare = p.compare := by
  by_cases htimers : p.HasTimers id
  · obtain ⟨timer, ht⟩ := Option.isSome_iff_exists.mp htimers.1
    obtain ⟨core, hc⟩ := Option.isSome_iff_exists.mp htimers.2
    refine ⟨0, p.stopped id timer, by simp only [qotAm335xPerout, ht, hc], setTimer_locked id _, ?_,
      ⟨fun _ => htimers, fun _ => hasTimers_setTimer htimers _⟩, ?_, ?_, setTimer_compare id _⟩ <;>
      cases id <;> simp [stopped, setTimer, channel]
  · exact ⟨_, p, perout_of_not_hasTimers htimers _, rfl, rfl, Iff.rfl, rfl, rfl, rfl⟩

/-! ## The interrupt -/

theorem notify_of_callback (hlocked : p.locked = true) (hcallback : p.compare.callback = true)
    (env : IrqEnv φ) : p.notify env = none := by
  simp [notify, hcallback, qotAm335xReadTime, lock_of_held hlocked]

theorem notify_of_no_callback (hcallback : p.compare.callback = false) (env : IrqEnv φ) :
    p.notify env = some (env.garbage, p) := by
  simp [notify, hcallback]

theorem rewrite_spec (htimers : p.HasTimers id) (timer : OmapDmTimer)
    (eventCoreTimestamp : Timepoint) :
    (p.rewrite id timer eventCoreTimestamp).locked = p.locked
      ∧ (p.rewrite id timer eventCoreTimestamp).compare = p.compare
      ∧ (p.rewrite id timer eventCoreTimestamp).HasTimers id := by
  unfold rewrite
  dsimp only
  split
  · exact ⟨setTimer_locked id _, setTimer_compare id _, hasTimers_setTimer htimers _⟩
  · exact ⟨rfl, rfl, htimers⟩

/-- Without a callback the events of a pin do not touch the lock. -/
theorem perout_event (id : ChannelId) (hcallback : p.compare.callback = false) (env : IrqEnv φ) :
    (∃ result p', p.qotAm335xPerout id (.eventMatch env) = some (result, p')
        ∧ p'.locked = p.locked ∧ p'.compare = p.compare)
      ∧ ∃ result p', p.qotAm335xPerout id (.eventOverflow env) = some (result, p')
        ∧ p'.locked = p.locked := by
  by_cases htimers : p.HasTimers id
  · obtain ⟨timer, ht⟩ := Option.isSome_iff_exists.mp htimers.1
    obtain ⟨core, hc⟩ := Option.isSome_iff_exists.mp htimers.2
    obtain ⟨hlocked, hcompare, -⟩ := rewrite_spec htimers timer env.garbage
    simp only [qotAm335xPerout, ht, hc, notify_of_no_callback hcallback, Option.map_some]
    refine ⟨⟨_, _, rfl, hlocked, hcompare⟩, ?_⟩
    split <;> exact ⟨_, _, rfl, rfl⟩
  · exact ⟨⟨_, p, perout_of_not_hasTimers htimers _, rfl, rfl⟩,
      ⟨_, p, perout_of_not_hasTimers htimers _, rfl⟩⟩

/-- Without timers there is nothing to handle, and without a callback nobody to wait for. -/
theorem peroutInterrupt_of_not_hasTimers (htimers : ¬ p.HasTimers id) (irq : Irq φ) :
    ∃ p', p.peroutInterrupt id irq = some p' := by
  have hnone : ∀ wanted event, p.peroutIf wanted id event = some p := by
    intro wanted event
    cases wanted
    · rfl
    · exact congrArg (Option.map _) (perout_of_not_hasTimers htimers event)
  simp only [peroutInterrupt, hnone, Option.bind_some, Option.map_some]
  exact ⟨_, rfl⟩

theorem peroutInterrupt_of_no_callback (hcallback : p.compare.callback = false) (id : ChannelId)
    (irq : Irq φ) : ∃ p', p.peroutInterrupt id irq = some p' := by
  obtain ⟨p₁, h₁, hcompare⟩ : ∃ p₁, p.peroutIf irq.status.matched id (.eventMatch irq.atMatch)
    = some p₁
      ∧ p₁.compare = p.compare := by
    cases irq.status.matched with
    | false => exact ⟨p, rfl, rfl⟩
    | true =>
      obtain ⟨⟨r, p', hevent, -, hcompare⟩, -⟩ := perout_event id hcallback irq.atMatch
      exact ⟨p', congrArg (Option.map _) hevent, hcompare⟩
  obtain ⟨p₂, h₂⟩ : ∃ p₂, p₁.peroutIf irq.status.overflow id (.eventOverflow irq.atOverflow)
      = some p₂ := by
    cases irq.status.overflow with
    | false => exact ⟨p₁, rfl⟩
    | true =>
      obtain ⟨-, r, p', hevent, -⟩ := perout_event id (hcompare ▸ hcallback) irq.atOverflow
      exact ⟨p', congrArg (Option.map _) hevent⟩
  exact ⟨_, by rw [peroutInterrupt, h₁, Option.bind_some, h₂, Option.map_some]⟩

/-- Handling the events of a pin with the lock held comes to an end exactly if there is nobody to
call back. -/
theorem peroutInterrupt_iff (id : ChannelId) (hlocked : p.locked = true) (irq : Irq φ) :
    (∃ p', p.peroutInterrupt id irq = some p')
      ↔ ¬ (p.HasTimers id ∧ p.compare.callback = true ∧ (irq.status.matched = true
        ∨ irq.status.overflow = true
          ∧ ∃ timer ∈ (p.channel id).timer, timer.id = compareTimer)) := by
  cases hcallback : p.compare.callback with
  | false =>
    exact ⟨(fun _ h => nomatch h.2.1), fun _ => peroutInterrupt_of_no_callback hcallback id irq⟩
  | true =>
    by_cases htimers : p.HasTimers id
    · -- the first event that calls back is the last
      obtain ⟨timer, ht⟩ := Option.isSome_iff_exists.mp htimers.1
      obtain ⟨core, hc⟩ := Option.isSome_iff_exists.mp htimers.2
      have hnotify := notify_of_callback hlocked hcallback
      cases hmatched : irq.status.matched with
      | true =>
        simp [peroutInterrupt, peroutIf, hmatched, qotAm335xPerout, ht, hc, hnotify, htimers]
      | false =>
        cases hoverflow : irq.status.overflow with
        | false => simp [peroutInterrupt, peroutIf, hmatched, hoverflow]
        | true =>
          by_cases hid : timer.id = compareTimer <;>
            simp [peroutInterrupt, peroutIf, hmatched, hoverflow, qotAm335xPerout, ht, hc, hnotify,
              htimers, hid]
    · exact ⟨fun _ h => htimers h.1, fun _ => peroutInterrupt_of_not_hasTimers htimers irq⟩

section
variable (hlocked : p.locked = false)
include hlocked

theorem interrupt_iff (irq : Irq φ) :
    (∃ p', p.qotAm335xInterrupt id irq = some p' ∧ p'.locked = false)
      ↔ ¬ ((p.channel id).type = .perout ∧ p.HasTimers id ∧ p.compare.callback = true
        ∧ (irq.status.matched = true
          ∨ irq.status.overflow = true
            ∧ ∃ timer ∈ (p.channel id).timer, timer.id = compareTimer)) := by
  have hchannel : ({ p with locked := true } : Am335x φ).channel id = p.channel id := by
    cases id <;> rfl
  have hends : (∃ p', p.qotAm335xInterrupt id irq = some p' ∧ p'.locked = false)
      ↔ ∃ p', ({ p with locked := true } : Am335x φ).handleIrq id irq = some p' := by
    rw [qotAm335xInterrupt, lock_of_free hlocked, Option.bind_some]
    constructor
    · rintro ⟨p', hp', -⟩
      obtain ⟨p'', hp'', -⟩ := Option.map_eq_some_iff.mp hp'
      exact ⟨p'', hp''⟩
    · rintro ⟨p', hp'⟩
      exact ⟨p'.unlock, by rw [hp', Option.map_some], rfl⟩
  have hperout := peroutInterrupt_iff (p := { p with locked := true }) id rfl irq
  rw [HasTimers, hchannel] at hperout
  rw [hends, handleIrq, hchannel]
  cases (p.channel id).type with
  | extts => simp
  | pps => simp
  | perout =>
    simp only [true_and]
    exact hperout

/-! ## Requests -/

/-- With the start out of range, the release of the pin waits for the lock that was not given
back. -/
theorem startOrRelease_of_startOutOfRange
    (h : p.HasTimers (.pin comparePin)
      ∧ p.StartOutOfRange (p.pins comparePin).start (p.pins comparePin).period) :
    p.startOrRelease = none := by
  obtain ⟨result, p', hstart, ⟨-, hheld, hneg⟩ | ⟨hin, -⟩⟩ :=
    perout_start_locked (.pin comparePin) hlocked
  · simp [startOrRelease, hstart, hneg, lock_of_held hheld]
  · exact absurd h hin

theorem startOrRelease_iff :
    (∃ result p', p.startOrRelease = some (result, p') ∧ p'.locked = false)
      ↔ ¬ (p.HasTimers (.pin comparePin) ∧ p.StartOutOfRange (p.pins comparePin).start
        (p.pins comparePin).period) := by
  obtain ⟨result, p', hstart, ⟨hout, -, -⟩ | ⟨hin, hfree⟩⟩ :=
    perout_start_locked (.pin comparePin) hlocked
  · rw [startOrRelease_of_startOutOfRange hlocked hout]
    exact ⟨(fun ⟨_, _, h, _⟩ => nomatch h), fun h => absurd hout h⟩
  · refine ⟨fun _ => hin, fun _ => ?_⟩
    simp only [startOrRelease, hstart, Option.bind_eq_bind, Option.bind_some]
    split
    · rw [lock_of_free hfree]
      exact ⟨_, _, rfl, rfl⟩
    · exact ⟨_, _, rfl, hfree⟩

theorem enable_iff (index : Nat) (start period : PtpClockTime) (on : Bool) :
    (∃ result p', p.qotAm335xEnable index start period on = some (result, p') ∧ p'.locked = false)
      ↔ ¬ (on = true ∧ p.HasTimers (.pin index) ∧ p.StartOutOfRange start period) := by
  let q : Am335x φ := { p with
    pins := Function.update p.pins index
      { p.pins index with type := .perout, start := start, period := period } }
  have hchannel : q.channel (.pin index)
      = { p.pins index with type := .perout, start := start, period := period } :=
    Function.update_self _ _ _
  have htimers : q.HasTimers (.pin index) ↔ p.HasTimers (.pin index) := by
    rw [HasTimers, hchannel]
    exact Iff.rfl
  cases on with
  | false =>
    obtain ⟨result, p', hstop, hfree, -⟩ := q.perout_stop (.pin index)
    simp only [Bool.false_eq_true, false_and, not_false_eq_true, iff_true]
    exact ⟨result, p', hstop, hfree.trans hlocked⟩
  | true =>
    obtain ⟨result, p', hstart, h⟩ := perout_start_locked (p := q) (.pin index) hlocked
    rw [htimers, hchannel] at h
    have henable : p.qotAm335xEnable index start period true = some (result, p') := hstart
    rw [henable]
    rcases h with ⟨hout, hheld, -⟩ | ⟨hin, hfree⟩
    · constructor
      · rintro ⟨_, _, heq, hfree⟩
        cases heq
        cases hheld.symm.trans hfree
      · exact fun h => absurd ⟨rfl, hout⟩ h
    · exact ⟨fun _ h => hin h.2, fun _ => ⟨_, _, rfl, hfree⟩⟩

end

/-- The old output is stopped, if there is one; the new one is started or not as if there were
none. -/
theorem peroutIf_stop (p : Am335x φ) (overwrite : Bool) :
    ∃ p', p.peroutIf overwrite (.pin comparePin) .eventStop = some p' ∧ p'.locked = p.locked
      ∧ (p'.HasTimers (.pin comparePin) ↔ p.HasTimers (.pin comparePin)) ∧ p'.tc = p.tc
      ∧ (p'.pins comparePin).start = (p.pins comparePin).start
      ∧ (p'.pins comparePin).period = (p.pins comparePin).period ∧ p'.compare = p.compare
      ∧ (overwrite = false → p' = p) := by
  cases overwrite with
  | false => exact ⟨p, rfl, rfl, Iff.rfl, rfl, rfl, rfl, rfl, fun _ => rfl⟩
  | true =>
    obtain ⟨result, p', hstop, hlocked, htc, htimers, hstart, hperiod, hcompare⟩ :=
      p.perout_stop (.pin comparePin)
    exact ⟨p', congrArg (Option.map _) hstop, hlocked, htimers, htc, hstart, hperiod, hcompare,
      fun h => nomatch h⟩

theorem peroutIf_stop_iff (hlocked : p.locked = false) (overwrite : Bool) :
    (∃ result p', (p.peroutIf overwrite (.pin comparePin) .eventStop).bind startOrRelease
        = some (result, p') ∧ p'.locked = false)
      ↔ ¬ (p.HasTimers (.pin comparePin) ∧ p.StartOutOfRange (p.pins comparePin).start
        (p.pins comparePin).period) := by
  obtain ⟨p', hstop, hfree, htimers, htc, hstart, hperiod, -⟩ := p.peroutIf_stop overwrite
  have hrange : p'.StartOutOfRange (p'.pins comparePin).start (p'.pins comparePin).period
      ↔ p.StartOutOfRange (p.pins comparePin).start (p.pins comparePin).period := by
    rw [StartOutOfRange, StartOutOfRange, htc, hstart, hperiod]
  rw [hstop, Option.bind_some, startOrRelease_iff (hfree.trans hlocked), htimers, hrange]

/-- The outcomes of a request to turn the output off, when the lock is free. -/
theorem enableCompareOff_eq (hlocked : p.locked = false) :
    p.enableCompareOff
      = if p.compare.key ≠ 1 then some (1, p)
        else (({ p with
          compare := { p.compare with
            key := 0
            perout := { p.compare.perout with ownerFile := none }
            reprogramFlag := false } }).qotAm335xPerout (.pin comparePin) .eventStop).map
          fun (outcome : Int × Am335x φ) => (if outcome.1 < 0 then 1 else 0, outcome.2) := by
  obtain ⟨locked, core, pins, tc, cc, compare⟩ := p
  cases hlocked
  simp only [enableCompareOff, lock, unlock, Bool.false_eq_true, if_false, Option.bind_eq_bind,
    Option.bind_some, Option.map_eq_bind]
  rfl

theorem enableCompareOff_free (hlocked : p.locked = false) :
    ∃ result p', p.enableCompareOff = some (result, p') ∧ p'.locked = false := by
  rw [enableCompareOff_eq hlocked]
  split
  · exact ⟨_, _, rfl, hlocked⟩
  · obtain ⟨result, p', hstop, hfree, -⟩ := perout_stop
      { p with
        compare := { p.compare with
          key := 0
          perout := { p.compare.perout with ownerFile := none }
          reprogramFlag := false } } (.pin comparePin)
    rw [hstop]
    exact ⟨_, _, rfl, hfree.trans hlocked⟩

section Request

variable [DecidableEq φ]

/-- The outcomes of a request for an output, when the lock is free. -/
theorem enableCompareOn_eq (hlocked : p.locked = false) (coreStart : Timepoint)
    (corePeriod : Timelength) (perout : QotPerout φ) :
    p.enableCompareOn coreStart corePeriod perout
      = if p.Refused perout then some (1, p)
        else if p.Deferred perout then
          if ¬ InRange (tlToNsec corePeriod).toInt64 then some (1, p)
          else some (0, p.reprogram (tlToNsec corePeriod).toInt64 perout)
        else (({ p with compare.key := 1 }.program coreStart corePeriod perout).peroutIf
          (p.compare.key = 1) (.pin comparePin) .eventStop).bind startOrRelease := by
  obtain ⟨locked, core, pins, tc, cc, compare⟩ := p
  cases hlocked
  rfl

theorem enableCompareOn_iff (hlocked : p.locked = false) (coreStart : Timepoint)
    (corePeriod : Timelength) (perout : QotPerout φ) :
    (∃ result p', p.enableCompareOn coreStart corePeriod perout = some (result, p')
        ∧ p'.locked = false)
      ↔ ¬ (¬ p.Refused perout ∧ ¬ p.Deferred perout ∧ p.HasTimers (.pin comparePin)
        ∧ p.StartOutOfRange (ptpOfTimepoint coreStart) (ptpOfTimelength corePeriod)) := by
  rw [enableCompareOn_eq hlocked]
  by_cases hrefused : p.Refused perout
  · rw [if_pos hrefused]
    exact ⟨fun _ h => h.1 hrefused, fun _ => ⟨_, _, rfl, hlocked⟩⟩
  · rw [if_neg hrefused]
    by_cases hdeferred : p.Deferred perout
    · rw [if_pos hdeferred]
      refine ⟨fun _ h => h.2.1 hdeferred, fun _ => ?_⟩
      split <;> exact ⟨_, _, rfl, hlocked⟩
    · rw [if_neg hdeferred]
      have hstart := peroutIf_stop_iff
        (p := { p with compare.key := 1 }.program coreStart corePeriod perout) hlocked
        (p.compare.key = 1)
      rw [HasTimers, program_channel] at hstart
      refine hstart.trans (not_congr ?_)
      exact ⟨fun h => ⟨hrefused, hdeferred, h⟩, fun h => h.2.2⟩

/-- **The lock is kept exactly by the calls that are not listed in `BreaksLock`.** For every state
of the driver in which the lock is free and every call, with any interrupt status and any request:
the lock is acquired only when it is free, and is free when the call returns, if and only if the
call is neither an interrupt of a periodic output that calls back, nor a request for an output whose
period is in range and whose start is not. -/
theorem lock_kept_iff (hlocked : p.locked = false) (c : Am335xCall φ) :
    p.LockKept c ↔ ¬ p.BreaksLock c := by
  have hresult : ∀ outcome : Option (Int × Am335x φ),
      (∃ p', outcome.map (·.2) = some p' ∧ p'.locked = false)
        ↔ ∃ result p', outcome = some (result, p') ∧ p'.locked = false := by
    rintro (_ | ⟨result, p'⟩) <;> simp
  cases c with
  | readTime cycleNow =>
    refine ⟨fun _ h => h, fun _ => ?_⟩
    simp only [LockKept, call, qotAm335xReadTime, lock_of_free hlocked, Option.map_some]
    exact ⟨_, rfl, rfl⟩
  | interrupt id irq => exact interrupt_iff hlocked irq
  | enable index start period on =>
    exact (hresult _).trans (enable_iff hlocked index start period on)
  | enableCompare coreStart corePeriod perout on =>
    refine (hresult _).trans ?_
    cases on with
    | true =>
      refine (enableCompareOn_iff hlocked coreStart corePeriod perout).trans (not_congr ?_)
      exact ⟨fun h => ⟨rfl, h⟩, And.right⟩
    | false => exact ⟨(fun _ h => nomatch h.1), fun _ => enableCompareOff_free hlocked⟩

end Request

/-- A timer as it is requested. -/
def omapTimer (id : Nat) : OmapDmTimer := ⟨id, false, false, 0, 0, 0, false, 0⟩

/-- A driver whose pins all have the compare timer, one second after the epoch. -/
def boardDriver : Am335x Nat :=
  probed ⟨some (omapTimer 2), .pps, ⟨0, 0⟩, ⟨0, 0⟩⟩
    (fun _ => ⟨some (omapTimer 7), .extts, ⟨0, 0⟩, ⟨0, 0⟩⟩)
    ⟨0, 1000000000, 0⟩ ⟨2796202667, 26, by decide⟩

/-- File 5 asks for an output. -/
def outputOf5 : QotPerout Nat :=
  { (QotPerout.zero : QotPerout Nat) with dutyCycle := 50, ownerFile := some 5 }

/-- An output that starts at two seconds, with a period of a millisecond. -/
def inTimeCall : Am335xCall Nat :=
  .enableCompare ⟨2, 0⟩ ⟨0, 1000000000000000⟩ outputOf5 true

/-- One that was to start at half a second. -/
def pastCall : Am335xCall Nat :=
  .enableCompare ⟨0, 500000000000000000⟩ ⟨0, 1000000000000000⟩ outputOf5 true

/-- An interrupt for a match. -/
def matchCall : Am335xCall Nat :=
  .interrupt (.pin comparePin) ⟨⟨false, true, false⟩, 0, ⟨0, fun _ now => now, ⟨0, 0⟩⟩,
    ⟨0, fun _ now => now, ⟨0, 0⟩⟩⟩

theorem lock_kept_boardDriver : boardDriver.locked = false ∧ boardDriver.LockKept inTimeCall := by
  refine ⟨rfl, (lock_kept_iff rfl inTimeCall).mpr ?_⟩
  -- the start is a second ahead of the clock, and in range
  rintro ⟨-, -, -, -, -, hout⟩
  exact hout (by decide)

/-- **The driver locks up** when an output is to start in the past, and at the first interrupt of an
output that runs. -/
theorem driver_locks_up :
    (boardDriver.call pastCall).isNone = true ∧ ¬ boardDriver.LockKept pastCall
      ∧ (boardDriver.call inTimeCall).isSome = true
      ∧ (((boardDriver.call inTimeCall).bind fun p => p.call matchCall).isNone = true) := by
  refine ⟨by decide, ?_, by decide, by decide⟩
  rintro ⟨p', hcall, -⟩
  have hnone : (boardDriver.call pastCall).isNone = true := by decide
  rw [hcall] at hnone
  cases hnone

end Am335x

end Qot
