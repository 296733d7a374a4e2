import QotStack.Am335x.Lock
import QotStack.Lib.Runs
import QotStack.Sync.Conversion

/-!
# QotStack — one file at a time on the output-compare pin

A file that programs the pin holds it until it disables its output: meanwhile a request of another
file should fail and change nothing, and any request that fails should leave the pin as it was.
Three functions take part in that: `qot_am335x_timeline_enable_compare` decides who holds the pin,
`qot_am335x_perout` starts and stops the output, and the ioctls of `qot_user_chdev.c` say whose
request it is.

Three things go wrong: nobody asks whose output it is that is disabled; an owner who programs its
output anew has it stopped first, and loses the pin when the new one cannot be started; and an
output whose start is out of range leaves the driver locked. `exclusive_iff` says that these are
all.

Between two requests time passes; the interrupts, which lock the driver up (`Lock.lean`), are left
out.
-/

namespace Qot

/-! ## Requests -/

/-- A request of a process, and what it meets: whether its file has a connection, whether it can be
copied, the registered timeline with its mapping, and whether the core has a clock. -/
structure OutputRequest where
  connected : Bool
  fromUser : Bool
  timeline : Option (QotTimeline × TlTranslation)
  core : Bool
  edge : Int32
  start : Timepoint
  period : Timelength
  dutyCycle : Int32

namespace OutputRequest

/-- The timeline of a request that gets as far as the driver. -/
def admitted (req : OutputRequest) : Option (QotTimeline × TlTranslation) :=
  if req.connected = true ∧ req.fromUser = true ∧ req.core = true then req.timeline else none

def perout {φ : Type} (req : OutputRequest) (timeline : QotTimeline) (owner : Option φ) :
    QotPerout φ :=
  ⟨req.edge, req.start, req.period, req.dutyCycle, timeline, owner⟩

/-- Start and period in core time, as they are in the driver's channel. -/
def coreTimes (req : OutputRequest) (timelineImpl : TlTranslation) : PtpClockTime × PtpClockTime :=
  let core := qotusrOutputCompareEnable timelineImpl req.start req.period
  (ptpOfTimepoint core.1, ptpOfTimelength core.2)

end OutputRequest

/-- The requests, and time that passes between them. A process that disables an output says itself
who owns it. -/
inductive PinOp (φ : Type) where
  | tick (tc : Timecounter) (coreCounter pinCounter : UInt32)
  | enable (f : φ) (req : OutputRequest)
  | disable (f : φ) (owner : Option φ) (req : OutputRequest)

/-- Who holds the pin, and the output as it is programmed and as it runs. -/
structure PinState (φ : Type) where
  key : Int32
  owner : Option φ
  load : UInt32
  matchValue : UInt32
  output : Option OmapDmTimer
  deriving DecidableEq

namespace Am335x

variable {φ : Type}

def pinState (p : Am335x φ) : PinState φ :=
  ⟨p.compare.key, p.compare.perout.ownerFile, p.compare.load, p.compare.matchValue,
    (p.pins comparePin).timer⟩

/-- The counters run on. -/
def tick (p : Am335x φ) (tc : Timecounter) (coreCounter pinCounter : UInt32) : Am335x φ :=
  { p with
    tc := tc
    core.timer := p.core.timer.map fun timer => { timer with counter := coreCounter }
    pins := Function.update p.pins comparePin
      { p.pins comparePin with
        timer := (p.pins comparePin).timer.map fun timer => { timer with counter := pinCounter } } }

/-- What an ioctl makes of the driver's result. -/
def ioctlResult (outcome : Int × Am335x φ) : Int × Am335x φ :=
  (if outcome.1 ≠ 0 then -eacces else 0, outcome.2)

/-- Another file than `f` holds the pin. -/
def HeldByOther (p : Am335x φ) (f : φ) : Prop :=
  p.compare.key = 1 ∧ p.compare.perout.ownerFile ≠ some f

/-- The request of `f` returns; it fails if another file holds the pin; and if it fails it leaves
the pin as it was. -/
def ExclusiveFor (p : Am335x φ) (f : φ) (outcome : Option (Int × Am335x φ)) : Prop :=
  ∃ result p', outcome = some (result, p') ∧ (p.HeldByOther f → result ≠ 0)
    ∧ (result ≠ 0 → p'.pinState = p.pinState)

/-- Period and start are in range. -/
def Startable (p : Am335x φ) (start period : PtpClockTime) : Prop :=
  InRange (ptpToS64 period) ∧ InRange ((ptpToS64 start).toUInt64 - p.tc.nsec).toInt64

section Requests

variable [DecidableEq φ]

/-- `QOTUSR_OUTPUT_COMPARE_ENABLE` on the file `f`. -/
def outputCompareEnable (p : Am335x φ) (f : φ) (req : OutputRequest) : Option (Int × Am335x φ) :=
  match req.admitted with
  | none => some (-eacces, p)
  | some (timeline, timelineImpl) =>
    let (coreStart, corePeriod) := qotusrOutputCompareEnable timelineImpl req.start req.period
    (p.qotAm335xTimelineEnableCompare coreStart corePeriod (req.perout timeline (some f)) true).map
      ioctlResult

/-- `QOTUSR_OUTPUT_COMPARE_DISABLE`. The two times are not set, and the driver does not read
them. -/
def outputCompareDisable (p : Am335x φ) (owner : Option φ) (req : OutputRequest) :
    Option (Int × Am335x φ) :=
  match req.admitted with
  | none => some (-eacces, p)
  | some (timeline, _) =>
    (p.qotAm335xTimelineEnableCompare ⟨0, 0⟩ ⟨0, 0⟩ (req.perout timeline owner) false).map
      ioctlResult

def pinStep (p : Am335x φ) : PinOp φ → Option (Am335x φ)
  | .tick tc coreCounter pinCounter => some (p.tick tc coreCounter pinCounter)
  | .enable f req => (p.outputCompareEnable f req).map (·.2)
  | .disable _ owner req => (p.outputCompareDisable owner req).map (·.2)

def Exclusive (p : Am335x φ) : PinOp φ → Prop
  | .tick _ _ _ => True
  | .enable f req => p.ExclusiveFor f (p.outputCompareEnable f req)
  | .disable f owner req => p.ExclusiveFor f (p.outputCompareDisable owner req)

/-- The condition on a request for an output. On a free pin the start is in range, or not even the
period; an owner replaces its output only by one that can be started. -/
def StartsInRange (p : Am335x φ) (perout : QotPerout φ) (start period : PtpClockTime) : Prop :=
  (p.compare.key = 0 → p.HasTimers (.pin comparePin) → ¬ p.StartOutOfRange start period)
    ∧ (p.compare.key = 1 → p.compare.perout.ownerFile = perout.ownerFile → ¬ p.Deferred perout →
      p.Startable start period)

/-- The condition on a request: an output is started as `StartsInRange` says, and only its owner
disables it. -/
def Orderly (p : Am335x φ) : PinOp φ → Prop
  | .tick _ _ _ => True
  | .enable f req => ∀ entry ∈ req.admitted,
    p.StartsInRange (req.perout entry.1 (some f)) (req.coreTimes entry.2).1
      (req.coreTimes entry.2).2
  | .disable f _ req => req.admitted.isSome = true → ¬ p.HeldByOther f

end Requests

/-! ## Starting an output

The output starts, or the driver locks up, or the pin is given up. -/

/-- The lock is free; and the pin is free and nobody's, or it is held and has its timers. -/
structure Consistent (p : Am335x φ) : Prop where
  free : p.locked = false
  key : p.compare.key = 0 ∧ p.compare.perout.ownerFile = none
    ∨ p.compare.key = 1 ∧ p.HasTimers (.pin comparePin)

theorem consistent_probed (core : Am335xChannel) (pins : Nat → Am335xChannel) (tc : Timecounter)
    (cc : Cyclecounter) : (probed core pins tc cc : Am335x φ).Consistent :=
  ⟨rfl, Or.inl ⟨rfl, rfl⟩⟩

variable {p : Am335x φ}

theorem edged_key (timer : OmapDmTimer) : (p.edged timer).compare.key = p.compare.key := by
  unfold edged
  split <;> rfl

theorem edged_hasTimers (timer : OmapDmTimer) (id : ChannelId) :
    (p.edged timer).HasTimers id ↔ p.HasTimers id := by
  unfold edged
  split <;> cases id <;> exact Iff.rfl

/-- The pin that is given up: nobody's, with the output as it was. -/
theorem edged_released (timer : OmapDmTimer) :
    (⟨0, none, (p.edged timer).compare.load, (p.edged timer).compare.matchValue,
        ((p.edged timer).pins comparePin).timer⟩ : PinState φ)
      = ⟨0, none, p.compare.load, p.compare.matchValue, (p.pins comparePin).timer⟩ := by
  unfold edged
  split <;> rfl

theorem configure_spec (id : ChannelId) (timer core : OmapDmTimer) (ts tp duty : Int64) :
    (p.configure id timer core ts tp duty).locked = p.locked
      ∧ (p.configure id timer core ts tp duty).compare.key = p.compare.key
      ∧ (p.HasTimers id → (p.configure id timer core ts tp duty).HasTimers id) := by
  unfold configure
  refine ⟨setTimer_locked id _, ?_, fun h => ?_⟩
  · rw [setTimer_compare]
  · apply hasTimers_setTimer
    cases id <;> exact h

theorem startOrRelease_of_startable (hlocked : p.locked = false)
    (htimers : p.HasTimers (.pin comparePin))
    (hstartable : p.Startable (p.pins comparePin).start (p.pins comparePin).period) :
    ∃ p', p.startOrRelease = some (0, p') ∧ p'.locked = false ∧ p'.compare.key = p.compare.key
      ∧ p'.HasTimers (.pin comparePin) := by
  obtain ⟨timer, ht⟩ := Option.isSome_iff_exists.mp htimers.1
  obtain ⟨core, hc⟩ := Option.isSome_iff_exists.mp htimers.2
  have hperiod : InRange (ptpToS64 (p.channel (.pin comparePin)).period) := hstartable.1
  have hstart : InRange
      ((ptpToS64 (p.channel (.pin comparePin)).start).toUInt64 - p.tc.nsec).toInt64 :=
    hstartable.2
  have hperout := perout_start hlocked ht hc
  rw [if_neg (not_not.mpr hperiod), if_neg (not_not.mpr hstart)] at hperout
  obtain ⟨hfree, hkey, hconfigured⟩ :=
    configure_spec (p := p.edged timer) (.pin comparePin) timer core
    ((ptpToS64 (p.channel (.pin comparePin)).start).toUInt64 - p.tc.nsec).toInt64
    (ptpToS64 (p.channel (.pin comparePin)).period)
    (p.duty timer (ptpToS64 (p.channel (.pin comparePin)).period))
  simp only [startOrRelease, hperout, Option.bind_eq_bind, Option.bind_some, lt_irrefl, if_false]
  refine ⟨_, rfl, hfree.trans ((edged_locked timer).trans hlocked), hkey.trans (edged_key timer),
    ?_⟩
  exact hconfigured ((edged_hasTimers timer _).mpr htimers)

theorem startOrRelease_of_not_inRange (hlocked : p.locked = false)
    (h : ¬ (p.HasTimers (.pin comparePin) ∧ InRange (ptpToS64 (p.pins comparePin).period))) :
    ∃ p', p.startOrRelease = some (1, p') ∧ p'.locked = false
      ∧ p'.pinState = ⟨0, none, p.compare.load, p.compare.matchValue,
        (p.pins comparePin).timer⟩ := by
  by_cases htimers : p.HasTimers (.pin comparePin)
  · obtain ⟨timer, ht⟩ := Option.isSome_iff_exists.mp htimers.1
    obtain ⟨core, hc⟩ := Option.isSome_iff_exists.mp htimers.2
    have hperout := perout_start hlocked ht hc
    have hperiod : ¬ InRange (ptpToS64 (p.channel (.pin comparePin)).period) := fun hperiod =>
      h ⟨htimers, hperiod⟩
    rw [if_pos hperiod] at hperout
    have hneg : -einval < 0 := by decide
    simp only [startOrRelease, hperout, Option.bind_eq_bind, Option.bind_some, hneg, if_true,
      lock_of_free ((edged_locked timer).trans hlocked)]
    exact ⟨_, rfl, rfl, edged_released timer⟩
  · have hneg : -einval < 0 := by decide
    simp only [startOrRelease, perout_of_not_hasTimers htimers, Option.bind_eq_bind,
      Option.bind_some, hneg, if_true, lock_of_free hlocked]
    exact ⟨_, rfl, rfl, rfl⟩

/-- The pin taken over for a request, and the old output stopped. -/
theorem program_stopped (coreStart : Timepoint) (corePeriod : Timelength) (perout : QotPerout φ)
    (overwrite : Bool) :
    ∃ q, ({ p with compare.key := 1 }.program coreStart corePeriod perout).peroutIf overwrite
        (.pin comparePin) .eventStop = some q
      ∧ q.locked = p.locked ∧ q.compare.key = 1
      ∧ (q.HasTimers (.pin comparePin) ↔ p.HasTimers (.pin comparePin)) ∧ q.tc = p.tc
      ∧ (q.pins comparePin).start = ptpOfTimepoint coreStart
      ∧ (q.pins comparePin).period = ptpOfTimelength corePeriod
      ∧ (overwrite = false → q.compare.load = p.compare.load
        ∧ q.compare.matchValue = p.compare.matchValue
        ∧ (q.pins comparePin).timer = (p.pins comparePin).timer) := by
  have hchannel : (({ p with compare.key := 1 }.program coreStart corePeriod perout).pins
    comparePin) = _ :=
    program_channel coreStart corePeriod perout
  obtain ⟨q, hstop, hlocked, htimers, htc, hstart, hperiod, hcompare, hsame⟩ :=
    ({ p with compare.key := 1 }.program coreStart corePeriod perout).peroutIf_stop overwrite
  rw [hchannel] at hstart hperiod
  refine ⟨q, hstop, hlocked, congrArg Am335xCompare.key hcompare, ?_, htc, hstart, hperiod, ?_⟩
  · rw [htimers, HasTimers, program_channel]
    exact Iff.rfl
  · intro hoverwrite
    rw [hsame hoverwrite, hchannel]
    exact ⟨rfl, rfl, rfl⟩

/-- The outcomes of a request that is neither refused nor deferred. -/
theorem program_cases (hlocked : p.locked = false) (coreStart : Timepoint) (corePeriod : Timelength)
    (perout : QotPerout φ) (overwrite : Bool) {outcome : Option (Int × Am335x φ)}
    (houtcome : (({ p with compare.key := 1 }.program coreStart corePeriod perout).peroutIf
      overwrite
      (.pin comparePin) .eventStop).bind startOrRelease = outcome) :
    (∃ p', outcome = some (0, p') ∧ p'.Consistent
        ∧ p.Startable (ptpOfTimepoint coreStart) (ptpOfTimelength corePeriod))
      ∨ outcome = none ∧ p.HasTimers (.pin comparePin)
        ∧ p.StartOutOfRange (ptpOfTimepoint coreStart) (ptpOfTimelength corePeriod)
      ∨ ∃ p', outcome = some (1, p') ∧ p'.Consistent ∧ p'.compare.key = 0
        ∧ (overwrite = false → p'.pinState
          = ⟨0, none, p.compare.load, p.compare.matchValue, (p.pins comparePin).timer⟩)
        ∧ ¬ (p.HasTimers (.pin comparePin) ∧ InRange (ptpToS64 (ptpOfTimelength corePeriod))) := by
  obtain ⟨q, hstop, hfree, hkey, htimers, htc, hstart, hperiod, hsame⟩ :=
    program_stopped (p := p) coreStart corePeriod perout overwrite
  rw [hstop, Option.bind_some] at houtcome
  have hlocked' := hfree.trans hlocked
  by_cases h : p.HasTimers (.pin comparePin) ∧ InRange (ptpToS64 (ptpOfTimelength corePeriod))
  · have hq := htimers.mpr h.1
    by_cases hin : InRange ((ptpToS64 (ptpOfTimepoint coreStart)).toUInt64 - p.tc.nsec).toInt64
    · -- the output is started
      have hstartable : q.Startable (q.pins comparePin).start (q.pins comparePin).period := by
        rw [Startable, htc, hstart, hperiod]
        exact ⟨h.2, hin⟩
      obtain ⟨p', hp', hfree', hkey', htimers'⟩ :=
        startOrRelease_of_startable hlocked' hq hstartable
      exact Or.inl ⟨p', houtcome ▸ hp', ⟨hfree', Or.inr ⟨hkey'.trans hkey, htimers'⟩⟩, h.2, hin⟩
    · -- the lock is not released on this way out
      have hout : q.StartOutOfRange (q.pins comparePin).start (q.pins comparePin).period := by
        rw [StartOutOfRange, htc, hstart, hperiod]
        exact ⟨h.2, hin⟩
      have hnone := startOrRelease_of_startOutOfRange hlocked' ⟨hq, hout⟩
      exact Or.inr (Or.inl ⟨houtcome ▸ hnone, h.1, h.2, hin⟩)
  · -- the start is refused, and the pin is free again
    have h' := h
    rw [← htimers, ← hperiod] at h'
    obtain ⟨p', hp', hfree', hstate⟩ := startOrRelease_of_not_inRange hlocked' h'
    have hkey' : p'.compare.key = 0 := congrArg PinState.key hstate
    have howner : p'.compare.perout.ownerFile = none := congrArg PinState.owner hstate
    refine Or.inr (Or.inr ⟨p', houtcome ▸ hp', ⟨hfree', Or.inl ⟨hkey', howner⟩⟩, hkey', ?_, h⟩)
    intro hoverwrite
    obtain ⟨hload, hmatch, htimer⟩ := hsame hoverwrite
    rw [hstate, hload, hmatch, htimer]

/-! ## Requests -/

theorem Consistent.enableCompareOff (hp : p.Consistent) {result : Int} {p' : Am335x φ}
    (h : p.enableCompareOff = some (result, p')) : p'.Consistent := by
  rw [enableCompareOff_eq hp.free] at h
  split at h
  · cases h
    exact hp
  · obtain ⟨_, q, hstop, hlocked, -, -, -, -, hcompare⟩ := perout_stop
      { p with
        compare := { p.compare with
          key := 0
          perout := { p.compare.perout with ownerFile := none }
          reprogramFlag := false } } (.pin comparePin)
    rw [hstop] at h
    cases h
    refine ⟨hlocked.trans hp.free, Or.inl ?_⟩
    rw [hcompare]
    exact ⟨rfl, rfl⟩

/-- What a request to turn the output off needs: it succeeds whenever the pin is held, by whom it
may. -/
theorem exclusiveFor_enableCompareOff (hp : p.Consistent) (f : φ) :
    p.ExclusiveFor f p.enableCompareOff ↔ ¬ p.HeldByOther f := by
  rw [enableCompareOff_eq hp.free]
  rcases hp.key with ⟨hkey, -⟩ | ⟨hkey, htimers⟩
  · have hne : p.compare.key ≠ 1 := by
      rw [hkey]
      decide
    rw [if_pos hne]
    exact ⟨fun _ h => hne h.1, fun _ => ⟨1, p, rfl, fun _ => by decide, fun _ => rfl⟩⟩
  · obtain ⟨timer, ht⟩ := Option.isSome_iff_exists.mp htimers.1
    obtain ⟨core, hc⟩ := Option.isSome_iff_exists.mp htimers.2
    rw [if_neg (not_not.mpr hkey), qotAm335xPerout]
    have ht' : (({ p with
        compare := { p.compare with
          key := 0
          perout := { p.compare.perout with ownerFile := none }
          reprogramFlag := false } } : Am335x φ).channel (.pin comparePin)).timer = some timer := ht
    simp only [ht', hc, Option.map_some, lt_irrefl, if_false]
    constructor
    · rintro ⟨result, p', h, hfails, -⟩ hother
      cases h
      exact hfails hother rfl
    · exact fun hown => ⟨_, _, rfl, fun h => absurd h hown, fun h => absurd rfl h⟩

section Requests

variable [DecidableEq φ] {perout : QotPerout φ}

theorem Consistent.enableCompareOn (hp : p.Consistent) {coreStart : Timepoint}
    {corePeriod : Timelength} {result : Int} {p' : Am335x φ}
    (h : p.enableCompareOn coreStart corePeriod perout = some (result, p')) : p'.Consistent := by
  rw [enableCompareOn_eq hp.free] at h
  split at h
  · cases h
    exact hp
  · split at h
    · split at h
      · cases h
        exact hp
      · next hdeferred _ =>
        cases h
        -- only the values change, and who they are for: the pin was held already
        refine ⟨hp.free, hp.key.imp_left fun hkey => ?_⟩
        exact absurd (hkey.1.symm.trans hdeferred.1) (by decide)
    · rcases program_cases hp.free coreStart corePeriod perout _ h with ⟨q, hq, hconsistent, -⟩
        | ⟨hnone, -⟩ | ⟨q, hq, hconsistent, -⟩
      · cases hq
        exact hconsistent
      · cases hnone
      · cases hq
        exact hconsistent

/-- A request for an output, on a free pin. -/
theorem exclusiveFor_of_free (hp : p.Consistent) (hkey : p.compare.key = 0) (f : φ)
    (perout : QotPerout φ) (coreStart : Timepoint) (corePeriod : Timelength) :
    p.ExclusiveFor f (p.enableCompareOn coreStart corePeriod perout)
      ↔ (p.HasTimers (.pin comparePin) →
        ¬ p.StartOutOfRange (ptpOfTimepoint coreStart) (ptpOfTimelength corePeriod)) := by
  have hne : p.compare.key ≠ 1 := by
    rw [hkey]
    decide
  have howner : p.compare.perout.ownerFile = none := by
    rcases hp.key with h | h
    · exact h.2
    · exact absurd h.1 hne
  have hfree : ∀ result, p.HeldByOther f → result ≠ (0 : Int) := fun _ h => absurd h.1 hne
  rw [enableCompareOn_eq hp.free, if_neg fun h : p.Refused perout => h.1 hkey,
    if_neg fun h : p.Deferred perout => hne h.1]
  rcases program_cases hp.free coreStart corePeriod perout _ rfl with ⟨p', hp', -, hstartable⟩
    | ⟨hnone, htimers, hout⟩ | ⟨p', hp', -, -, hstate, hout⟩
  · rw [hp']
    exact ⟨fun _ _ h => h.2 hstartable.2, fun _ => ⟨0, p', rfl, hfree 0, fun h => absurd rfl h⟩⟩
  · rw [hnone]
    exact ⟨(fun ⟨_, _, h, _⟩ => nomatch h), fun h => absurd hout (h htimers)⟩
  · rw [hp']
    refine ⟨fun _ htimers h => hout ⟨htimers, h.1⟩, fun _ => ⟨1, p', rfl, hfree 1, fun _ => ?_⟩⟩
    rw [hstate (decide_eq_false hne), pinState, hkey, howner]

/-- A request for an output, on a pin that is held. -/
theorem exclusiveFor_of_held (hp : p.Consistent) (hkey : p.compare.key = 1) {f : φ}
    (hf : perout.ownerFile = some f) (coreStart : Timepoint) (corePeriod : Timelength) :
    p.ExclusiveFor f (p.enableCompareOn coreStart corePeriod perout)
      ↔ (p.compare.perout.ownerFile = perout.ownerFile → ¬ p.Deferred perout →
        p.Startable (ptpOfTimepoint coreStart) (ptpOfTimelength corePeriod)) := by
  have hne : p.compare.key ≠ 0 := by
    rw [hkey]
    decide
  have htimers : p.HasTimers (.pin comparePin) := by
    rcases hp.key with h | h
    · exact absurd h.1 hne
    · exact h.2
  have hunchanged : p.ExclusiveFor f (some (1, p)) := ⟨1, p, rfl, fun _ => by decide, fun _ => rfl⟩
  rw [enableCompareOn_eq hp.free]
  by_cases howner : p.compare.perout.ownerFile = perout.ownerFile
  · have hown : ¬ p.HeldByOther f := fun h => h.2 (howner.trans hf)
    have hsucceeds : ∀ p', p.ExclusiveFor f (some (0, p')) := fun p' =>
      ⟨0, p', rfl, fun h => absurd h hown, fun h => absurd rfl h⟩
    rw [if_neg fun h : p.Refused perout => h.2 howner]
    by_cases hdeferred : p.Deferred perout
    · rw [if_pos hdeferred]
      refine ⟨fun _ _ h => absurd hdeferred h, fun _ => ?_⟩
      split
      · exact hunchanged
      · exact hsucceeds _
    · rw [if_neg hdeferred]
      rcases program_cases hp.free coreStart corePeriod perout _ rfl with ⟨p', hp', -, hstartable⟩
        | ⟨hnone, -, hout⟩ | ⟨p', hp', -, hkey', -, hout⟩
      · rw [hp']
        exact ⟨fun _ _ _ => hstartable, fun _ => hsucceeds p'⟩
      · rw [hnone]
        exact ⟨(fun ⟨_, _, h, _⟩ => nomatch h), fun h => absurd (h howner hdeferred).2 hout.2⟩
      · -- the old output is stopped by now, and the pin has been given up
        rw [hp']
        refine ⟨?_, fun h => absurd ⟨htimers, (h howner hdeferred).1⟩ hout⟩
        rintro ⟨result, q, h, -, hsame⟩
        cases h
        have hlost : p'.compare.key = p.compare.key := congrArg PinState.key (hsame (by decide))
        exact absurd (hkey.symm.trans (hlost.symm.trans hkey')) (by decide)
  · have hrefused : p.Refused perout := ⟨hne, howner⟩
    rw [if_pos hrefused]
    exact ⟨fun _ h => absurd h howner, fun _ => hunchanged⟩

/-- What a request for an output needs, whoever makes it and whatever it is for. -/
theorem exclusiveFor_enableCompareOn (hp : p.Consistent) {f : φ} (hf : perout.ownerFile = some f)
    (coreStart : Timepoint) (corePeriod : Timelength) :
    p.ExclusiveFor f (p.enableCompareOn coreStart corePeriod perout)
      ↔ p.StartsInRange perout (ptpOfTimepoint coreStart) (ptpOfTimelength corePeriod) := by
  rcases hp.key with ⟨hkey, -⟩ | ⟨hkey, -⟩
  · rw [exclusiveFor_of_free hp hkey f perout]
    refine ⟨fun h => ⟨fun _ => h, fun h1 => ?_⟩, fun h => h.1 hkey⟩
    exact absurd (hkey.symm.trans h1) (by decide)
  · rw [exclusiveFor_of_held hp hkey hf]
    refine ⟨fun h => ⟨fun h0 => ?_, fun _ => h⟩, fun h => h.2 hkey⟩
    exact absurd (h0.symm.trans hkey) (by decide)

/-! ## The ioctls -/

omit [DecidableEq φ] in
theorem exclusiveFor_map_ioctlResult (f : φ) (outcome : Option (Int × Am335x φ)) :
    p.ExclusiveFor f (outcome.map ioctlResult) ↔ p.ExclusiveFor f outcome := by
  have hfails : ∀ o : Int × Am335x φ, (ioctlResult o).1 ≠ 0 ↔ o.1 ≠ 0 := by
    intro o
    by_cases h : o.1 = 0 <;> simp [ioctlResult, h, eacces]
  constructor
  · rintro ⟨result, p', h, hother, hsame⟩
    obtain ⟨o, rfl, ho⟩ := Option.map_eq_some_iff.mp h
    cases ho
    exact ⟨o.1, o.2, rfl, fun h => (hfails o).mp (hother h), fun h => hsame ((hfails o).mpr h)⟩
  · rintro ⟨result, p', rfl, hother, hsame⟩
    refine ⟨_, _, rfl, fun h => (hfails (result, p')).mpr (hother h), fun h => ?_⟩
    exact hsame ((hfails (result, p')).mp h)

omit [DecidableEq φ] in
/-- A request that does not get as far as the driver. -/
theorem exclusiveFor_eacces (p : Am335x φ) (f : φ) : p.ExclusiveFor f (some (-eacces, p)) :=
  ⟨_, p, rfl, fun _ => by decide, fun _ => rfl⟩

theorem Consistent.pinStep (hp : p.Consistent) {op : PinOp φ} {p' : Am335x φ}
    (h : p.pinStep op = some p') : p'.Consistent := by
  cases op with
  | tick tc coreCounter pinCounter =>
    cases h
    refine ⟨hp.free, hp.key.imp_right fun ⟨hkey, htimers⟩ => ⟨hkey, ?_, ?_⟩⟩
    · simp only [Am335x.tick, channel, Function.update_self, Option.isSome_map]
      exact htimers.1
    · simp only [Am335x.tick, Option.isSome_map]
      exact htimers.2
  | enable f req =>
    obtain ⟨⟨result, q⟩, hq, rfl⟩ := Option.map_eq_some_iff.mp h
    unfold outputCompareEnable at hq
    split at hq
    · cases hq
      exact hp
    · obtain ⟨o, ho, hresult⟩ := Option.map_eq_some_iff.mp hq
      cases hresult
      exact hp.enableCompareOn ho
  | disable f owner req =>
    obtain ⟨⟨result, q⟩, hq, rfl⟩ := Option.map_eq_some_iff.mp h
    unfold outputCompareDisable at hq
    split at hq
    · cases hq
      exact hp
    · obtain ⟨o, ho, hresult⟩ := Option.map_eq_some_iff.mp hq
      cases hresult
      exact hp.enableCompareOff ho

theorem exclusive_iff_orderly (hp : p.Consistent) (op : PinOp φ) :
    p.Exclusive op ↔ p.Orderly op := by
  cases op with
  | tick tc coreCounter pinCounter => exact Iff.rfl
  | enable f req =>
    show p.ExclusiveFor f (p.outputCompareEnable f req) ↔ ∀ entry ∈ req.admitted,
      p.StartsInRange (req.perout entry.1 (some f)) (req.coreTimes entry.2).1
        (req.coreTimes entry.2).2
    unfold outputCompareEnable
    split
    · next hnone => exact ⟨fun _ => by simp [hnone], fun _ => exclusiveFor_eacces p f⟩
    · next timeline timelineImpl hsome =>
      rw [exclusiveFor_map_ioctlResult, hsome]
      refine (exclusiveFor_enableCompareOn hp rfl _ _).trans ?_
      simp only [Option.mem_def, Option.some.injEq, forall_eq']
      exact Iff.rfl
  | disable f owner req =>
    show p.ExclusiveFor f (p.outputCompareDisable owner req)
      ↔ (req.admitted.isSome = true → ¬ p.HeldByOther f)
    unfold outputCompareDisable
    split
    · next hnone => exact ⟨fun _ => by simp [hnone], fun _ => exclusiveFor_eacces p f⟩
    · next timeline timelineImpl hsome =>
      rw [exclusiveFor_map_ioctlResult, hsome]
      refine (exclusiveFor_enableCompareOff hp f).trans ?_
      exact ⟨fun h _ => h, fun h => h rfl⟩

/-- **The pin is one file's at a time exactly as long as every request is orderly.** For every
driver that has been set up, with any timers, and every sequence of requests from any files, with
any start, period and duty cycle and whatever time passes between them: every request returns, fails
if another file holds the pin, and leaves key, owner and output as they were if it fails, if and
only if no output that could be started but for its start is asked for on a free pin, no owner
replaces its output by one that cannot be started, and no file disables the output of another. -/
theorem exclusive_iff (core : Am335xChannel) (pins : Nat → Am335xChannel) (tc : Timecounter)
    (cc : Cyclecounter) (ops : List (PinOp φ)) :
    Runs.AllSteps pinStep Exclusive (probed core pins tc cc) ops
      ↔ Runs.AllSteps pinStep Orderly (probed core pins tc cc) ops :=
  Runs.allSteps_iff_of_inv (J := Consistent) (fun _ op hp => exclusive_iff_orderly hp op)
    (fun _ _ _ hp _ h => hp.pinStep h) (consistent_probed core pins tc cc)

end Requests

/-- A request on a timeline that is not scaled, to start at two seconds. -/
def requestAt2 (period : Timelength) : OutputRequest :=
  ⟨true, true, some (QotPerout.zero (φ := Nat).timeline, initTranslation), true, 1,
    ⟨2, 0⟩, period, 50⟩

/-- An output with a period of a millisecond. -/
def requestMs : OutputRequest := requestAt2 ⟨0, 1000000000000000⟩

/-- One with a period of a thousand seconds, which is too long. -/
def requestLong : OutputRequest := requestAt2 ⟨1000, 0⟩

/-- **The pin is not the owner's.** File 6 disables the output of file 5, and succeeds; and when
file 5 asks for a period that is too long it fails, and has lost the pin and the output it had. -/
theorem pin_taken_away :
    ((boardDriver.pinStep (.enable 5 requestMs)).map fun p =>
        (p.pinState.key, p.pinState.owner, p.pinState.output.map (·.running)))
      = some (1, some 5, some true)
    ∧ ((boardDriver.pinStep (.enable 5 requestMs)).bind fun p =>
        (p.outputCompareDisable none requestMs).map fun o =>
          (o.1, o.2.pinState.key, o.2.pinState.owner, o.2.pinState.output.map (·.running)))
      = some (0, 0, none, some false)
    ∧ ((boardDriver.pinStep (.enable 5 requestMs)).bind fun p =>
        (p.outputCompareEnable 5 requestLong).map fun o =>
          (o.1, o.2.pinState.key, o.2.pinState.owner, o.2.pinState.output.map (·.running)))
      = some (-13, 0, none, some false)
    ∧ ¬ Runs.AllSteps pinStep Exclusive boardDriver
      [.enable 5 requestMs, .disable 6 none requestMs] := by
  refine ⟨by decide, by decide, by decide, fun h => ?_⟩
  have hend : ((boardDriver.pinStep (.enable 5 requestMs)).any fun p => decide (p.compare.key = 1
      ∧ p.compare.perout.ownerFile = some 5
      ∧ (p.outputCompareDisable none requestMs).map (·.1) = some 0)) = true := by decide
  simp only [Option.any_eq_true, decide_eq_true_eq] at hend
  obtain ⟨p, hp, hkey, howner, hzero⟩ := hend
  obtain ⟨result, p', hresult, hfails, -⟩ := (h.2 p hp).1
  rw [hresult] at hzero
  refine hfails ⟨hkey, ?_⟩ (Option.some.inj hzero)
  rw [howner]
  decide

end Am335x

end Qot
