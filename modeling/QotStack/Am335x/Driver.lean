import Mathlib.Logic.Function.Basic
import QotStack.Registry.Bind
import QotStack.Types.Time

/-!
# QotStack — the output-compare pin of the am335x clock (`qot_am335x.c`)

The driver keeps time with a free-running counter, and drives a pin with a second timer: it runs
from a load value up to an overflow, and the pin toggles at the overflow and at a match value in
between. One file at a time may program the pin (`qot_am335x_timeline_enable_compare`); the start is
converted from core time to the counter, the period and the duty cycle to the two register values
(`qot_am335x_perout`). At a match or an overflow an interrupt tells the file's owner
(`qot_am335x_interrupt`).

All of them share one spin lock, which the state has as `locked`. To acquire it while it is held is
a deadlock: such a call has no result.

The PTP clock, the scheduler's timer and captures are left out, as are the log messages.
-/

namespace Qot

/-! ## The hardware -/

/-- A timer of the chip: which interrupts it raises, its pulse output, its registers, and whether it
counts. -/
structure OmapDmTimer where
  id : Nat
  intOverflow : Bool
  intMatch : Bool
  pwmOn : Int32
  load : UInt32
  matchValue : UInt32
  running : Bool
  counter : UInt32
  deriving DecidableEq, Repr

def comparePin : Nat := 2

def compareTimer : Nat := 7

def am335xRewriteDelay : UInt32 := 13

def einval : Int := 22

/-- The kernel's `struct timecounter` and `struct cyclecounter`: the time at the last reading of the
counter, and how cycles are scaled. -/
structure Timecounter where
  cycleLast : UInt64
  nsec : UInt64
  frac : UInt64
  deriving DecidableEq, Repr

structure Cyclecounter where
  mult : UInt32
  shift : UInt32
  mult_ne : mult ≠ 0
  deriving DecidableEq

/-- `timecounter_read`, when the counter of 32 bits shows `cycleNow`. -/
def timecounterRead (tc : Timecounter) (cc : Cyclecounter) (cycleNow : UInt64) : Timecounter :=
  let cycleDelta := (cycleNow - tc.cycleLast) &&& 0xffffffff
  let ns := cycleDelta * cc.mult.toUInt64 + tc.frac
  ⟨cycleNow, tc.nsec + (ns >>> cc.shift.toUInt64), ns &&& ((1 <<< cc.shift.toUInt64) - 1)⟩

/-! ## The driver's data -/

def ptpToS64 (t : PtpClockTime) : Int64 := t.sec * 1000000000 + t.nsec.toUInt64.toInt64

def ptpOfTimepoint (t : Timepoint) : PtpClockTime := ⟨t.sec, (t.asec / 1000000000).toUInt32⟩

def ptpOfTimelength (t : Timelength) : PtpClockTime :=
  ⟨t.sec.toInt64, (t.asec / 1000000000).toUInt32⟩

inductive PtpRequestType where
  | extts
  | perout
  | pps
  deriving DecidableEq, Repr

structure Am335xChannel where
  timer : Option OmapDmTimer
  type : PtpRequestType
  start : PtpClockTime
  period : PtpClockTime
  deriving DecidableEq, Repr

/-- The request for a periodic output (`qot_perout_t`). -/
structure QotPerout (φ : Type) where
  edge : Int32
  start : Timepoint
  period : Timelength
  dutyCycle : Int32
  timeline : QotTimeline
  ownerFile : Option φ
  deriving DecidableEq

/-- `struct qot_am335x_compare_interface`. The callback is `qot_perout_notify` once it is set. -/
structure Am335xCompare (φ : Type) where
  perout : QotPerout φ
  load : UInt32
  matchValue : UInt32
  key : Int32
  reprogramFlag : Bool
  callback : Bool
  deriving DecidableEq

/-- `struct qot_am335x_data`. -/
structure Am335x (φ : Type) where
  locked : Bool
  core : Am335xChannel
  pins : Nat → Am335xChannel
  tc : Timecounter
  cc : Cyclecounter
  compare : Am335xCompare φ

/-- A channel is the core's or a pin's. -/
inductive ChannelId where
  | core
  | pin (index : Nat)
  deriving DecidableEq, Repr

structure IrqStatus where
  capture : Bool
  matched : Bool
  overflow : Bool
  deriving DecidableEq, Repr

/-- What an event of the timer meets: the counter, what the callback makes of a time stamp, and what
is in the local variable if there is no callback. -/
structure IrqEnv (φ : Type) where
  cycleNow : UInt64
  callback : QotPerout φ → Timepoint → Timepoint
  garbage : Timepoint

/-- The events of a pin (`enum qot_am335x_events`). -/
inductive Am335xEvent (φ : Type) where
  | eventMatch (env : IrqEnv φ)
  | eventOverflow (env : IrqEnv φ)
  | eventStart
  | eventStop

/-- The least and the largest period, in nanoseconds. The bounds are unsigned, and so is the
comparison. -/
abbrev InRange (ns : Int64) : Prop := 1000 ≤ ns.toUInt64 ∧ ns.toUInt64 ≤ 100000000000

/-- A request with all bytes zero. -/
def QotPerout.zero {φ : Type} : QotPerout φ :=
  ⟨0, ⟨0, 0⟩, ⟨0, 0⟩, 0, ⟨⟨[], by decide, by decide⟩, 0, .qotTimelineLocal⟩, none⟩

namespace Am335x

variable {φ : Type}

/-- The driver when it has been set up. -/
def probed (core : Am335xChannel) (pins : Nat → Am335xChannel) (tc : Timecounter)
    (cc : Cyclecounter) :
    Am335x φ :=
  ⟨false, core, pins, tc, cc, ⟨QotPerout.zero, 0, 0, 0, false, false⟩⟩

/-! ## The lock -/

/-- `raw_spin_lock_irqsave`. -/
def lock (p : Am335x φ) : Option (Am335x φ) :=
  if p.locked then none else some { p with locked := true }

def unlock (p : Am335x φ) : Am335x φ := { p with locked := false }

/-! ## The output -/

def channel (p : Am335x φ) : ChannelId → Am335xChannel
  | .core => p.core
  | .pin index => p.pins index

def setTimer (p : Am335x φ) (id : ChannelId) (timer : OmapDmTimer) : Am335x φ :=
  match id with
  | .core => { p with core.timer := some timer }
  | .pin index =>
    { p with pins := Function.update p.pins index { p.pins index with timer := some timer } }

def qotAm335xOverflow (p : Am335x φ) (cycleNow : UInt64) : Am335x φ :=
  { p with tc := timecounterRead p.tc p.cc cycleNow }

def qotAm335xReadTime (p : Am335x φ) (cycleNow : UInt64) : Option (Timepoint × Am335x φ) :=
  p.lock.map fun p =>
    let p := p.qotAm335xOverflow cycleNow
    (tpFromNsec p.tc.nsec.toInt64, p.unlock)

/-- A number of nanoseconds in cycles. -/
def cycles (p : Am335x φ) (ns : Int64) : UInt64 :=
  ((ns.toUInt64 <<< p.cc.shift.toUInt64) + p.tc.frac) / p.cc.mult.toUInt64

/-- Call back, if there is a callback, with the time. -/
def notify (p : Am335x φ) (env : IrqEnv φ) : Option (Timepoint × Am335x φ) :=
  if p.compare.callback then
    (p.qotAm335xReadTime env.cycleNow).map fun (now, p) => (env.callback p.compare.perout now, p)
  else some (env.garbage, p)

/-- At a match new values are written, if the new start is less than a period away. -/
def rewrite (p : Am335x φ) (id : ChannelId) (timer : OmapDmTimer) (eventCoreTimestamp : Timepoint) :
    Am335x φ :=
  let perout := p.compare.perout
  -- the macro has no brackets: of the period only the seconds are subtracted
  let before := (tpToNsec perout.start).toUInt64 - perout.period.sec * nSecPerSec
    + perout.period.asec / nSecPerSec
  if p.compare.reprogramFlag = true ∧ before < (tpToNsec eventCoreTimestamp).toUInt64 then
    p.setTimer id
      { timer with
        load := -p.compare.load
        matchValue := -p.compare.matchValue
        running := true
        counter := -p.compare.matchValue + am335xRewriteDelay }
  else p

/-- A timer that is not the compare timer has one duty cycle and one edge. -/
def edged (p : Am335x φ) (timer : OmapDmTimer) : Am335x φ :=
  if timer.id = compareTimer then p else { p with compare.perout.edge := 1 }

def duty (p : Am335x φ) (timer : OmapDmTimer) (tp : Int64) : Int64 :=
  if timer.id = compareTimer then tp * (100 - p.compare.perout.dutyCycle.toInt64) / 100
  else tp * 99 / 100

/-- The registers for an output of period `tp` that starts in `ts`. -/
def configure (p : Am335x φ) (id : ChannelId) (timer core : OmapDmTimer) (ts tp duty : Int64) :
    Am335x φ :=
  let offset := (p.cycles ts).toUInt32 + p.tc.cycleLast.toUInt32
  let load := (p.cycles tp).toUInt32
  let matchValue := (p.cycles duty).toUInt32
  { p with compare.load := load, compare.matchValue := matchValue }.setTimer id
    { timer with
      intOverflow := true
      intMatch := true
      pwmOn := p.compare.perout.edge - 1
      load := -load
      matchValue := -matchValue
      running := true
      counter := core.counter - offset + am335xRewriteDelay }

def peroutStart (p : Am335x φ) (id : ChannelId) (timer core : OmapDmTimer) :
    Option (Int × Am335x φ) :=
  let ts := ptpToS64 (p.channel id).start
  let tp := ptpToS64 (p.channel id).period
  let duty := p.duty timer tp
  let p := p.edged timer
  if ¬ InRange tp then some (-einval, p)
  else
    p.lock.map fun p =>
      let ts := (ts.toUInt64 - p.tc.nsec).toInt64
      -- returns with the lock
      if ¬ InRange ts then (-einval, p)
      else (0, p.unlock.configure id timer core ts tp duty)

def stopped (p : Am335x φ) (id : ChannelId) (timer : OmapDmTimer) : Am335x φ :=
  p.setTimer id { timer with intOverflow := false, intMatch := false, running := false }

def qotAm335xPerout (p : Am335x φ) (id : ChannelId) (event : Am335xEvent φ) :
    Option (Int × Am335x φ) :=
  match (p.channel id).timer, p.core.timer with
  | some timer, some core =>
    match event with
    | .eventMatch env =>
      (p.notify env).map fun (eventCoreTimestamp, p) => (0, p.rewrite id timer eventCoreTimestamp)
    | .eventOverflow env =>
      if timer.id = compareTimer then (p.notify env).map fun (_, p) => (0, p) else some (0, p)
    | .eventStart => p.peroutStart id timer core
    | .eventStop => some (0, p.stopped id timer)
  | _, _ => some (-einval, p)

/-- An event whose result is not looked at, if it is to be handled. -/
def peroutIf (p : Am335x φ) (wanted : Bool) (id : ChannelId) (event : Am335xEvent φ) :
    Option (Am335x φ) :=
  if wanted then (p.qotAm335xPerout id event).map (·.2) else some p

/-! ## The interrupt -/

/-- What an interrupt finds: the counter at its end, and at the two events. -/
structure Irq (φ : Type) where
  status : IrqStatus
  cycleNow : UInt64
  atMatch : IrqEnv φ
  atOverflow : IrqEnv φ

/-- The interrupt of a periodic output. -/
def peroutInterrupt (p : Am335x φ) (id : ChannelId) (irq : Irq φ) : Option (Am335x φ) :=
  (p.peroutIf irq.status.matched id (.eventMatch irq.atMatch)).bind fun p =>
    (p.peroutIf irq.status.overflow id (.eventOverflow irq.atOverflow)).map fun p =>
      p.qotAm335xOverflow irq.cycleNow

/-- What the interrupt does with the lock held. -/
def handleIrq (p : Am335x φ) (id : ChannelId) (irq : Irq φ) : Option (Am335x φ) :=
  match (p.channel id).type with
  | .extts => some (if irq.status.capture then p.qotAm335xOverflow irq.cycleNow else p)
  | .perout => p.peroutInterrupt id irq
  | .pps =>
    some (if irq.status.matched || irq.status.overflow then p.qotAm335xOverflow irq.cycleNow else p)

def qotAm335xInterrupt (p : Am335x φ) (id : ChannelId) (irq : Irq φ) : Option (Am335x φ) :=
  p.lock.bind fun p => (p.handleIrq id irq).map unlock

/-! ## Requests -/

/-- A periodic output that is asked for through the PTP clock (`qot_am335x_enable`). -/
def qotAm335xEnable (p : Am335x φ) (index : Nat) (start period : PtpClockTime) (on : Bool) :
    Option (Int × Am335x φ) :=
  { p with
    pins := Function.update p.pins index
      { p.pins index with type := .perout, start := start, period := period } }.qotAm335xPerout
    (.pin index) (if on then .eventStart else .eventStop)

/-- The new values of an output that runs, for `rewrite`. The duty cycle is still that of the old
one. -/
def reprogram (p : Am335x φ) (tp : Int64) (perout : QotPerout φ) : Am335x φ :=
  let tp := (p.cycles tp).toInt64
  let duty := tp * (100 - p.compare.perout.dutyCycle.toInt64) / 100
  { p with
    compare := { p.compare with
      load := tp.toUInt64.toUInt32
      matchValue := duty.toUInt64.toUInt32
      perout := perout
      reprogramFlag := true } }

/-- Take the request over. -/
def program (p : Am335x φ) (coreStart : Timepoint) (corePeriod : Timelength)
    (perout : QotPerout φ) :
    Am335x φ :=
  { p with
    compare := { p.compare with callback := true, perout := perout }
    pins := Function.update p.pins comparePin
      { p.pins comparePin with
        type := .perout
        start := ptpOfTimepoint coreStart
        period := ptpOfTimelength corePeriod } }

/-- Give the pin up again when the output could not be started. -/
def startOrRelease (p : Am335x φ) : Option (Int × Am335x φ) := do
  let (result, p) ← p.qotAm335xPerout (.pin comparePin) .eventStart
  if result < 0 then
    let p ← p.lock
    return (1, { p with compare.perout.ownerFile := none, compare.key := 0 }.unlock)
  else return (0, p)

section Request

variable [DecidableEq φ]

/-- The pin is another file's. -/
abbrev Refused (p : Am335x φ) (perout : QotPerout φ) : Prop :=
  p.compare.key ≠ 0 ∧ p.compare.perout.ownerFile ≠ perout.ownerFile

/-- The output runs, and is to change later. -/
abbrev Deferred (p : Am335x φ) (perout : QotPerout φ) : Prop :=
  p.compare.key = 1
    ∧ (tpToNsec p.compare.perout.start).toUInt64 < (tpToNsec perout.start).toUInt64

/-- The branch of `qot_am335x_timeline_enable_compare` for `on`. -/
def enableCompareOn (p : Am335x φ) (coreStart : Timepoint) (corePeriod : Timelength)
    (perout : QotPerout φ) : Option (Int × Am335x φ) := do
  let p ← p.lock
  if p.Refused perout then return (1, p.unlock)
  else if p.Deferred perout then
    let tp := (tlToNsec corePeriod).toInt64
    if ¬ InRange tp then return (1, p.unlock)
    else return (0, (p.reprogram tp perout).unlock)
  else
    let overwriteRequest := p.compare.key = 1
    let p := ({ p with compare.key := 1 }.unlock).program coreStart corePeriod perout
    let p ← p.peroutIf overwriteRequest (.pin comparePin) .eventStop
    p.startOrRelease

/-- The branch for off. -/
def enableCompareOff (p : Am335x φ) : Option (Int × Am335x φ) := do
  let p ← p.lock
  if p.compare.key ≠ 1 then return (1, p.unlock)
  else
    let p := { p with
      compare := { p.compare with
        key := 0
        perout := { p.compare.perout with ownerFile := none }
        reprogramFlag := false } }.unlock
    let (result, p) ← p.qotAm335xPerout (.pin comparePin) .eventStop
    return (if result < 0 then 1 else 0, p)

def qotAm335xTimelineEnableCompare (p : Am335x φ) (coreStart : Timepoint) (corePeriod : Timelength)
    (perout : QotPerout φ) (on : Bool) : Option (Int × Am335x φ) :=
  if on then p.enableCompareOn coreStart corePeriod perout else p.enableCompareOff

end Request

end Am335x

end Qot
