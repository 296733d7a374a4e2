import QotStack.Clock.Syscall
import QotStack.Sync.Conversion

/-!
# QotStack — local and global timelines as one kind of clock

A local timeline and a global one are steered through two sets of device functions, written
separately over separate parameters: `qot_timeline_chdev_*` with the core clock below them, and
`qot_timeline_gl_chdev_*` with `qot_clock_gl_*` and `CLOCK_REALTIME`. The module runs both side by
side: the same calls, with the same arguments, at the same readings.

* `adjtime` and `gettime` obey one contract: `chdevAdjtime_spec` gives the return code from the
  `timex` record alone, `SameMapping.adjtime` keeps the mappings equal;
* `settime` does not: the global one reports an error after it has set the clock.

`clock_contract_iff` puts this over whole runs.
-/

namespace Qot

open MachineInt

/-! ## Reading the base clocks -/

/-- The kernel's `ns_to_timespec`. -/
def nsToTimespec (nsec : Int64) : Timespec :=
  if nsec = 0 then ⟨0, 0⟩
  else
    let tvSec := nsec / 1000000000
    let rem := nsec % 1000000000
    if rem < 0 then ⟨tvSec - 1, rem + 1000000000⟩ else ⟨tvSec, rem⟩

/-- What a local operation makes of the core clock's reading. -/
def coreNsec (osLatency : Utimelength) (readTime : Timepoint) : Int64 :=
  tpToNsec (qotClockGetCoreTime osLatency readTime).estimate

/-- What a global operation makes of `CLOCK_REALTIME`: `qot_clock_gl_get_time_raw` reads it as a
`timespec`. -/
def realtimeNsec (now : Timespec) : Int64 := tpToNsec (timepointFromTimespec now)

theorem coreNsec_zeroLatency (ns : Int64) : coreNsec zeroLatency (tpFromNsec ns) = ns := by
  unfold coreNsec
  rw [qotClockGetCoreTime_zeroLatency]
  exact tpToNsec_tpFromNsec ns

/-- The two fields are the quotient and the remainder, rounded down. -/
theorem nsToTimespec_fields (ns : Int64) :
    (nsToTimespec ns).tvSec.toInt = ns.toInt / 1000000000
      ∧ (nsToTimespec ns).tvNsec.toInt = ns.toInt % 1000000000 := by
  have hfit := fits_toInt ns
  have hquot : (ns / 1000000000).toInt = ns.toInt.tdiv 1000000000 :=
    toInt_div_of_two_le (b := 1000000000) (by decide)
  have hrem : (ns % 1000000000).toInt = ns.toInt.tmod 1000000000 := Int64.toInt_mod _ _
  have hone : (1 : Int64).toInt = 1 := rfl
  have hzero : (0 : Int64).toInt = 0 := rfl
  have hsum := Int.mul_tdiv_add_tmod ns.toInt 1000000000
  have hupper := Int.tmod_lt_of_pos ns.toInt (b := 1000000000) (by decide)
  have hlower := Int.lt_tmod_of_pos ns.toInt (b := 1000000000) (by decide)
  unfold nsToTimespec
  split
  · next h =>
    subst h
    exact ⟨rfl, rfl⟩
  · simp only
    split
    · next hneg =>
      rw [Int64.lt_iff_toInt_lt, hrem, hzero] at hneg
      simp only
      rw [toInt_sub_eq, toInt_add_eq, hquot, hrem, hone, toInt_billion]
      unfold wrap64
      omega
    · next hpos =>
      rw [Int64.lt_iff_toInt_lt, hrem, hzero] at hpos
      simp only
      rw [hquot, hrem]
      omega

theorem realtimeNsec_nsToTimespec (ns : Int64) : realtimeNsec (nsToTimespec ns) = ns := by
  obtain ⟨hsec, hnsec⟩ := nsToTimespec_fields ns
  have hfit := fits_toInt ns
  unfold realtimeNsec
  rw [tpToNsec_timepointFromTimespec (by omega)]
  apply Int64.toInt_inj.mp
  unfold timespecToNs
  rw [toInt_add_eq, toInt_mul_eq, toInt_billion, hsec, hnsec]
  unfold wrap64
  omega

/-! ## The calls, side by side -/

def timelineChdevGettime (core : Option Int64) (timelineImpl : TlTranslation) :
    Int32 × Option Timespec :=
  match core with
  | none => (1, none)
  | some ns => (0, some (nsToTimespec (qotTimelineChdevGettime timelineImpl ns)))

def qotTimelineGlChdevGettime (realtime : Int64) (clkglParams : TlTranslation) :
    Int32 × Option Timespec :=
  (0, some (nsToTimespec (tpToNsec (qotClockGlGetTime clkglParams realtime).estimate)))

inductive DeviceCall where
  | steer (call : ClockCall)
  | gettime
  deriving DecidableEq, Repr

/-- A local timeline and a global one: the parameters each is read through, and the frequency last
asked for on its device. -/
structure ClockPair where
  timelineImpl : TlTranslation
  dialedFrequency : Int32
  clkglParams : TlTranslation
  glDialedFrequency : Int32
  deriving DecidableEq, Repr

/-- A call made on both, and what both base clocks read. -/
structure PairedCall where
  ns : Int64
  call : DeviceCall
  deriving DecidableEq, Repr

/-- The call on the local timeline: its return code, the time it delivers, and the state after. -/
def ClockPair.callLocal (s : ClockPair) (ev : PairedCall) :
    Int32 × Option Timespec × ClockPair :=
  let core := some (coreNsec zeroLatency (tpFromNsec ev.ns))
  match ev.call with
  | .gettime =>
    let r := timelineChdevGettime core s.timelineImpl
    (r.1, r.2, s)
  | .steer call =>
    let r := timelineCall ⟨.qotTimelineLocal, s.timelineImpl, s.dialedFrequency⟩ s.clkglParams
      ⟨0, core, 0, call⟩
    (r.1, none,
      { s with timelineImpl := r.2.1.timelineImpl, dialedFrequency := r.2.1.dialedFrequency })

def ClockPair.callGlobal (s : ClockPair) (ev : PairedCall) :
    Int32 × Option Timespec × ClockPair :=
  match ev.call with
  | .gettime =>
    -- the one operation that reads the clock in nanoseconds
    let r := qotTimelineGlChdevGettime ev.ns s.clkglParams
    (r.1, r.2, s)
  | .steer call =>
    let r := timelineCall ⟨.qotTimelineGlobal, initTranslation, s.glDialedFrequency⟩ s.clkglParams
      ⟨0, none, realtimeNsec (nsToTimespec ev.ns), call⟩
    (r.1, none, { s with clkglParams := r.2.2, glDialedFrequency := r.2.1.dialedFrequency })

def pairStep (s : ClockPair) (ev : PairedCall) : Option ClockPair :=
  some ((s.callLocal ev).2.2.callGlobal ev).2.2

/-- Equal `(last, nsec, mult)`. The uncertainty parameters may differ. -/
structure SameMapping (m m' : TlTranslation) : Prop where
  last : m.last = m'.last
  nsec : m.nsec = m'.nsec
  mult : m.mult = m'.mult

/-- What one call has to do on both: the same code, equal mappings after it, and no change on a
device that reports an error. -/
structure SameContract (s : ClockPair) (ev : PairedCall) : Prop where
  code : (s.callLocal ev).1 = (s.callGlobal ev).1
  mapping : SameMapping (s.callLocal ev).2.2.timelineImpl (s.callGlobal ev).2.2.clkglParams
  localError : (s.callLocal ev).1 ≠ 0 → (s.callLocal ev).2.2.timelineImpl = s.timelineImpl
  globalError : (s.callGlobal ev).1 ≠ 0 → (s.callGlobal ev).2.2.clkglParams = s.clkglParams

/-! ## `adjtime` and `gettime` -/

/-- The return code of an `adjtime` on a clock that can be read. -/
def adjtimeCode (tx : Timex) : Int32 :=
  if tx.modes &&& adjSetoffset ≠ 0 then
    match setoffsetDelta tx with
    | .error err => err
    | .ok _ => 0
  else if tx.modes &&& adjFrequency ≠ 0 ∨ tx.modes = 0 then 0
  else -eOpnotsupp

/-- With handlers that succeed, the code depends on the record alone, and an error comes before any
of them is called. -/
theorem chdevAdjtime_spec (clockAdjtime : Int64 → Int32 × TlTranslation)
    (clockAdjfreq : Int32 → Int32 × TlTranslation) (hadjtime : ∀ delta, (clockAdjtime delta).1 = 0)
    (hadjfreq : ∀ ppb, (clockAdjfreq ppb).1 = 0) (m : TlTranslation) (dialed : Int32) (tx : Timex) :
    (chdevAdjtime clockAdjtime clockAdjfreq m dialed tx).err = adjtimeCode tx
      ∧ (adjtimeCode tx ≠ 0 →
        (chdevAdjtime clockAdjtime clockAdjfreq m dialed tx).params = m) := by
  unfold chdevAdjtime adjtimeCode
  by_cases hset : tx.modes &&& adjSetoffset = 0
  · by_cases hfreq : tx.modes &&& adjFrequency = 0
    · by_cases hzero : tx.modes = 0
      · simp [hzero]
      · simp [hset, hfreq, hzero]
    · simp [hset, hfreq, hadjfreq]
  · simp only [hset, ne_eq, not_false_eq_true, if_true]
    cases setoffsetDelta tx with
    | error err => exact ⟨rfl, fun _ => rfl⟩
    | ok delta => exact ⟨hadjtime delta, fun h => absurd rfl h⟩

theorem op_adjtime_ne_settime (tx : Timex) (tp : Timespec) :
    (ClockCall.adjtime tx).op ≠ some (.settime tp) := by
  unfold ClockCall.op
  simp only
  split
  · cases setoffsetDelta tx <;> simp
  · split <;> simp

/-- The same operation, at the same reading, keeps two mappings equal. -/
theorem SameMapping.adjtime {m m' : TlTranslation} (h : SameMapping m m') (ns : Int64)
    (tx : Timex) :
    SameMapping (applyCall .qotTimelineLocal m (some ns) (.adjtime tx))
      (applyCall .qotTimelineGlobal m' (some ns) (.adjtime tx)) := by
  obtain ⟨hlast, hnsec, hmult⟩ := h
  unfold applyCall
  cases hop : (ClockCall.adjtime tx).op with
  | none => exact ⟨hlast, hnsec, hmult⟩
  | some op =>
    cases op with
    | adjfreq ppb =>
      simp only [clockApply_adjfreq]
      refine ⟨rfl, ?_, rfl⟩
      simp only [Qot.adjfreq, hlast, hnsec, hmult]
    | adjtime delta =>
      simp only [clockApply_adjtime]
      refine ⟨hlast, ?_, hmult⟩
      simp only [Qot.adjtime, hnsec]
    | settime tp => exact absurd hop (op_adjtime_ne_settime tx tp)
    | gettime => exact ⟨hlast, hnsec, hmult⟩

variable {s : ClockPair}

theorem callLocal_adjtime (s : ClockPair) (ns : Int64) (tx : Timex) :
    (s.callLocal ⟨ns, .steer (.adjtime tx)⟩).1 = adjtimeCode tx
      ∧ (s.callLocal ⟨ns, .steer (.adjtime tx)⟩).2.2.timelineImpl
        = applyCall .qotTimelineLocal s.timelineImpl (some ns) (.adjtime tx)
      ∧ (adjtimeCode tx ≠ 0 →
        (s.callLocal ⟨ns, .steer (.adjtime tx)⟩).2.2.timelineImpl = s.timelineImpl) := by
  obtain ⟨hcode, herror⟩ := chdevAdjtime_spec
    (fun delta =>
      atCoreTime (some ns) s.timelineImpl (qotTimelineClockAdjtime s.timelineImpl · delta))
    (fun ppb =>
      atCoreTime (some ns) s.timelineImpl (qotTimelineClockAdjfreq s.timelineImpl · ppb))
    (fun _ => rfl) (fun _ => rfl) s.timelineImpl s.dialedFrequency tx
  obtain ⟨himpl, -⟩ := timelineCall_spec
    ⟨.qotTimelineLocal, s.timelineImpl, s.dialedFrequency⟩ s.clkglParams
    ⟨0, some ns, 0, .adjtime tx⟩
  unfold ClockPair.callLocal
  rw [coreNsec_zeroLatency]
  exact ⟨hcode, himpl, herror⟩

theorem callGlobal_adjtime (s : ClockPair) (ns : Int64) (tx : Timex) :
    (s.callGlobal ⟨ns, .steer (.adjtime tx)⟩).1 = adjtimeCode tx
      ∧ (s.callGlobal ⟨ns, .steer (.adjtime tx)⟩).2.2.clkglParams
        = applyCall .qotTimelineGlobal s.clkglParams (some ns) (.adjtime tx)
      ∧ (adjtimeCode tx ≠ 0 →
        (s.callGlobal ⟨ns, .steer (.adjtime tx)⟩).2.2.clkglParams = s.clkglParams) := by
  obtain ⟨hcode, herror⟩ := chdevAdjtime_spec
    (fun delta => (0, qotClockGlAdjtime s.clkglParams ns delta))
    (fun ppb => (0, qotClockGlAdjfreq s.clkglParams ns ppb))
    (fun _ => rfl) (fun _ => rfl) s.clkglParams s.glDialedFrequency tx
  obtain ⟨-, hparams⟩ := timelineCall_spec
    ⟨.qotTimelineGlobal, initTranslation, s.glDialedFrequency⟩ s.clkglParams
    ⟨0, none, ns, .adjtime tx⟩
  unfold ClockPair.callGlobal
  rw [realtimeNsec_nsToTimespec]
  exact ⟨hcode, hparams, herror⟩

/-! ## `settime` -/

/-- Both set the clock, and only the local one says so. -/
theorem settime_codes (s : ClockPair) (ns : Int64) (tp : Timespec) :
    (s.callLocal ⟨ns, .steer (.settime tp)⟩).1 = 0
      ∧ (s.callGlobal ⟨ns, .steer (.settime tp)⟩).1 = 1 :=
  ⟨rfl, rfl⟩

/-! ## Runs -/

theorem sameContract_iff (h : SameMapping s.timelineImpl s.clkglParams) (ev : PairedCall) :
    SameContract s ev ↔ ∀ tp, ev.call ≠ .steer (.settime tp) := by
  obtain ⟨ns, call⟩ := ev
  cases call with
  | gettime => exact iff_of_true ⟨rfl, h, fun _ => rfl, fun _ => rfl⟩ (by simp)
  | steer call =>
    cases call with
    | settime tp =>
      obtain ⟨hlocal, hglobal⟩ := settime_codes s ns tp
      refine iff_of_false (fun hc => ?_) (by simp)
      have hcode := hc.code
      rw [hlocal, hglobal] at hcode
      exact absurd hcode (by decide)
    | adjtime tx =>
      obtain ⟨hcode, himpl, herror⟩ := callLocal_adjtime s ns tx
      obtain ⟨hcode', hparams, herror'⟩ := callGlobal_adjtime s ns tx
      refine iff_of_true ⟨hcode.trans hcode'.symm, ?_, ?_, ?_⟩ (by simp)
      · rw [himpl, hparams]
        exact h.adjtime ns tx
      · exact fun hne => herror (hcode ▸ hne)
      · exact fun hne => herror' (hcode' ▸ hne)

/-- The two calls of a step do not disturb each other. -/
theorem pairStep_params {s' : ClockPair} {ev : PairedCall} (h : pairStep s ev = some s') :
    s'.timelineImpl = (s.callLocal ev).2.2.timelineImpl
      ∧ s'.clkglParams = (s.callGlobal ev).2.2.clkglParams := by
  simp only [pairStep] at h
  cases h
  obtain ⟨ns, call⟩ := ev
  -- neither call reads what the other writes
  cases call <;> simp only [ClockPair.callLocal, ClockPair.callGlobal, and_self]

/-- **One contract for both kinds of timeline, as long as nobody sets the time.** -/
theorem clock_contract_iff (s : ClockPair) (calls : List PairedCall)
    (h : SameMapping s.timelineImpl s.clkglParams) :
    Runs.AllSteps pairStep SameContract s calls
      ↔ ∀ ev ∈ calls, ∀ tp, ev.call ≠ .steer (.settime tp) := by
  have hrun : Runs.AllSteps pairStep SameContract s calls
      ↔ Runs.AllSteps pairStep (fun _ ev => ∀ tp, ev.call ≠ .steer (.settime tp)) s calls := by
    refine Runs.allSteps_iff_of_inv (J := fun s => SameMapping s.timelineImpl s.clkglParams)
      (fun s ev hs => sameContract_iff hs ev) ?_ h
    intro s ev s' hs hg hstep
    obtain ⟨himpl, hparams⟩ := pairStep_params hstep
    rw [himpl, hparams]
    exact ((sameContract_iff hs ev).mpr hg).mapping
  rw [hrun]
  exact Runs.allSteps_iff_forall_mem fun s ev => ⟨_, rfl⟩

/-- A pair of timelines as registration leaves them. -/
def registeredPair : ClockPair := ⟨initTranslation, 0, initTranslation, 0⟩

theorem clock_contract_iff_setoffset :
    SameMapping registeredPair.timelineImpl registeredPair.clkglParams
      ∧ Runs.AllSteps pairStep SameContract registeredPair
        [⟨1000, .steer (.adjtime ⟨adjSetoffset, 0, 2, 500⟩)⟩, ⟨2000, .gettime⟩] :=
  ⟨⟨rfl, rfl, rfl⟩, (clock_contract_iff _ _ ⟨rfl, rfl, rfl⟩).mpr (by simp)⟩

/-- One `settime` is enough: the local timeline answers 0, the global one 1, and both are set. -/
theorem clock_contract_broken_by_settime :
    SameMapping registeredPair.timelineImpl registeredPair.clkglParams
      ∧ ¬ Runs.AllSteps pairStep SameContract registeredPair [⟨1000, .steer (.settime ⟨7, 0⟩)⟩]
      ∧ (registeredPair.callGlobal ⟨1000, .steer (.settime ⟨7, 0⟩)⟩).1 = 1
      ∧ (registeredPair.callGlobal ⟨1000, .steer (.settime ⟨7, 0⟩)⟩).2.2.clkglParams.nsec
        = 7000000000 := by
  refine ⟨⟨rfl, rfl, rfl⟩, fun h => ?_, rfl, by decide⟩
  have hcode := h.1.code
  exact absurd hcode (by decide)

end Qot
