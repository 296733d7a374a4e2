import QotStack.Clock.Projection
import QotStack.Clock.Discipline

/-!
# QotStack — the clock system calls

A timeline is a POSIX clock device. `clock_settime` and `clock_adjtime` reach the discipline
operations through `qot_timeline_chdev_settime` and `qot_timeline_chdev_adjtime`, or their `gl`
versions on a global timeline; both pairs pick the operation from the `timex` record and convert
its units. `timelineCall_spec` says which operation of `clockApply` a call amounts to.

The inverse projection divides by the low 32 bits of `mult + 10^9`. The range check on the
frequency is commented out in the source, so whether that divisor stays the true rate depends on
what the callers pass: `clock_rates_true_iff` gives the exact condition over whole runs of calls on
any number of timelines, `FreqKeepsRate` states it on the `freq` value.
-/

namespace Qot

open MachineInt

/-! ## Units -/

/-- `struct timex`, as far as the clock devices read it. -/
structure Timex where
  modes : UInt32
  freq : Int64
  tvSec : Int64
  tvUsec : Int64
  deriving DecidableEq, Repr

def adjFrequency : UInt32 := 0x0002
def adjSetoffset : UInt32 := 0x0100
def adjNano : UInt32 := 0x2000

def eInval : Int32 := 22
def eNodev : Int32 := 19
def eOpnotsupp : Int32 := 95

/-- Scaled parts per million (16 fractional bits) to parts per billion. -/
def qotTimelineChdevPpmToPpb (ppm : Int64) : Int32 :=
  let ppb := 1 + ppm
  let ppb := ppb * 125
  let ppb := ppb >>> 13
  ppb.toInt32

/-- The kernel's `ktime_set`, which saturates. -/
def ktimeSet (secs nsecs : Int64) : Int64 :=
  if 9223372036 ≤ secs then 9223372036854775807 else secs * 1000000000 + nsecs

/-- The offset of an `ADJ_SETOFFSET` call, in nanoseconds. -/
def setoffsetDelta (tx : Timex) : Except Int32 Int64 :=
  let tvNsec := if tx.modes &&& adjNano = 0 then tx.tvUsec * 1000 else tx.tvUsec
  if 1000000000 ≤ tvNsec.toUInt64 then .error (-eInval) else .ok (ktimeSet tx.tvSec tvNsec)

/-! ## The calls -/

/-- What a call leaves behind: its return value, the mapping, the frequency last asked for, and
the record copied back to the caller. -/
structure AdjtimeResult where
  err : Int32
  params : TlTranslation
  dialedFrequency : Int32
  tx : Timex
  deriving DecidableEq, Repr

/-- The body shared by the two `adjtime` devices, over the operations each steers its clock
with. -/
def chdevAdjtime (clockAdjtime : Int64 → Int32 × TlTranslation)
    (clockAdjfreq : Int32 → Int32 × TlTranslation) (params : TlTranslation)
    (dialedFrequency : Int32) (tx : Timex) : AdjtimeResult :=
  if tx.modes &&& adjSetoffset ≠ 0 then
    match setoffsetDelta tx with
    | .error err => ⟨err, params, dialedFrequency, tx⟩
    | .ok delta => ⟨(clockAdjtime delta).1, (clockAdjtime delta).2, dialedFrequency, tx⟩
  else if tx.modes &&& adjFrequency ≠ 0 then
    -- the check against `max_adj` is commented out here
    let ppb := qotTimelineChdevPpmToPpb tx.freq
    ⟨(clockAdjfreq ppb).1, (clockAdjfreq ppb).2, tx.freq.toInt32, tx⟩
  else if tx.modes = 0 then
    ⟨0, params, dialedFrequency, { tx with freq := dialedFrequency.toInt64 }⟩
  else ⟨-eOpnotsupp, params, dialedFrequency, tx⟩

/-- An operation that needs the core time: with no reading it returns 1 and changes nothing. -/
def atCoreTime (core : Option Int64) (params : TlTranslation) (f : Int64 → TlTranslation) :
    Int32 × TlTranslation :=
  match core with
  | none => (1, params)
  | some ns => (0, f ns)

def qotTimelineChdevAdjtime (core : Option Int64) (timelineImpl : TlTranslation)
    (dialedFrequency : Int32) (tx : Timex) : AdjtimeResult :=
  chdevAdjtime
    (fun delta => atCoreTime core timelineImpl (qotTimelineClockAdjtime timelineImpl · delta))
    (fun ppb => atCoreTime core timelineImpl (qotTimelineClockAdjfreq timelineImpl · ppb))
    timelineImpl dialedFrequency tx

/-- The global clock reads `CLOCK_REALTIME`, which always succeeds. -/
def qotTimelineGlChdevAdjtime (realtime : Int64) (clkglParams : TlTranslation)
    (dialedFrequency : Int32) (tx : Timex) : AdjtimeResult :=
  chdevAdjtime (fun delta => (0, qotClockGlAdjtime clkglParams realtime delta))
    (fun ppb => (0, qotClockGlAdjfreq clkglParams realtime ppb)) clkglParams dialedFrequency tx

def timelineChdevSettime (core : Option Int64) (timelineImpl : TlTranslation) (tp : Timespec) :
    Int32 × TlTranslation :=
  atCoreTime core timelineImpl (qotTimelineChdevSettime timelineImpl · tp)

/-- A stray semicolon makes this one return 1 also when it succeeds. -/
def qotTimelineGlChdevSettime (realtime : Int64) (clkglParams : TlTranslation) (ts : Timespec) :
    Int32 × TlTranslation :=
  (1, qotClockGlSettime clkglParams realtime (timepointFromTimespec ts))

inductive ClockCall where
  | settime (tp : Timespec)
  | adjtime (tx : Timex)
  deriving DecidableEq, Repr

/-- A timeline's clock device: its own mapping and the frequency last asked for. -/
structure TimelineClock where
  type : QotTimelineType
  timelineImpl : TlTranslation
  dialedFrequency : Int32
  deriving DecidableEq, Repr

/-- All clock devices and the mapping the global ones share. -/
structure ClockSystem where
  clkglParams : TlTranslation
  timelines : List TimelineClock
  deriving DecidableEq, Repr

/-- A call on a timeline, with what the core clock and `CLOCK_REALTIME` read when it runs. -/
structure ClockSyscall where
  timeline : Nat
  core : Option Int64
  realtime : Int64
  call : ClockCall
  deriving DecidableEq, Repr

/-- A call on one device: the return value, the device and the shared mapping after it. -/
def timelineCall (t : TimelineClock) (clkglParams : TlTranslation) (ev : ClockSyscall) :
    Int32 × TimelineClock × TlTranslation :=
  match t.type, ev.call with
  | .qotTimelineLocal, .settime tp =>
    let r := timelineChdevSettime ev.core t.timelineImpl tp
    (r.1, { t with timelineImpl := r.2 }, clkglParams)
  | .qotTimelineLocal, .adjtime tx =>
    let r := qotTimelineChdevAdjtime ev.core t.timelineImpl t.dialedFrequency tx
    (r.err, { t with timelineImpl := r.params, dialedFrequency := r.dialedFrequency },
      clkglParams)
  | .qotTimelineGlobal, .settime tp =>
    let r := qotTimelineGlChdevSettime ev.realtime clkglParams tp
    (r.1, t, r.2)
  | .qotTimelineGlobal, .adjtime tx =>
    let r := qotTimelineGlChdevAdjtime ev.realtime clkglParams t.dialedFrequency tx
    (r.err, { t with dialedFrequency := r.dialedFrequency }, r.params)

/-- A call on the system. A device that does not exist cannot be opened. -/
def clockSyscall (s : ClockSystem) (ev : ClockSyscall) : Int32 × ClockSystem :=
  match s.timelines[ev.timeline]? with
  | none => (-eNodev, s)
  | some t =>
    let r := timelineCall t s.clkglParams ev
    (r.1, ⟨r.2.2, s.timelines.set ev.timeline r.2.1⟩)

def syscallStep (s : ClockSystem) (ev : ClockSyscall) : Option ClockSystem :=
  some (clockSyscall s ev).2

/-! ## Which operation a call amounts to -/

/-- The discipline operation of a call, if it has one. -/
def ClockCall.op : ClockCall → Option ClockOp
  | .settime tp => some (.settime tp)
  | .adjtime tx =>
    if tx.modes &&& adjSetoffset ≠ 0 then
      match setoffsetDelta tx with
      | .error _ => none
      | .ok delta => some (.adjtime delta)
    else if tx.modes &&& adjFrequency ≠ 0 then
      some (.adjfreq (qotTimelineChdevPpmToPpb tx.freq))
    else none

/-- The mapping after a call on a clock that reads `ns`, or cannot be read. -/
def applyCall (type : QotTimelineType) (m : TlTranslation) (ns : Option Int64)
    (call : ClockCall) : TlTranslation :=
  match ns, call.op with
  | some ns, some op => clockApply type m ns op
  | _, _ => m

/-- The clock reading a call on a device of this type uses. -/
def ClockSyscall.reading (type : QotTimelineType) (ev : ClockSyscall) : Option Int64 :=
  match type with
  | .qotTimelineLocal => ev.core
  | .qotTimelineGlobal => some ev.realtime

variable {type : QotTimelineType} {m : TlTranslation}

/-- The `adjtime` body acts on the mapping as the operation it picks, provided its two handlers
act as theirs. -/
theorem chdevAdjtime_params {ns : Option Int64} {clockAdjtime : Int64 → Int32 × TlTranslation}
    {clockAdjfreq : Int32 → Int32 × TlTranslation} (hadjtime : ∀ delta, (clockAdjtime delta).2
      = ns.elim m fun ns => clockApply type m ns (.adjtime delta))
    (hadjfreq : ∀ ppb, (clockAdjfreq ppb).2
      = ns.elim m fun ns => clockApply type m ns (.adjfreq ppb)) (dialed : Int32) (tx : Timex) :
    (chdevAdjtime clockAdjtime clockAdjfreq m dialed tx).params
      = applyCall type m ns (.adjtime tx) := by
  unfold chdevAdjtime applyCall ClockCall.op
  by_cases hset : tx.modes &&& adjSetoffset = 0
  · by_cases hfreq : tx.modes &&& adjFrequency = 0
    · simp only [hset, hfreq, ne_eq, not_true_eq_false, if_false]
      split <;> cases ns <;> rfl
    · simp only [hset, hfreq, hadjfreq, ne_eq, not_true_eq_false, not_false_eq_true, if_false,
        if_true]
      cases ns <;> rfl
  · simp only [hset, ne_eq, not_false_eq_true, if_true]
    cases setoffsetDelta tx with
    | error err => cases ns <;> rfl
    | ok delta =>
      simp only [hadjtime]
      cases ns <;> rfl

/-- **A call acts on the mapping its timeline is read through as the operation it picks, and
leaves the other mapping alone.** -/
theorem timelineCall_spec (t : TimelineClock) (clkglParams : TlTranslation) (ev : ClockSyscall) :
    (timelineCall t clkglParams ev).2.1.timelineImpl
        = (match t.type with
          | .qotTimelineLocal => applyCall .qotTimelineLocal t.timelineImpl ev.core ev.call
          | .qotTimelineGlobal => t.timelineImpl)
      ∧ (timelineCall t clkglParams ev).2.2
        = (match t.type with
          | .qotTimelineLocal => clkglParams
          | .qotTimelineGlobal =>
            applyCall .qotTimelineGlobal clkglParams (some ev.realtime) ev.call) := by
  unfold timelineCall
  cases t.type with
  | qotTimelineLocal =>
    cases ev.call with
    | settime tp =>
      refine ⟨?_, rfl⟩
      cases ev.core <;> rfl
    | adjtime tx =>
      refine ⟨chdevAdjtime_params (fun delta => ?_) (fun ppb => ?_) _ _, rfl⟩
      · cases ev.core <;> rfl
      · cases ev.core <;> rfl
  | qotTimelineGlobal =>
    cases ev.call with
    | settime tp => exact ⟨rfl, rfl⟩
    | adjtime tx =>
      exact ⟨rfl, chdevAdjtime_params (fun _ => rfl) (fun _ => rfl) _ _⟩

theorem timelineCall_type (t : TimelineClock) (clkglParams : TlTranslation) (ev : ClockSyscall) :
    (timelineCall t clkglParams ev).2.1.type = t.type := by
  obtain ⟨type, timelineImpl, dialed⟩ := t
  unfold timelineCall
  cases type <;> cases ev.call <;> rfl

/-! ## The divisor of the inverse projection -/

/-- The 32-bit divisor of the inverse projection is the true, positive rate. -/
def TrueRate (m : TlTranslation) : Prop :=
  0 < m.mult.toInt + 1000000000 ∧ m.mult.toInt + 1000000000 < 2 ^ 32
    ∧ ((rateDivisor m).toNat : Int) = m.mult.toInt + 1000000000

theorem trueRate_iff (m : TlTranslation) : TrueRate m ↔ RatePositive m := by
  constructor
  · rintro ⟨hpos, hlt, -⟩
    omega
  · intro h
    have hdiv := toNat_rateDivisor h
    rw [UInt32.toNat_toUInt64] at hdiv
    refine ⟨?_, ?_, ?_⟩ <;> omega

/-- The frequencies that leave a positive rate: the 32 bits that survive the shift and the cut are
not a number of `-10^9` or less. -/
def FreqKeepsRate (freq : Int64) : Prop :=
  let bits := 125 * (freq.toInt + 1) % 2 ^ 45 / 2 ^ 13
  bits < 2 ^ 31 ∨ 2 ^ 32 - 1000000000 < bits

/-- The multiplication may wrap; the bits that survive the cut are those of the exact product. -/
theorem toInt_qotTimelineChdevPpmToPpb (freq : Int64) :
    (qotTimelineChdevPpmToPpb freq).toInt = wrap32 (wrap64 (125 * (freq.toInt + 1)) / 8192) := by
  have hprod : ((1 + freq) * 125 : Int64).toInt = wrap64 (125 * (freq.toInt + 1)) := by
    rw [toInt_mul_eq, toInt_add_eq, Int64.toInt_one,
      show (125 : Int64).toInt = 125 from rfl]
    unfold wrap64
    omega
  have hshift : (((1 + freq) * 125) >>> 13 : Int64).toInt
      = ((1 + freq) * 125 : Int64).toInt / 8192 :=
    toInt_shiftRight ((1 + freq) * 125) (show 13 < 64 by decide)
  unfold qotTimelineChdevPpmToPpb
  simp only
  rw [Int64.toInt_toInt32, bmod_eq_wrap32, hshift, hprod]

theorem freqKeepsRate_iff (freq : Int64) :
    -1000000000 < (qotTimelineChdevPpmToPpb freq).toInt ↔ FreqKeepsRate freq := by
  rw [toInt_qotTimelineChdevPpmToPpb]
  unfold FreqKeepsRate wrap32 wrap64
  generalize 125 * (freq.toInt + 1) = p
  norm_num
  omega

/-- Only `adjfreq` changes the rate. -/
theorem ratePositive_clockApply_iff (h : RatePositive m) (ns : Int64) (op : ClockOp) :
    RatePositive (clockApply type m ns op)
      ↔ ∀ ppb, op = .adjfreq ppb → -1000000000 < ppb.toInt := by
  cases op with
  | adjfreq ppb =>
    have hupper : ppb.toInt < 2 ^ 31 := ppb.toInt_lt
    rw [clockApply_adjfreq]
    constructor
    · rintro ⟨hlow, -⟩ _ ⟨⟩
      simpa [adjfreq] using hlow
    · intro hlow
      have hppb := hlow ppb rfl
      unfold RatePositive
      simp only [adjfreq, Int32.toInt_toInt64]
      omega
  | adjtime delta =>
    rw [clockApply_adjtime]
    exact iff_of_true h (by simp)
  | settime tp =>
    refine iff_of_true ?_ (by simp)
    cases type <;> exact h
  | gettime => exact iff_of_true h (by simp)

/-- A call that sets the frequency of a readable clock asks for one that keeps the rate positive. -/
def ClockCall.KeepsRate (ns : Option Int64) (call : ClockCall) : Prop :=
  ∀ tx, call = .adjtime tx → tx.modes &&& adjSetoffset = 0 → tx.modes &&& adjFrequency ≠ 0 →
    ns.isSome → FreqKeepsRate tx.freq

theorem ClockCall.op_eq_adjfreq_iff (call : ClockCall) (ppb : Int32) :
    call.op = some (.adjfreq ppb) ↔ ∃ tx, call = .adjtime tx ∧ tx.modes &&& adjSetoffset = 0
      ∧ tx.modes &&& adjFrequency ≠ 0 ∧ qotTimelineChdevPpmToPpb tx.freq = ppb := by
  cases call with
  | settime tp => simp [ClockCall.op]
  | adjtime tx =>
    by_cases hset : tx.modes &&& adjSetoffset = 0
    · by_cases hfreq : tx.modes &&& adjFrequency = 0 <;> simp [ClockCall.op, hset, hfreq]
    · simp only [ClockCall.op, hset, ne_eq, not_false_eq_true, if_true]
      cases setoffsetDelta tx <;> simp [hset]

theorem ratePositive_applyCall_iff (h : RatePositive m) (ns : Option Int64) (call : ClockCall) :
    RatePositive (applyCall type m ns call) ↔ call.KeepsRate ns := by
  have hop : (∀ ppb, call.op = some (.adjfreq ppb) → -1000000000 < ppb.toInt)
      ↔ ∀ ns : Int64, call.KeepsRate (some ns) := by
    simp only [ClockCall.op_eq_adjfreq_iff, ClockCall.KeepsRate]
    constructor
    · intro hall _ tx hcall hset hfreq _
      exact (freqKeepsRate_iff _).mp (hall _ ⟨tx, hcall, hset, hfreq, rfl⟩)
    · rintro hall _ ⟨tx, hcall, hset, hfreq, rfl⟩
      exact (freqKeepsRate_iff _).mpr (hall 0 tx hcall hset hfreq rfl)
  cases ns with
  | none => exact ⟨fun _ _ _ _ _ hns => absurd hns (by simp), fun _ => h⟩
  | some ns =>
    -- `KeepsRate` does not depend on which reading it is
    have hsome : call.KeepsRate (some ns) ↔ ∀ ns : Int64, call.KeepsRate (some ns) :=
      ⟨fun hk _ tx hcall hset hfreq _ => hk tx hcall hset hfreq rfl, fun hk => hk ns⟩
    rw [hsome, ← hop]
    unfold applyCall
    cases hcall : call.op with
    | none => exact iff_of_true h (by simp)
    | some op =>
      simp only [ratePositive_clockApply_iff h ns op, Option.some.injEq]

/-! ## Runs of calls -/

/-- Every mapping of the system has the true rate as its divisor. -/
def TrueRates (s : ClockSystem) : Prop :=
  TrueRate s.clkglParams ∧ ∀ t ∈ s.timelines, TrueRate t.timelineImpl

/-- The call leaves a positive rate, read before it runs. -/
def KeepsRates (s : ClockSystem) (ev : ClockSyscall) : Prop :=
  ∀ t, s.timelines[ev.timeline]? = some t → ev.call.KeepsRate (ev.reading t.type)

theorem forall_mem_set_iff {α : Type _} {P : α → Prop} {l : List α} {i : Nat} {a b : α}
    (hl : ∀ x ∈ l, P x) (hi : l[i]? = some a) : (∀ x ∈ l.set i b, P x) ↔ P b := by
  obtain ⟨hlt, -⟩ := List.getElem?_eq_some_iff.mp hi
  constructor
  · intro h
    exact h b (List.mem_set hlt b)
  · intro hb x hx
    rcases List.mem_or_eq_of_mem_set hx with hmem | rfl
    · exact hl x hmem
    · exact hb

/-- **One call.** It keeps the divisors true exactly when it meets the condition. -/
theorem trueRates_step_iff {s : ClockSystem} (h : TrueRates s) (ev : ClockSyscall) :
    TrueRates (clockSyscall s ev).2 ↔ KeepsRates s ev := by
  obtain ⟨hgl, hloc⟩ := h
  unfold clockSyscall KeepsRates
  cases hget : s.timelines[ev.timeline]? with
  | none => simp only [reduceCtorEq, false_implies, implies_true, iff_true]; exact ⟨hgl, hloc⟩
  | some t =>
    have ht := hloc t (List.mem_of_getElem? hget)
    obtain ⟨himpl, hparams⟩ := timelineCall_spec t s.clkglParams ev
    simp only [TrueRates, Option.some.injEq, forall_eq', forall_mem_set_iff hloc hget]
    rw [himpl, hparams]
    cases t.type with
    | qotTimelineLocal =>
      simp only [hgl, true_and]
      rw [trueRate_iff, ratePositive_applyCall_iff ((trueRate_iff _).mp ht)]
      rfl
    | qotTimelineGlobal =>
      simp only [ht, and_true]
      rw [trueRate_iff, ratePositive_applyCall_iff ((trueRate_iff _).mp hgl)]
      rfl

/-- The devices as registration leaves them. -/
def registeredClocks (types : List QotTimelineType) : ClockSystem :=
  ⟨initTranslation, types.map (⟨·, initTranslation, 0⟩)⟩

theorem trueRates_registeredClocks (types : List QotTimelineType) :
    TrueRates (registeredClocks types) := by
  have hinit : TrueRate initTranslation := (trueRate_iff _).mpr (by decide)
  refine ⟨hinit, fun t ht => ?_⟩
  obtain ⟨type, -, rfl⟩ := List.mem_map.mp ht
  exact hinit

/-- **The divisors stay the true rates exactly in the runs that never ask for too slow a clock.**
Over any number of local and global timelines, every state of a run of calls has
`0 < mult + 10^9 < 2^32` in every mapping if and only if every frequency that takes effect keeps
the rate positive. -/
theorem clock_rates_true_iff (types : List QotTimelineType) (evs : List ClockSyscall) :
    Runs.AllStates syscallStep TrueRates (registeredClocks types) evs
      ↔ Runs.AllSteps syscallStep KeepsRates (registeredClocks types) evs := by
  refine Runs.allStates_iff_allSteps (J := TrueRates) (fun _ h => h) ?_ ?_
    (trueRates_registeredClocks types)
  · intro s ev s' h hkeep hs'
    cases hs'
    exact (trueRates_step_iff h ev).mpr hkeep
  · intro s ev h hnext
    exact (trueRates_step_iff h ev).mp (hnext _ rfl)

/-- A call that asks for minus one billion parts per billion: more than the `s32` it is kept in
holds. -/
def stopCall : ClockSyscall := ⟨0, some 0, 0, .adjtime ⟨adjFrequency, -65536000001, 0, 0⟩⟩

/-- **One frequency call makes the divisor zero**, on a local timeline and on the global clock. -/
theorem clock_adjtime_zero_divisor :
    clockSyscall (registeredClocks [.qotTimelineLocal]) stopCall
        = (0, ⟨initTranslation,
          [⟨.qotTimelineLocal, { initTranslation with mult := -1000000000 }, -1111490561⟩]⟩)
      ∧ clockSyscall (registeredClocks [.qotTimelineGlobal]) stopCall
        = (0, ⟨{ initTranslation with mult := -1000000000 },
          [⟨.qotTimelineGlobal, initTranslation, -1111490561⟩]⟩)
      ∧ rateDivisor { initTranslation with mult := -1000000000 } = 0
      ∧ ¬ Runs.AllStates syscallStep TrueRates (registeredClocks [.qotTimelineLocal]) [stopCall]
      ∧ ¬ Runs.AllStates syscallStep TrueRates (registeredClocks [.qotTimelineGlobal])
        [stopCall] := by
  refine ⟨by decide, by decide, by decide, fun h => ?_, fun h => ?_⟩
  · exact absurd ((h.exec rfl).2 _ (List.mem_singleton.mpr rfl)).1 (by decide)
  · exact absurd (h.exec rfl).1.1 (by decide)

end Qot
