import Mathlib.Data.Rat.Floor
import QotStack.Clock.Syscall

/-!
# QotStack — corrections on their way to a clock (`algorithm.c`)

The NTP client corrects a timeline through `clock_adjtime`. A step goes as seconds and nanoseconds
(`clockadj_step`), a frequency as parts per million with 16 fractional bits (`clockadj_set_freq`);
`adjust_clock` has the two in its two branches. The device of the timeline puts the step together
again and turns the frequency back into parts per billion (`qot_timeline_chdev.c`).

The split of a negative step multiplies unsigned quotients by a sign that wraps, and the encoding of
a frequency rounds toward zero where the decoding adds one and rounds down. `clock_steps_arrive` and
`frequencies_arrive` say that both are exact all the same.

Values of type `double` are rational numbers here, and `65.536` is that number. A conversion to an
integer that does not fit is undefined and has no result.
-/

namespace Qot.Ntp

open MachineInt

/-! ## The client -/

/-- A point of the clock statistics (`qot_stat_t`). -/
structure QotStat where
  offset : Int64
  drift : Int64
  dataId : Int64
  deriving DecidableEq, Repr

def maxfreqadj : ℚ := 100000000

/-- The integer part of a number, a conversion toward zero. -/
def truncate (x : ℚ) : Int := if x < 0 then ⌈x⌉ else ⌊x⌋

/-- `(long) x` -/
def toLong (x : ℚ) : Option Int64 :=
  if Fits64 (truncate x) then some (Int64.ofInt (truncate x)) else none

/-- The record for a frequency in parts per billion. -/
def freqTimex (freq : ℚ) : Option Timex :=
  (toLong (freq * (65536 / 1000))).map fun f => ⟨adjFrequency, f, 0, 0⟩

/-- The record for a step, once its parts are computed. -/
def setoffsetTimex (tvSec tvUsec : Int64) : Timex :=
  -- the value is the sum of the fields, but `tv_usec` must not be negative
  if tvUsec < 0 then ⟨adjSetoffset ||| adjNano, 0, tvSec - 1, tvUsec + 1000000000⟩
  else ⟨adjSetoffset ||| adjNano, 0, tvSec, tvUsec⟩

/-- The record for a step. `nSEC_PER_SEC` is unsigned, so that quotient, remainder and their
products with the sign are. -/
def stepTimex (step : Int64) : Timex :=
  let sign : Int32 := if step < 0 then -1 else 1
  let step := if step < 0 then step * -1 else step
  setoffsetTimex (sign.toInt64.toUInt64 * (step.toUInt64 / nSecPerSec)).toInt64
    (sign.toInt64.toUInt64 * (step.toUInt64 % nSecPerSec)).toInt64

def clockadjSetFreq (freq : ℚ) : Option Timex := freqTimex freq

def clockadjStep (step : Int64) : Timex := stepTimex step

/-- The branch of `adjust_clock` that steps the clock. -/
def adjustClockStep (step : Int64) : Timex := stepTimex step

/-- The branch of `adjust_clock` that changes its rate. -/
def adjustClockFreq (freq : ℚ) : Option Timex := freqTimex freq

/-- The step in `adjust_clock`: the offset of the local clock is in microseconds. -/
def adjustClockOffset (offset : Int64) : Int64 := (offset.toUInt64 * 1000).toInt64

/-- `adjust_clock`, where `adj` is the correction in parts per billion that it computes from the
ratio of the local clock: the statistics it writes, and the record it passes to `clock_adjtime`. -/
def adjustClock (stat : QotStat) (offset : Int64) (adj : ℚ) : Option (QotStat × Timex) :=
  let step := adjustClockOffset offset
  (toLong ⌈adj⌉).bind fun drift =>
    let stat : QotStat := ⟨step, drift, stat.dataId + 1⟩
    if adj > maxfreqadj ∨ adj < -maxfreqadj then some (stat, adjustClockStep step)
    else (adjustClockFreq adj).map fun tx => (stat, tx)

/-! ## Steps -/

/-- The number of nanoseconds from which on `ktime_set` saturates. -/
def ktimeLimit : Int := 9223372036 * 1000000000

/-- A product with the sign, in unsigned words, is the signed one. -/
theorem toInt_sign_mul (sign : Int32) {u : UInt64} (hsign : sign = 1 ∨ sign = -1)
    (hu : u.toNat < 9223372036854775808) :
    (sign.toInt64.toUInt64 * u).toInt64.toInt = sign.toInt * u.toNat := by
  have hval : u.toInt64.toInt = u.toNat := by
    rw [toInt_toInt64]
    exact wrap64_of_fits (by omega)
  rw [UInt64.toInt64_mul, Int64.toInt64_toUInt64]
  rcases hsign with rfl | rfl
  · show (1 * u.toInt64).toInt = 1 * (u.toNat : Int)
    rw [Int64.one_mul, Int.one_mul, hval]
  · show (-1 * u.toInt64).toInt = -1 * (u.toNat : Int)
    rw [toInt_mul_of_fits]
    · rw [hval]
      rfl
    · rw [hval]
      show Fits64 (-1 * (u.toNat : Int))
      omega

variable {step : Int64}

/-- The parts of a step that is not negative, with a sign on them. -/
theorem toInt_signed_parts (sign : Int32) (hsign : sign = 1 ∨ sign = -1) (hstep : 0 ≤ step.toInt) :
    (sign.toInt64.toUInt64 * (step.toUInt64 / nSecPerSec)).toInt64.toInt
        = sign.toInt * (step.toInt / 1000000000)
      ∧ (sign.toInt64.toUInt64 * (step.toUInt64 % nSecPerSec)).toInt64.toInt
        = sign.toInt * (step.toInt % 1000000000) := by
  have hu := toNat_toUInt64_of_nonneg hstep
  have hfits := fits_toInt step
  have hquot : (step.toUInt64 / nSecPerSec).toNat = step.toUInt64.toNat / 1000000000 :=
    UInt64.toNat_div _ _
  have hrem : (step.toUInt64 % nSecPerSec).toNat = step.toUInt64.toNat % 1000000000 :=
    UInt64.toNat_mod _ _
  refine ⟨?_, ?_⟩
  · rw [toInt_sign_mul sign hsign (by omega), hquot]
    push_cast
    rw [hu]
  · rw [toInt_sign_mul sign hsign (by omega), hrem]
    push_cast
    rw [hu]

/-- A second goes over from the quotient to a negative remainder. -/
theorem setoffsetTimex_fields {sec usec : Int64} {step : Int} (hfits : Fits64 step)
    (hsum : sec.toInt * 1000000000 + usec.toInt = step)
    (hlow : -1000000000 < usec.toInt) (hhigh : usec.toInt < 1000000000) :
    (setoffsetTimex sec usec).tvSec.toInt = step / 1000000000
      ∧ (setoffsetTimex sec usec).tvUsec.toInt = step % 1000000000 := by
  unfold setoffsetTimex
  split
  · next hneg =>
    have hneg : usec.toInt < 0 := Int64.lt_iff_toInt_lt.mp hneg
    have hsec : (sec - 1).toInt = sec.toInt - 1 :=
      toInt_sub_of_fits (show Fits64 (sec.toInt - 1) by omega)
    have husec : (usec + 1000000000).toInt = usec.toInt + 1000000000 :=
      toInt_add_of_fits (show Fits64 (usec.toInt + 1000000000) by omega)
    show (sec - 1).toInt = _ ∧ (usec + 1000000000).toInt = _
    omega
  · next hneg =>
    have hnonneg : ¬ usec.toInt < 0 := fun h => hneg (Int64.lt_iff_toInt_lt.mpr h)
    show sec.toInt = _ ∧ usec.toInt = _
    omega

/-- Whatever the sign, the fields are quotient and remainder of a division that rounds down. -/
theorem stepTimex_fields (hmin : Int64.minValue < step) :
    (stepTimex step).tvSec.toInt = step.toInt / 1000000000
      ∧ (stepTimex step).tvUsec.toInt = step.toInt % 1000000000 := by
  have hlo : -9223372036854775808 < step.toInt := Int64.lt_iff_toInt_lt.mp hmin
  have hfits := fits_toInt step
  by_cases hneg : step < 0
  · have hval : step.toInt < 0 := Int64.lt_iff_toInt_lt.mp hneg
    have habs : (step * -1).toInt = -step.toInt := by
      rw [toInt_mul_of_fits]
      · show step.toInt * -1 = -step.toInt
        omega
      · show Fits64 (step.toInt * -1)
        omega
    obtain ⟨hsec, husec⟩ :=
      toInt_signed_parts (-1) (Or.inr rfl) (show 0 ≤ (step * -1).toInt by omega)
    rw [show (-1 : Int32).toInt = -1 from rfl, habs] at hsec husec
    simp only [stepTimex, if_pos hneg]
    apply setoffsetTimex_fields hfits <;> omega
  · have hval : ¬ step.toInt < 0 := fun h => hneg (Int64.lt_iff_toInt_lt.mpr h)
    obtain ⟨hsec, husec⟩ := toInt_signed_parts 1 (Or.inl rfl) (show 0 ≤ step.toInt by omega)
    rw [show (1 : Int32).toInt = 1 from rfl] at hsec husec
    simp only [stepTimex, if_neg hneg]
    apply setoffsetTimex_fields hfits <;> omega

theorem stepTimex_modes (step : Int64) : (stepTimex step).modes = adjSetoffset ||| adjNano := by
  unfold stepTimex setoffsetTimex
  extract_lets
  split <;> rfl

/-- What the kernel reads off the record: the step, up to the limit of `ktime_set`. -/
theorem setoffsetDelta_stepTimex (hmin : Int64.minValue < step) :
    setoffsetDelta (stepTimex step)
      = .ok (if step.toInt < ktimeLimit then step else 9223372036854775807) := by
  obtain ⟨hsec, husec⟩ := stepTimex_fields hmin
  have hnano : (stepTimex step).modes &&& adjNano ≠ 0 := by
    rw [stepTimex_modes]
    decide
  have hu : ((stepTimex step).tvUsec.toUInt64.toNat : Int) = step.toInt % 1000000000 := by
    rw [toNat_toUInt64_of_nonneg (by omega), husec]
  have hrange : ¬ 1000000000 ≤ (stepTimex step).tvUsec.toUInt64 := by
    rw [UInt64.le_iff_toNat_le]
    show ¬ 1000000000 ≤ (stepTimex step).tvUsec.toUInt64.toNat
    omega
  have hlimit : 9223372036 ≤ (stepTimex step).tvSec ↔ ¬ step.toInt < ktimeLimit := by
    rw [Int64.le_iff_toInt_le, hsec]
    show 9223372036 ≤ step.toInt / 1000000000 ↔ ¬ step.toInt < 9223372036 * 1000000000
    omega
  simp only [setoffsetDelta, if_neg hnano, if_neg hrange, ktimeSet, hlimit, ite_not]
  split
  · -- for the least steps the product wraps, and the sum wraps back
    have hfits := fits_toInt step
    rw [Except.ok.injEq, ← Int64.toInt_inj, toInt_add_eq, toInt_mul_eq, hsec, husec]
    show wrap64 (wrap64 (step.toInt / 1000000000 * 1000000000) + step.toInt % 1000000000) = _
    unfold wrap64
    omega
  · rfl

/-- A record that makes the devices of timelines apply a step, whatever they do otherwise. -/
structure StepArrives (tx : Timex) (step : Int64) : Prop where
  usec_nonneg : 0 ≤ tx.tvUsec
  usec_lt : tx.tvUsec < 1000000000
  delta : setoffsetDelta tx = .ok step
  onLocal : ∀ (core : Option Int64) (timelineImpl : TlTranslation) (dialed : Int32),
    qotTimelineChdevAdjtime core timelineImpl dialed tx
      = ⟨(atCoreTime core timelineImpl (qotTimelineClockAdjtime timelineImpl · step)).1,
        (atCoreTime core timelineImpl (qotTimelineClockAdjtime timelineImpl · step)).2, dialed, tx⟩
  onGlobal : ∀ (realtime : Int64) (clkglParams : TlTranslation) (dialed : Int32),
    qotTimelineGlChdevAdjtime realtime clkglParams dialed tx
      = ⟨0, qotClockGlAdjtime clkglParams realtime step, dialed, tx⟩

theorem chdevAdjtime_setoffset {tx : Timex} (hmodes : tx.modes &&& adjSetoffset ≠ 0)
    (hdelta : setoffsetDelta tx = .ok step) (clockAdjtime : Int64 → Int32 × TlTranslation)
    (clockAdjfreq : Int32 → Int32 × TlTranslation) (params : TlTranslation) (dialed : Int32) :
    chdevAdjtime clockAdjtime clockAdjfreq params dialed tx
      = ⟨(clockAdjtime step).1, (clockAdjtime step).2, dialed, tx⟩ := by
  rw [chdevAdjtime, if_pos hmodes, hdelta]

theorem stepTimex_arrives (hmin : Int64.minValue < step) (hlimit : step.toInt < ktimeLimit) :
    StepArrives (stepTimex step) step := by
  obtain ⟨-, husec⟩ := stepTimex_fields hmin
  have hdelta : setoffsetDelta (stepTimex step) = .ok step := by
    rw [setoffsetDelta_stepTimex hmin, if_pos hlimit]
  have hmodes : (stepTimex step).modes &&& adjSetoffset ≠ 0 := by
    rw [stepTimex_modes]
    decide
  refine ⟨?_, ?_, hdelta, ?_, ?_⟩
  · rw [Int64.le_iff_toInt_le, husec]
    show 0 ≤ step.toInt % 1000000000
    omega
  · rw [Int64.lt_iff_toInt_lt, husec]
    show step.toInt % 1000000000 < 1000000000
    omega
  · intro core timelineImpl dialed
    exact chdevAdjtime_setoffset hmodes hdelta _ _ timelineImpl dialed
  · intro realtime clkglParams dialed
    exact chdevAdjtime_setoffset hmodes hdelta _ _ clkglParams dialed

/-- A step arrives exactly, through `clockadj_step` and through `adjust_clock`. On the side of
negative steps `ktime_set` sets no limit. -/
theorem clock_steps_arrive (step : Int64) (hmin : Int64.minValue < step)
    (hlimit : step.toInt < ktimeLimit) :
    StepArrives (clockadjStep step) step ∧ StepArrives (adjustClockStep step) step
      ∧ ∀ (stat stat' : QotStat) (offset : Int64) (adj : ℚ) (tx : Timex),
        adjustClock stat offset adj = some (stat', tx) → adj > maxfreqadj ∨ adj < -maxfreqadj →
        adjustClockOffset offset = step → StepArrives tx step := by
  refine ⟨stepTimex_arrives hmin hlimit, stepTimex_arrives hmin hlimit, ?_⟩
  rintro stat stat' offset adj tx hadjust hadj rfl
  simp only [adjustClock, if_pos hadj, Option.bind_eq_some_iff, Option.some.injEq, Prod.mk.injEq]
    at hadjust
  obtain ⟨_, -, -, rfl⟩ := hadjust
  exact stepTimex_arrives hmin hlimit

/-- A step back by one and a half seconds. -/
theorem clock_steps_arrive_back :
    StepArrives (clockadjStep (-1500000000)) (-1500000000)
      ∧ clockadjStep (-1500000000) = ⟨0x2100, 0, -2, 500000000⟩ :=
  ⟨(clock_steps_arrive (-1500000000) (by decide) (by decide)).1, by decide⟩

/-! ## Frequencies -/

theorem toLong_intCast {n : Int} (h : Fits64 n) : toLong n = some (Int64.ofInt n) := by
  have htrunc : truncate (n : ℚ) = n := by simp [truncate]
  rw [toLong, htrunc, if_pos h]

/-- The encoded frequency is less than one away from the exact one. -/
theorem truncate_freq_near (p : Int) :
    8192 * p - 125 < 125 * truncate ((p : ℚ) * (65536 / 1000))
      ∧ 125 * truncate ((p : ℚ) * (65536 / 1000)) < 8192 * p + 125 := by
  have hscale : (p : ℚ) * (65536 / 1000) = ((8192 * p : Int) : ℚ) / ((125 : Nat) : ℚ) := by
    push_cast
    ring
  rw [hscale, truncate, Rat.ceil_intCast_div_natCast, Rat.floor_intCast_div_natCast]
  split <;> omega

/-- Rounding toward zero loses less than the one that the decoding adds, and both together are less
than a part per billion. -/
theorem ppmToPpb_freqTimex (p : Int32) :
    ∃ tx, freqTimex p.toInt = some tx ∧ tx.modes = adjFrequency
      ∧ qotTimelineChdevPpmToPpb tx.freq = p := by
  have hp := fits32_toInt p
  obtain ⟨hlow, hhigh⟩ := truncate_freq_near p.toInt
  have hfits : Fits64 (truncate ((p.toInt : ℚ) * (65536 / 1000))) := by
    omega
  have hdec : 125 * (truncate ((p.toInt : ℚ) * (65536 / 1000)) + 1) / 8192 = p.toInt := by omega
  refine ⟨⟨adjFrequency, Int64.ofInt (truncate ((p.toInt : ℚ) * (65536 / 1000))), 0, 0⟩, ?_, rfl,
    ?_⟩
  · rw [freqTimex, toLong, if_pos hfits]
    rfl
  · rw [← Int32.toInt_inj, toInt_qotTimelineChdevPpmToPpb, toInt_ofInt_of_fits hfits,
      wrap64_of_fits]
    · rw [hdec]
      unfold wrap32
      omega
    · omega

/-- A frequency correction in whole parts per billion arrives exactly: through `clockadj_set_freq`,
and through `adjust_clock` where that does not step the clock instead. -/
theorem frequencies_arrive (p : Int32) :
    (∃ tx, clockadjSetFreq p.toInt = some tx ∧ tx.modes = adjFrequency
        ∧ qotTimelineChdevPpmToPpb tx.freq = p)
      ∧ ∀ (stat : QotStat) (offset : Int64),
        ¬ ((p.toInt : ℚ) > maxfreqadj ∨ (p.toInt : ℚ) < -maxfreqadj) →
        ∃ stat' tx, adjustClock stat offset p.toInt = some (stat', tx) ∧ tx.modes = adjFrequency
          ∧ qotTimelineChdevPpmToPpb tx.freq = p := by
  obtain ⟨tx, henc, hmodes, hdec⟩ := ppmToPpb_freqTimex p
  refine ⟨⟨tx, henc, hmodes, hdec⟩, ?_⟩
  intro stat offset hadj
  have hfits : Fits64 p.toInt := by
    have hp := fits32_toInt p
    omega
  refine ⟨⟨adjustClockOffset offset, Int64.ofInt p.toInt, stat.dataId + 1⟩, tx, ?_, hmodes, hdec⟩
  simp [adjustClock, toLong_intCast hfits, if_neg hadj, adjustClockFreq, henc]

theorem frequencies_arrive_negative :
    ∃ stat' tx, adjustClock ⟨0, 0, 0⟩ 250 ((-7 : Int32).toInt) = some (stat', tx)
      ∧ tx.modes = adjFrequency ∧ qotTimelineChdevPpmToPpb tx.freq = -7 :=
  (frequencies_arrive (-7)).2 ⟨0, 0, 0⟩ 250 (by decide +kernel)

end Qot.Ntp
