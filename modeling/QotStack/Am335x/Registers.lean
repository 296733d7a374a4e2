import Mathlib.Tactic.GCongr
import Mathlib.Tactic.Linarith
import Mathlib.Tactic.Ring
import QotStack.Am335x.Compare
import QotStack.Am335x.Rate
import QotStack.Types.Scalar

/-!
# QotStack — the registers of an output (`qot_am335x.c`)

An output has two register values: the cycles of a period (load), and those of its low part (match).
They are computed in two places. `EVENT_START` takes the low part in nanoseconds and scales it to
cycles; a request for an output that runs scales the period and takes the low part of its cycles.
The values of such a request wait until a match of the running output comes within a period of the
new start.

* `start_usable_iff` — when starting an output overflows nowhere and leaves values the timer can run
  with;
* `reprogram_within_a_cycle` — the two places agree up to a cycle if the duty cycle stays as it was,
  and otherwise only if the period is very short: the low part is taken with the duty cycle of the
  output that runs;
* `rewrite_moment` — the match at which the new values are written.
-/

namespace Qot

open MachineInt

/-! ## Nanoseconds -/

def PtpClockTime.ns (t : PtpClockTime) : Int := t.sec.toInt * 1000000000 + t.nsec.toNat

theorem toInt_ptpToS64 (t : PtpClockTime) : (ptpToS64 t).toInt = wrap64 t.ns := by
  have hnsec : t.nsec.toUInt64.toInt64.toInt = t.nsec.toNat := by
    have hlt := t.nsec.toNat_lt
    rw [toInt_toInt64, UInt32.toNat_toUInt64]
    exact wrap64_of_fits (by omega)
  have hbillion : (1000000000 : Int64).toInt = 1000000000 := rfl
  unfold ptpToS64 PtpClockTime.ns
  rw [toInt_add_eq, toInt_mul_eq, hnsec, hbillion]
  apply wrap64_congr
  unfold wrap64
  omega

theorem inRange_iff (ns : Int64) : InRange ns ↔ 1000 ≤ ns.toInt ∧ ns.toInt ≤ 100000000000 := by
  have hfits := fits_toInt ns
  have hword := toNat_toUInt64 ns
  unfold InRange
  rw [UInt64.le_iff_toNat_le, UInt64.le_iff_toNat_le]
  show 1000 ≤ ns.toUInt64.toNat ∧ ns.toUInt64.toNat ≤ 100000000000 ↔ _
  omega

/-- The low part of `ns` nanoseconds. -/
def lowNs (dutyCycle : Int32) (ns : Int) : Int := (ns * (100 - dutyCycle.toInt)).tdiv 100

theorem toInt_low_part (dutyCycle : Int32) :
    (100 - dutyCycle.toInt64).toInt = 100 - dutyCycle.toInt := by
  have hext : dutyCycle.toInt64.toInt = dutyCycle.toInt := Int32.toInt_toInt64 dutyCycle
  have hlt := dutyCycle.toInt_lt
  have hge := dutyCycle.le_toInt
  have hhundred : (100 : Int64).toInt = 100 := rfl
  rw [toInt_sub_of_fits (by omega), hext, hhundred]

/-- The low part in words, of nanoseconds as of cycles. -/
theorem toInt_lowNs (dutyCycle : Int32) (n : Int64)
    (h : Fits64 (n.toInt * (100 - dutyCycle.toInt))) :
    (n * (100 - dutyCycle.toInt64) / 100).toInt = lowNs dutyCycle n.toInt := by
  have hhundred : (100 : Int64).toInt = 100 := rfl
  rw [← toInt_low_part dutyCycle] at h
  rw [toInt_div_of_two_le (by decide), toInt_mul_of_fits h, toInt_low_part, hhundred]
  rfl

theorem lowNs_eq_div {dutyCycle : Int32} {ns : Int} (hns : 0 ≤ ns) (hduty : dutyCycle.toInt ≤ 100) :
    lowNs dutyCycle ns = ns * (100 - dutyCycle.toInt) / 100 :=
  Int.tdiv_eq_ediv_of_nonneg (Int.mul_nonneg hns (by omega))

namespace Am335x

variable {φ : Type} {p : Am335x φ}

/-! ## Starting an output -/

/-- `ns` nanoseconds in cycles, as a number. -/
def cyclesOf (p : Am335x φ) (ns : Int) : Int := (ns * 67108864 + p.tc.frac.toNat) / p.cc.mult.toNat

/-- The nanoseconds are shifted and the fraction is added without an overflow. -/
def Scales (p : Am335x φ) (ns : Int) : Prop :=
  Fits64 (ns * 67108864) ∧ 0 ≤ ns * 67108864
    ∧ ns * 67108864 + p.tc.frac.toNat < 18446744073709551616

/-- No number that starting an output computes overflows 64 bits. -/
structure StartExact (p : Am335x φ) (start period : PtpClockTime) : Prop where
  start_sec : Fits64 (start.sec.toInt * 1000000000)
  start_ns : Fits64 start.ns
  period_sec : Fits64 (period.sec.toInt * 1000000000)
  period_ns : Fits64 period.ns
  product : Fits64 (period.ns * (100 - p.compare.perout.dutyCycle.toInt))
  since : Fits64 (start.ns - p.tc.nsec.toNat)
  start_scales : p.Scales (start.ns - p.tc.nsec.toNat)
  period_scales : p.Scales period.ns
  low_scales : p.Scales (lowNs p.compare.perout.dutyCycle period.ns)
  offset : p.cyclesOf (start.ns - p.tc.nsec.toNat) % 4294967296 + p.tc.cycleLast.toNat
    < 18446744073709551616

/-- The values a started output has: nothing overflowed, both are what was asked for, and the pin
toggles twice in a period. -/
structure Usable (p : Am335x φ) (start period : PtpClockTime) (p' : Am335x φ) : Prop where
  exact : p.StartExact start period
  load : (p'.compare.load.toNat : Int) = p.cyclesOf period.ns
  matchValue : (p'.compare.matchValue.toNat : Int)
    = p.cyclesOf (lowNs p.compare.perout.dutyCycle period.ns)
  match_pos : 0 < p'.compare.matchValue.toNat
  match_lt : p'.compare.matchValue.toNat < p'.compare.load.toNat

variable {timer : OmapDmTimer} {start period : PtpClockTime}

theorem edged_compareTimer (hid : timer.id = compareTimer) : p.edged timer = p :=
  if_pos hid

theorem configure_values (id : ChannelId) (timer core : OmapDmTimer) (ts tp duty : Int64) :
    (p.configure id timer core ts tp duty).compare.load = (p.cycles tp).toUInt32
      ∧ (p.configure id timer core ts tp duty).compare.matchValue = (p.cycles duty).toUInt32 := by
  unfold configure
  cases id <;> exact ⟨rfl, rfl⟩

/-- The values of an output that is started on the compare timer. -/
theorem perout_start_values (id : ChannelId) {core : OmapDmTimer} (hlocked : p.locked = false)
    (ht : (p.channel id).timer = some timer) (hc : p.core.timer = some core)
    (hid : timer.id = compareTimer) (h : p.Startable (p.channel id).start (p.channel id).period) :
    ∃ p', p.qotAm335xPerout id .eventStart = some (0, p')
      ∧ p'.compare.load = (p.cycles (ptpToS64 (p.channel id).period)).toUInt32
      ∧ p'.compare.matchValue = (p.cycles (ptpToS64 (p.channel id).period
        * (100 - p.compare.perout.dutyCycle.toInt64) / 100)).toUInt32 := by
  have hperout := perout_start hlocked ht hc
  rw [if_neg (not_not.mpr h.1), if_neg (not_not.mpr h.2), edged_compareTimer hid] at hperout
  obtain ⟨hload, hmatch⟩ := configure_values (p := p) id timer core
    ((ptpToS64 (p.channel id).start).toUInt64 - p.tc.nsec).toInt64 (ptpToS64 (p.channel id).period)
    (p.duty timer (ptpToS64 (p.channel id).period))
  refine ⟨_, hperout, hload, hmatch.trans ?_⟩
  unfold duty
  rw [if_pos hid]

namespace Tuned

variable (h : p.Tuned)

include h

/-- Up to the largest period, cycles fit in a register. -/
theorem toNat_register {ns : Int64} (h0 : 0 ≤ ns.toInt) (hle : ns.toInt ≤ 100000000000) :
    ((p.cycles ns).toUInt32.toNat : Int) = p.cyclesOf ns.toInt := by
  obtain ⟨n, hn⟩ := Int.eq_ofNat_of_zero_le h0
  rw [toNat_toUInt32, h.toNat_cycles hn (by omega), Nat.mod_eq_of_lt (h.cycles_lt (by omega)), hn]
  unfold cyclesOf
  push_cast
  rfl

theorem scales {ns : Int} (h0 : 0 ≤ ns) (hle : ns ≤ 100000000000) : p.Scales ns := by
  have hfrac := h.frac
  unfold Scales
  omega

/-- A cycle ends between two times exactly if the one that is running at the second of them has
begun after the first. -/
theorem cyclesOf_lt_iff (a b : Int) :
    p.cyclesOf a < p.cyclesOf b
      ↔ (b * 67108864 + p.tc.frac.toNat) % p.cc.mult.toNat < (b - a) * 67108864 := by
  have hsplit := Int.ediv_mul_add_emod (b * 67108864 + p.tc.frac.toNat) p.cc.mult.toNat
  unfold cyclesOf
  rw [Int.ediv_lt_iff_lt_mul h.mult_pos]
  omega

end Tuned

/-- The condition on a request that `EVENT_START` accepts: its times are what the words say, and the
duty cycle leaves a cycle of the counter in either part of the period. A cycle is between 41 and 42
nanoseconds long. So 42 ns are enough for the low part, which begins with the fraction of the
timecounter, and 41 ns are if that fraction makes up for the rest; more than 41 ns are enough for
the high part, and otherwise the last cycle of the period must end in it. -/
def StartSound (p : Am335x φ) (start period : PtpClockTime) : Prop :=
  let duty := p.compare.perout.dutyCycle.toInt
  Fits64 start.ns ∧ Fits64 (start.ns - p.tc.nsec.toNat) ∧ Fits64 period.ns ∧ 1 ≤ duty
    ∧ (4200 ≤ period.ns * (100 - duty)
      ∨ 4100 ≤ period.ns * (100 - duty) ∧ p.cc.mult.toNat ≤ 41 * 67108864 + p.tc.frac.toNat)
    ∧ (4100 < period.ns * duty
      ∨ (period.ns * 67108864 + p.tc.frac.toNat) % p.cc.mult.toNat
        < (period.ns * duty + 99) / 100 * 67108864)

namespace Startable

variable {start period : PtpClockTime} (hstartable : p.Startable start period)

include hstartable

theorem period_range (hfits : Fits64 period.ns) : 1000 ≤ period.ns ∧ period.ns ≤ 100000000000 := by
  have hrange := (inRange_iff _).1 hstartable.1
  rwa [toInt_ptpToS64, wrap64_of_fits hfits] at hrange

theorem since_range (hfits : Fits64 start.ns) (hsince : Fits64 (start.ns - p.tc.nsec.toNat)) :
    1000 ≤ start.ns - p.tc.nsec.toNat ∧ start.ns - p.tc.nsec.toNat ≤ 100000000000 := by
  have hrange := (inRange_iff _).1 hstartable.2
  have hword := toNat_toUInt64 (ptpToS64 start)
  have hnsec := toNat_lt p.tc.nsec
  rw [toInt_ptpToS64, wrap64_of_fits hfits] at hword
  have hwrap : (((ptpToS64 start).toUInt64 - p.tc.nsec).toInt64).toInt
      = start.ns - p.tc.nsec.toNat := by
    rw [toInt_toInt64, UInt64.toNat_sub, ← wrap64_of_fits hsince]
    apply wrap64_congr
    omega
  rwa [hwrap] at hrange

end Startable

theorem fits_sec_of_ns {t : PtpClockTime} (h0 : 0 ≤ t.ns) (hfits : Fits64 t.ns) :
    Fits64 (t.sec.toInt * 1000000000) := by
  have hnsec := t.nsec.toNat_lt
  unfold PtpClockTime.ns at h0 hfits
  omega

theorem lowNs_range {dutyCycle : Int32} (ns : Int) (hns : 0 ≤ ns) (hpos : 1 ≤ dutyCycle.toInt)
    (hduty : dutyCycle.toInt < 100) : 0 ≤ lowNs dutyCycle ns ∧ lowNs dutyCycle ns ≤ ns := by
  rw [lowNs_eq_div hns (by omega)]
  have hlow : 0 ≤ ns * (100 - dutyCycle.toInt) := Int.mul_nonneg hns (by omega)
  have hhigh : ns * (100 - dutyCycle.toInt) ≤ ns * 100 :=
    Int.mul_le_mul_of_nonneg_left (by omega) hns
  omega

/-- A duty cycle of zero or less makes the low part the whole period, or more. -/
theorem le_lowNs (dutyCycle : Int32) (ns : Int) (hns : 0 ≤ ns) (hduty : dutyCycle.toInt ≤ 0) :
    ns ≤ lowNs dutyCycle ns := by
  rw [lowNs_eq_div hns (by omega)]
  have hhigh : ns * 100 ≤ ns * (100 - dutyCycle.toInt) :=
    Int.mul_le_mul_of_nonneg_left (by omega) hns
  omega

namespace Tuned

variable (h : p.Tuned) {dutyCycle : Int32} {ns : Int} (hns : 0 ≤ ns) (hduty : dutyCycle.toInt < 100)

include h hns hduty

/-- Which low parts have a cycle. -/
theorem low_cycle_iff :
    1 ≤ p.cyclesOf (lowNs dutyCycle ns)
      ↔ 4200 ≤ ns * (100 - dutyCycle.toInt)
        ∨ 4100 ≤ ns * (100 - dutyCycle.toInt)
          ∧ p.cc.mult.toNat ≤ 41 * 67108864 + p.tc.frac.toNat := by
  have hrange := h.mult_range
  have hfrac := h.frac
  unfold cyclesOf
  rw [Int.le_ediv_iff_mul_le h.mult_pos, lowNs_eq_div hns (by omega)]
  omega

/-- Which high parts have one. -/
theorem high_cycle_iff :
    p.cyclesOf (lowNs dutyCycle ns) < p.cyclesOf ns
      ↔ 4100 < ns * dutyCycle.toInt
        ∨ (ns * 67108864 + p.tc.frac.toNat) % p.cc.mult.toNat
          < (ns * dutyCycle.toInt + 99) / 100 * 67108864 := by
  have hrange := h.mult_range
  have hrest := Int.emod_lt_of_pos (ns * 67108864 + p.tc.frac.toNat) h.mult_pos
  have hparts : ns * (100 - dutyCycle.toInt) = ns * 100 - ns * dutyCycle.toInt := Int.mul_sub ..
  rw [h.cyclesOf_lt_iff, lowNs_eq_div hns (by omega), hparts]
  omega

end Tuned

theorem Tuned.startExact (h : p.Tuned) (hcycle : p.tc.cycleLast.toNat < 4294967296)
    (hstartable : p.Startable start period) (hduty : p.compare.perout.dutyCycle.toInt < 100)
    (hsound : p.StartSound start period) : p.StartExact start period := by
  obtain ⟨hstart, hsince, hperiod, hpos, -, -⟩ := hsound
  have hp := hstartable.period_range hperiod
  have hs := hstartable.since_range hstart hsince
  have hlow := lowNs_range period.ns (by omega) hpos hduty
  -- the product before the division by a hundred is the largest of the numbers
  have hproduct : period.ns * (100 - p.compare.perout.dutyCycle.toInt) ≤ 100000000000 * 100 :=
    Int.mul_le_mul hp.2 (by omega) (by omega) (by decide)
  have hproduct0 : 0 ≤ period.ns * (100 - p.compare.perout.dutyCycle.toInt) :=
    Int.mul_nonneg (by omega) (by omega)
  refine ⟨fits_sec_of_ns (by omega) hstart, hstart, fits_sec_of_ns (by omega) hperiod, hperiod, ?_,
    hsince, h.scales (by omega) (by omega), h.scales (by omega) (by omega),
    h.scales (by omega) (by omega), ?_⟩
  · omega
  · have hoffset := Int.emod_lt_of_pos (p.cyclesOf (start.ns - p.tc.nsec.toNat))
      (show (0 : Int) < 4294967296 by decide)
    omega

/-- Values that are usable ask for what `StartSound` says. -/
theorem Usable.startSound {p' : Am335x φ} (h : p.Usable start period p') (htuned : p.Tuned)
    (haccepted : p.Startable start period) (hduty : p.compare.perout.dutyCycle.toInt < 100) :
    p.StartSound start period := by
  obtain ⟨hexact, hload, hmatch, hpos, hlt⟩ := h
  have hperiod := haccepted.period_range hexact.period_ns
  have hmult := htuned.mult_pos
  refine ⟨hexact.start_ns, hexact.since, hexact.period_ns, ?_, ?_, ?_⟩
  · -- otherwise the match would not be below the load
    by_contra hzero
    have hlow := le_lowNs p.compare.perout.dutyCycle period.ns (by omega) (by omega)
    have hmono : p.cyclesOf period.ns ≤ p.cyclesOf (lowNs p.compare.perout.dutyCycle period.ns) :=
      Int.ediv_le_ediv hmult (by omega)
    omega
  · exact (htuned.low_cycle_iff (by omega) hduty).1 (by omega)
  · exact (htuned.high_cycle_iff (by omega) hduty).1 (by omega)

/-- Under `StartSound` the two values are the cycles of the period and of its low part. -/
theorem Tuned.usable (htuned : p.Tuned) (hcycle : p.tc.cycleLast.toNat < 4294967296)
    (haccepted : p.Startable start period) (hduty : p.compare.perout.dutyCycle.toInt < 100)
    (hsound : p.StartSound start period) {p' : Am335x φ}
    (hload : p'.compare.load = (p.cycles (ptpToS64 period)).toUInt32)
    (hmatch : p'.compare.matchValue = (p.cycles (ptpToS64 period
      * (100 - p.compare.perout.dutyCycle.toInt64) / 100)).toUInt32) :
    p.Usable start period p' := by
  have hexact := htuned.startExact hcycle haccepted hduty hsound
  obtain ⟨-, -, hfits, hpos, hone, hcycles⟩ := hsound
  have hperiod := haccepted.period_range hfits
  have htp : (ptpToS64 period).toInt = period.ns := by rw [toInt_ptpToS64, wrap64_of_fits hfits]
  have hlow := lowNs_range period.ns (by omega) hpos hduty
  have hlowWord := toInt_lowNs p.compare.perout.dutyCycle (ptpToS64 period) (htp ▸ hexact.product)
  rw [htp] at hlowWord
  generalize ptpToS64 period * (100 - p.compare.perout.dutyCycle.toInt64) / 100
    = low at hmatch hlowWord
  have hload' : (p'.compare.load.toNat : Int) = p.cyclesOf period.ns := by
    rw [hload, htuned.toNat_register (by omega) (by omega), htp]
  have hmatch' : (p'.compare.matchValue.toNat : Int)
      = p.cyclesOf (lowNs p.compare.perout.dutyCycle period.ns) := by
    rw [hmatch, htuned.toNat_register (by omega) (by omega), hlowWord]
  have hlt := (htuned.high_cycle_iff (by omega) hduty).2 hcycles
  have hge := (htuned.low_cycle_iff (by omega) hduty).2 hone
  exact ⟨hexact, hload', hmatch', by omega, by omega⟩

/-- Periods from 4.2 microseconds on can have every duty cycle from 1 to 99. -/
theorem startSound_of_le (hstart : Fits64 start.ns) (hsince : Fits64 (start.ns - p.tc.nsec.toNat))
    (hfits : Fits64 period.ns) (hperiod : 4200 ≤ period.ns)
    (hpos : 1 ≤ p.compare.perout.dutyCycle.toInt) (hduty : p.compare.perout.dutyCycle.toInt < 100) :
    p.StartSound start period := by
  have hlow : 4200 * 1 ≤ period.ns * (100 - p.compare.perout.dutyCycle.toInt) :=
    Int.mul_le_mul hperiod (by omega) (by decide) (by omega)
  have hhigh : 4200 * 1 ≤ period.ns * p.compare.perout.dutyCycle.toInt :=
    Int.mul_le_mul hperiod hpos (by decide) (by omega)
  exact ⟨hstart, hsince, hfits, hpos, Or.inl (by omega), Or.inl (by omega)⟩

/-- **A started output is usable** exactly under `StartSound`, and so whenever its times fit, its
period is at least 4.2 microseconds and its duty cycle at least 1. -/
theorem start_usable_iff (p : Am335x φ) (id : ChannelId) {timer core : OmapDmTimer}
    (hlocked : p.locked = false) (ht : (p.channel id).timer = some timer)
    (hc : p.core.timer = some core)
    (hid : timer.id = compareTimer) (htuned : p.Tuned) (hcycle : p.tc.cycleLast.toNat < 2 ^ 32)
    (hduty : p.compare.perout.dutyCycle.toInt < 100)
    (haccepted : p.Startable (p.channel id).start (p.channel id).period) :
    ∃ p', p.qotAm335xPerout id .eventStart = some (0, p')
      ∧ (p.Usable (p.channel id).start (p.channel id).period p'
        ↔ p.StartSound (p.channel id).start (p.channel id).period)
      ∧ (Fits64 (p.channel id).start.ns → Fits64 ((p.channel id).start.ns - p.tc.nsec.toNat) →
        Fits64 (p.channel id).period.ns → 4200 ≤ (p.channel id).period.ns →
        1 ≤ p.compare.perout.dutyCycle.toInt →
        p.Usable (p.channel id).start (p.channel id).period p') := by
  obtain ⟨p', hresult, hload, hmatch⟩ := perout_start_values id hlocked ht hc hid haccepted
  refine ⟨p', hresult, ⟨?_, ?_⟩, ?_⟩
  · intro husable
    exact husable.startSound htuned haccepted hduty
  · intro hsound
    exact htuned.usable hcycle haccepted hduty hsound hload hmatch
  · intro hstart hsince hfits hperiod hpos
    exact htuned.usable hcycle haccepted hduty
      (startSound_of_le hstart hsince hfits hperiod hpos hduty) hload hmatch

/-- The board with a request of file 5 in core time: an output from two seconds on. -/
def requested (corePeriod : Timelength) (dutyCycle : Int32) : Am335x Nat :=
  boardDriver.program ⟨2, 0⟩ corePeriod { outputOf5 with dutyCycle := dutyCycle }

theorem tuned_requested (corePeriod : Timelength) (dutyCycle : Int32) :
    (requested corePeriod dutyCycle).Tuned :=
  (tuned_probed _ _ 0 1000000000).program _ _ _

/-- A millisecond, half of it high. -/
theorem start_usable_ms :
    ∃ p', (requested ⟨0, 1000000000000000⟩ 50).qotAm335xPerout (.pin comparePin) .eventStart
      = some (0, p')
      ∧ (requested ⟨0, 1000000000000000⟩ 50).Usable ⟨2, 0⟩ ⟨0, 1000000⟩ p' := by
  obtain ⟨p', hresult, -, husable⟩ := start_usable_iff (requested ⟨0, 1000000000000000⟩ 50)
    (.pin comparePin) rfl rfl rfl rfl (tuned_requested _ _) (by decide) (by decide)
    ⟨by decide, by decide⟩
  exact ⟨p', hresult,
    husable (by decide) (by decide) (by decide) (by decide) (by decide)⟩

/-- **Values the timer cannot run with.** Of a microsecond that is high for 99 hundredths the low
part is no cycle long; with a duty cycle of zero it is the whole period. -/
theorem start_not_usable :
    ((requested ⟨0, 1000000000000⟩ 99).qotAm335xPerout (.pin comparePin) .eventStart).map
        (fun r => (r.1, r.2.compare.load, r.2.compare.matchValue)) = some (0, 23, 0)
      ∧ ((requested ⟨0, 1000000000000000⟩ 0).qotAm335xPerout (.pin comparePin) .eventStart).map
        (fun r => (r.1, r.2.compare.load, r.2.compare.matchValue)) = some (0, 23999, 23999) := by
  decide

/-! ## Reprogramming an output that runs -/

section LowPart

-- The period, the fraction, the multiplier, the power of the shift, and the low part in hundredths.
variable {n f m s k : Nat} (hf : f < s) (hs : s ≤ m) (hk : k ≤ 100)

include hf hs hk

/-- Scaled and then divided, the low part is at most a cycle more than divided and then scaled. -/
theorem low_of_scaled_le : (n * s + f) / m * k / 100 ≤ (n * k / 100 * s + f) / m + 1 := by
  generalize hL : (n * s + f) / m = L
  generalize hA : L * k / 100 = A
  generalize hD : n * k / 100 = D
  generalize hB : (D * s + f) / m = B
  have hm : 0 < m := by omega
  have hA' : A * 100 ≤ L * k := hA ▸ Nat.div_mul_le_self _ _
  have hL' : L * m ≤ n * s + f := hL ▸ Nat.div_mul_le_self _ _
  have hD' : n * k ≤ D * 100 + 99 := by omega
  have hB' : D * s + f < (B + 1) * m := hB ▸ Nat.lt_mul_of_div_lt (Nat.lt_succ_self _) hm
  by_contra hlt
  have hchain : (B + 2) * 100 * m ≤ (D * 100 + 99) * s + f * 100 := calc
    (B + 2) * 100 * m ≤ A * 100 * m := by gcongr; omega
    _ ≤ L * k * m := by gcongr
    _ = L * m * k := by ring
    _ ≤ (n * s + f) * k := by gcongr
    _ = n * k * s + f * k := by ring
    _ ≤ (D * 100 + 99) * s + f * 100 := by gcongr
  linarith

theorem low_of_scaled_ge : (n * k / 100 * s + f) / m ≤ (n * s + f) / m * k / 100 + 1 := by
  generalize hL : (n * s + f) / m = L
  generalize hA : L * k / 100 = A
  generalize hD : n * k / 100 = D
  generalize hB : (D * s + f) / m = B
  have hm : 0 < m := by omega
  have hA' : L * k ≤ A * 100 + 99 := by omega
  have hL' : n * s + f ≤ (L + 1) * m := (hL ▸ Nat.lt_mul_of_div_lt (Nat.lt_succ_self _) hm).le
  have hD' : D * 100 ≤ n * k := hD ▸ Nat.div_mul_le_self _ _
  have hB' : B * m ≤ D * s + f := hB ▸ Nat.div_mul_le_self _ _
  by_contra hlt
  have hupper : (A + 2) * 100 * m ≤ n * k * s + f * 100 := calc
    (A + 2) * 100 * m ≤ B * 100 * m := by gcongr; omega
    _ = B * m * 100 := by ring
    _ ≤ (D * s + f) * 100 := by gcongr
    _ = D * 100 * s + f * 100 := by ring
    _ ≤ n * k * s + f * 100 := by gcongr
  have hlower : n * k * s + f * k ≤ (A * 100 + 99) * m + m * k := calc
    n * k * s + f * k = (n * s + f) * k := by ring
    _ ≤ (L + 1) * m * k := by gcongr
    _ = L * k * m + m * k := by ring
    _ ≤ (A * 100 + 99) * m + m * k := by gcongr
  -- what the fraction adds in the high part is less than what the rounding takes there
  have hhigh : f * (100 - k) ≤ m * (100 - k) := by gcongr; omega
  rw [Nat.mul_sub, Nat.mul_sub] at hhigh
  have hfk : f * k ≤ f * 100 := by gcongr
  have hmk : m * k ≤ m * 100 := by gcongr
  have hhigh' : f * 100 + m * k ≤ m * 100 + f * k := by omega
  linarith

end LowPart

/-- Two low parts of the same cycles that come within two cycles are less than three apart. -/
theorem low_part_close {l k k' : Nat} (h : l * k / 100 ≤ l * k' / 100 + 2)
    (h' : l * k' / 100 ≤ l * k / 100 + 2) : l * ((k : Int) - k').natAbs < 300 := by
  obtain hle | hle := Nat.le_total k k'
  · obtain ⟨e, rfl⟩ := Nat.exists_eq_add_of_le hle
    have habs : ((k : Int) - (k + e : Nat)).natAbs = e := by omega
    rw [Nat.mul_add] at h h'
    rw [habs]
    omega
  · obtain ⟨e, rfl⟩ := Nat.exists_eq_add_of_le hle
    have habs : ((k' + e : Nat) - (k' : Int)).natAbs = e := by omega
    rw [Nat.mul_add] at h h'
    rw [habs]
    omega

theorem toInt_tlToNsec {d : Timelength} (h : d.value ≤ 100000000000000000000) :
    (tlToNsec d).toInt64.toInt = d.value / 1000000000 := by
  have hfloor : ((tlToNsec d).toNat : Int) = d.value / 1000000000 :=
    TimeUnit.nsec.tlTo_floor (show d.value / 1000000000 < 18446744073709551616 by omega)
  rw [toInt_toInt64, hfloor]
  apply wrap64_of_fits
  have h0 := d.value_nonneg
  omega

/-- The driver keeps a core period as seconds and nanoseconds. -/
theorem toInt_ptpOfTimelength {d : Timelength} (hnorm : d.Normalised)
    (h : d.value ≤ 100000000000000000000) :
    (ptpToS64 (ptpOfTimelength d)).toInt = d.value / 1000000000 := by
  unfold Timelength.value at h ⊢
  have hsec : d.sec.toInt64.toInt = d.sec.toNat := by
    rw [toInt_toInt64]
    exact wrap64_of_fits (by omega)
  have hnsec : (d.asec / 1000000000).toUInt32.toNat = d.asec.toNat / 1000000000 := by
    rw [toNat_toUInt32, UInt64.toNat_div]
    show d.asec.toNat / 1000000000 % 4294967296 = _
    omega
  have hns : (ptpOfTimelength d).ns
      = d.sec.toNat * 1000000000 + (d.asec.toNat / 1000000000 : Nat) := by
    unfold PtpClockTime.ns ptpOfTimelength
    rw [hsec, hnsec]
  rw [toInt_ptpToS64, hns, wrap64_of_fits (by omega)]
  omega

theorem toNat_low_half {a : Int64} {l : Nat} (h : a.toInt = l) (hlt : l < 4294967296) :
    a.toUInt64.toUInt32.toNat = l := by
  have hword := toNat_toUInt64_of_nonneg (a := a) (by omega)
  rw [toNat_toUInt32]
  omega

/-- Two register values that are a cycle apart at most. -/
def WithinOne (a b : UInt32) : Prop := a.toNat ≤ b.toNat + 1 ∧ b.toNat ≤ a.toNat + 1

/-- What an output that was started has run through. -/
theorem startable_of_perout_start {id : ChannelId} {core : OmapDmTimer} {q : Am335x φ}
    (hlocked : p.locked = false) (ht : (p.channel id).timer = some timer)
    (hc : p.core.timer = some core) (h : p.qotAm335xPerout id .eventStart = some (0, q)) :
    p.Startable (p.channel id).start (p.channel id).period := by
  rw [perout_start hlocked ht hc] at h
  split at h
  · cases h
  next hperiod =>
    split at h
    · cases h
    next hstart => exact ⟨not_not.1 hperiod, not_not.1 hstart⟩

namespace Tuned

variable (h : p.Tuned) {n : Nat}

section Values

variable {tp : Int64} (hn : tp.toInt = n) (hle : n ≤ 100000000000)

include hn hle

theorem toInt_low {dutyCycle : Int32} {k : Nat} (hk : (k : Int) = 100 - dutyCycle.toInt)
    (hk' : k ≤ 100) : (tp * (100 - dutyCycle.toInt64) / 100).toInt = (n * k / 100 : Nat) := by
  have hproduct : (n : Int) * (100 - dutyCycle.toInt) = (n * k : Nat) := by
    rw [← hk]
    push_cast
    rfl
  have hbound : n * k ≤ n * 100 := Nat.mul_le_mul_left _ hk'
  have hlow := toInt_lowNs dutyCycle tp (by rw [hn, hproduct]; omega)
  rwa [hn, lowNs_eq_div (by omega) (by omega), hproduct] at hlow

include h

/-- The load a request for a running output leaves. -/
theorem reprogram_load (perout : QotPerout φ) : (p.reprogram tp perout).compare.load.toNat
    = (n * 67108864 + p.tc.frac.toNat) / p.cc.mult.toNat := by
  have hcycles := h.toNat_cycles hn (by omega)
  have hlt := h.cycles_lt hle
  show (p.cycles tp).toInt64.toUInt64.toUInt32.toNat = _
  rw [UInt64.toUInt64_toInt64, toNat_toUInt32, hcycles, Nat.mod_eq_of_lt hlt]

variable {k : Nat} (hk : (k : Int) = 100 - p.compare.perout.dutyCycle.toInt) (hk' : k ≤ 100)

include hk hk'

/-- The match it leaves: the low part of the load, with the duty cycle of the output that runs. -/
theorem reprogram_match (perout : QotPerout φ) : (p.reprogram tp perout).compare.matchValue.toNat
    = (n * 67108864 + p.tc.frac.toNat) / p.cc.mult.toNat * k / 100 := by
  have hcycles := h.toNat_cycles hn (by omega)
  have hlt := h.cycles_lt hle
  generalize (n * 67108864 + p.tc.frac.toNat) / p.cc.mult.toNat = l at hcycles hlt
  have hsigned : (p.cycles tp).toInt64.toInt = l := by
    rw [toInt_toInt64, hcycles]
    exact wrap64_of_fits (by omega)
  have hbound : l * k ≤ l * 100 := Nat.mul_le_mul_left _ hk'
  exact toNat_low_half (toInt_low hsigned (by omega) hk hk') (by omega)

/-- The values an output is started with, for the same period. -/
theorem start_values :
    (p.cycles tp).toUInt32.toNat = (n * 67108864 + p.tc.frac.toNat) / p.cc.mult.toNat
      ∧ (p.cycles (tp * (100 - p.compare.perout.dutyCycle.toInt64) / 100)).toUInt32.toNat
        = (n * k / 100 * 67108864 + p.tc.frac.toNat) / p.cc.mult.toNat := by
  have hbound : n * k ≤ n * 100 := Nat.mul_le_mul_left _ hk'
  rw [toNat_toUInt32, toNat_toUInt32, h.toNat_cycles hn (by omega),
    h.toNat_cycles (toInt_low hn hle hk hk') (by omega)]
  exact ⟨Nat.mod_eq_of_lt (h.cycles_lt hle), Nat.mod_eq_of_lt (h.cycles_lt (by omega))⟩

end Values

include h

/-- The values a request would be started with on the compare pin. -/
theorem program_start_values {timer core : OmapDmTimer} (hlocked : p.locked = false)
    (ht : (p.pins comparePin).timer = some timer) (hc : p.core.timer = some core)
    (hid : timer.id = compareTimer) {coreStart : Timepoint} {corePeriod : Timelength}
    {perout : QotPerout φ} {q : Am335x φ} {k : Nat} (hnorm : corePeriod.Normalised)
    (hn : corePeriod.value / 1000000000 = n) (hle : corePeriod.value ≤ 100000000000000000000)
    (hk : (k : Int) = 100 - perout.dutyCycle.toInt) (hk' : k ≤ 100)
    (hstart : (p.program coreStart corePeriod perout).qotAm335xPerout (.pin comparePin) .eventStart
      = some (0, q)) :
    q.compare.load.toNat = (n * 67108864 + p.tc.frac.toNat) / p.cc.mult.toNat
      ∧ q.compare.matchValue.toNat
        = (n * k / 100 * 67108864 + p.tc.frac.toNat) / p.cc.mult.toNat := by
  have htp := toInt_ptpOfTimelength hnorm hle
  rw [hn] at htp
  have hchannel := program_channel (p := p) coreStart corePeriod perout
  -- the same clock, with the new request
  generalize hprogram : p.program coreStart corePeriod perout = r at hstart hchannel
  have htuned : r.Tuned := hprogram ▸ h.program _ _ _
  have hclock : r.tc = p.tc ∧ r.cc = p.cc ∧ r.compare.perout = perout := by
    rw [← hprogram]
    exact ⟨rfl, rfl, rfl⟩
  have hlocked' : r.locked = false := by
    rw [← hprogram]
    exact hlocked
  have hc' : r.core.timer = some core := by
    rw [← hprogram]
    exact hc
  have ht' : (r.channel (.pin comparePin)).timer = some timer := by
    rw [hchannel]
    exact ht
  obtain ⟨q', hq', hload, hmatch⟩ := perout_start_values (.pin comparePin) hlocked' ht' hc' hid
    (startable_of_perout_start hlocked' ht' hc' hstart)
  obtain rfl : q = q' := by
    rw [hq'] at hstart
    cases hstart
    rfl
  rw [hchannel] at hload hmatch
  rw [← hclock.1, ← hclock.2.1, hload, hmatch]
  exact htuned.start_values htp (by omega) (by rw [hclock.2.2]; exact hk) hk'

end Tuned

/-- **Reprogramming.** The load is the one the output would be started with. The match is, up to a
cycle, if the duty cycle is the one of the output that runs; with another one it is only if the
difference is less than three cycles of the period. -/
theorem reprogram_within_a_cycle [DecidableEq φ] (p : Am335x φ) {timer core : OmapDmTimer}
    (hlocked : p.locked = false) (ht : (p.pins comparePin).timer = some timer)
    (hc : p.core.timer = some core) (hid : timer.id = compareTimer) (htuned : p.Tuned)
    (perout : QotPerout φ) (howner : p.compare.perout.ownerFile = perout.ownerFile)
    (hlater : p.Deferred perout) (coreStart : Timepoint) (corePeriod : Timelength)
    (hnorm : corePeriod.Normalised) (hmin : 1000 * 10 ^ 9 ≤ corePeriod.value)
    (hmax : corePeriod.value ≤ 10 ^ 11 * 10 ^ 9) (hpos : 1 ≤ perout.dutyCycle.toInt)
    (hduty : perout.dutyCycle.toInt ≤ 99) :
    ∃ p', p.enableCompareOn coreStart corePeriod perout = some (0, p')
      ∧ ∀ coreStart' q,
        (p.program coreStart' corePeriod perout).qotAm335xPerout (.pin comparePin) .eventStart
          = some (0, q) →
        p'.compare.load = q.compare.load
          ∧ (p.compare.perout.dutyCycle = perout.dutyCycle →
            WithinOne p'.compare.matchValue q.compare.matchValue)
          ∧ (1 ≤ p.compare.perout.dutyCycle.toInt → p.compare.perout.dutyCycle.toInt ≤ 99 →
            WithinOne p'.compare.matchValue q.compare.matchValue →
            q.compare.load.toNat * (p.compare.perout.dutyCycle.toInt
              - perout.dutyCycle.toInt).natAbs
              < 300) := by
  have htp := toInt_tlToNsec (d := corePeriod) (by omega)
  have hrange : InRange (tlToNsec corePeriod).toInt64 := by
    rw [inRange_iff, htp]
    omega
  -- the owner is not refused, and the start is later: this is the branch that only stores the
  -- values
  have hrefused : ¬ p.Refused perout := fun hr => hr.2 howner
  refine ⟨p.reprogram (tlToNsec corePeriod).toInt64 perout, ?_, ?_⟩
  · rw [enableCompareOn_eq hlocked, if_neg hrefused, if_pos hlater, if_neg (not_not.mpr hrange)]
  intro coreStart' q hstart
  obtain ⟨n, hn⟩ := Int.eq_ofNat_of_zero_le (show 0 ≤ corePeriod.value / 1000000000 by omega)
  obtain ⟨k, hk⟩ := Int.eq_ofNat_of_zero_le (show 0 ≤ 100 - perout.dutyCycle.toInt by omega)
  obtain ⟨hload, hmatch⟩ :=
    htuned.program_start_values hlocked ht hc hid hnorm hn (by omega) hk.symm
    (by omega) hstart
  have hfrac := htuned.frac
  have hmult : 67108864 ≤ p.cc.mult.toNat := by have := htuned.mult_range; omega
  have hless := low_of_scaled_le (n := n) (k := k) hfrac hmult (by omega)
  have hmore := low_of_scaled_ge (n := n) (k := k) hfrac hmult (by omega)
  refine ⟨?_, ?_, ?_⟩
  · apply UInt32.toNat_inj.1
    rw [hload, htuned.reprogram_load (htp.trans hn) (by omega)]
  · intro hsame
    have hmatch' := htuned.reprogram_match (k := k) (htp.trans hn) (by omega)
      (by rw [hsame]; exact hk.symm) (by omega) perout
    unfold WithinOne
    rw [hmatch', hmatch]
    exact ⟨hless, hmore⟩
  · intro hold hold' hclose
    obtain ⟨k', hk'⟩ := Int.eq_ofNat_of_zero_le
      (show 0 ≤ 100 - p.compare.perout.dutyCycle.toInt by omega)
    have hmatch' :=
      htuned.reprogram_match (k := k') (htp.trans hn) (by omega) hk'.symm (by omega) perout
    unfold WithinOne at hclose
    rw [hmatch', hmatch] at hclose
    rw [hload]
    have hdiff : (p.compare.perout.dutyCycle.toInt - perout.dutyCycle.toInt).natAbs
        = ((k : Int) - k').natAbs := by omega
    rw [hdiff]
    exact low_part_close (by omega) (by omega)

/-- The board when the output of file 5 runs. -/
def running : Am335x Nat :=
  { requested ⟨0, 1000000000000000⟩ 50 with
    compare := { (requested ⟨0, 1000000000000000⟩ 50).compare with key := 1 } }

/-- File 5 asks for a change at three seconds. -/
def changeOf5 (dutyCycle : Int32) : QotPerout Nat :=
  { outputOf5 with start := ⟨3, 0⟩, period := ⟨0, 1000000000000000⟩, dutyCycle := dutyCycle }

theorem reprogram_within_a_cycle_running :
    ∃ p' q, running.enableCompareOn ⟨3, 0⟩ ⟨0, 1000000000000000⟩ (changeOf5 50) = some (0, p')
      ∧ (running.program ⟨3, 0⟩ ⟨0, 1000000000000000⟩ (changeOf5 50)).qotAm335xPerout
        (.pin comparePin)
        .eventStart = some (0, q)
      ∧ WithinOne p'.compare.matchValue q.compare.matchValue := by
  obtain ⟨p', hresult, hclose⟩ := reprogram_within_a_cycle running rfl rfl rfl rfl
    ⟨rfl, (tuned_requested ⟨0, 1000000000000000⟩ 50).mult, by decide⟩ (changeOf5 50) rfl (by decide)
    ⟨3, 0⟩ ⟨0, 1000000000000000⟩ (by decide) (by decide) (by decide) (by decide) (by decide)
  obtain ⟨q, hq, -⟩ := perout_start_values
    (p := running.program ⟨3, 0⟩ ⟨0, 1000000000000000⟩ (changeOf5 50)) (.pin comparePin)
    rfl rfl rfl rfl ⟨by decide, by decide⟩
  exact ⟨p', q, hresult, hq, (hclose ⟨3, 0⟩ q hq).2.1 rfl⟩

/-- **The new duty cycle is not used.** An output that is high for half a millisecond is to be high
for a tenth of it: the match is still that of the half. -/
theorem reprogram_keeps_duty_cycle :
    (running.enableCompareOn ⟨3, 0⟩ ⟨0, 1000000000000000⟩ (changeOf5 10)).map
        (fun r => (r.1, r.2.compare.load, r.2.compare.matchValue)) = some (0, 23999, 11999)
      ∧ ((running.program ⟨3, 0⟩ ⟨0, 1000000000000000⟩ (changeOf5 10)).qotAm335xPerout
        (.pin comparePin) .eventStart).map
        (fun r => (r.1, r.2.compare.load, r.2.compare.matchValue)) = some (0, 23999, 21599) := by
  decide

/-! ## When the new values are written -/

/-- The timer with the new values. -/
def rewritten (p : Am335x φ) (timer : OmapDmTimer) : OmapDmTimer :=
  { timer with
    load := -p.compare.load
    matchValue := -p.compare.matchValue
    running := true
    counter := -p.compare.matchValue + am335xRewriteDelay }

theorem toNat_tpToNsec {t : Timepoint} (h0 : 0 ≤ t.value / 1000000000)
    (hfits : Fits64 (t.value / 1000000000)) :
    ((tpToNsec t).toUInt64.toNat : Int) = t.value / 1000000000 := by
  have hfloor : (tpToNsec t).toInt = t.value / 1000000000 := TimeUnit.nsec.tpTo_floor hfits
  rw [toNat_toUInt64_of_nonneg (by omega), hfloor]

/-- The left side of the comparison, as the source has it: the fraction of the period is added. -/
theorem toNat_before {start : Timepoint} (period : Timelength) (h0 : 0 ≤ start.value / 1000000000)
    (hfits : Fits64 (start.value / 1000000000)) :
    (((tpToNsec start).toUInt64 - period.sec * nSecPerSec + period.asec / nSecPerSec).toNat : Int)
      = (start.value / 1000000000 - period.sec.toNat * 1000000000
        + (period.asec.toNat / 1000000000 : Nat)) % 18446744073709551616 := by
  have hstart := toNat_tpToNsec h0 hfits
  have hn : nSecPerSec.toNat = 1000000000 := rfl
  rw [UInt64.toNat_add, UInt64.toNat_sub, UInt64.toNat_mul, UInt64.toNat_div, hn]
  omega

/-- The comparison of the source, in numbers. A negative difference is taken for a large one. -/
theorem before_lt_iff {start event : Timepoint} {period : Timelength} {limit : Int}
    (hstart0 : 0 ≤ start.value / 1000000000) (hstart : Fits64 (start.value / 1000000000))
    (hperiod : Fits64 (period.value / 1000000000)) (hevent0 : 0 ≤ event.value / 1000000000)
    (hevent : Fits64 (event.value / 1000000000))
    (hlimit : start.value / 1000000000 - period.sec.toNat * 1000000000
      + (period.asec.toNat / 1000000000 : Nat) = limit) :
    (tpToNsec start).toUInt64 - period.sec * nSecPerSec + period.asec / nSecPerSec
        < (tpToNsec event).toUInt64
      ↔ 0 ≤ limit ∧ limit < event.value / 1000000000 := by
  have hbefore := toNat_before period hstart0 hstart
  have hnow := toNat_tpToNsec hevent0 hevent
  have hasec := toNat_lt period.asec
  rw [hlimit] at hbefore
  unfold Timelength.value at hperiod
  rw [UInt64.lt_iff_toNat_lt]
  omega

/-- The new values are due, a match at `event` being less than a period before the start, and are
not written: the match is not late enough for a difference to which the fraction of the period has
been added instead of subtracted, or that difference is negative and taken for a large number. -/
abbrev RewriteMissed (start period event : Int) : Prop :=
  start - period < event
    ∧ (event ≤ start - period + 2 * (period % 1000000000)
      ∨ start - period + 2 * (period % 1000000000) < 0)

/-- **The moment of the new values.** At a match with the timeline time `event` they are written
exactly if the new start is less than a period away, unless the rewriting is missed, and then they
are not. -/
theorem rewrite_moment (p : Am335x φ) (id : ChannelId) (timer : OmapDmTimer) (event : Timepoint)
    (hflag : p.compare.reprogramFlag = true) (hnorm : p.compare.perout.period.Normalised)
    {start period now : Int} (hstart : p.compare.perout.start.value / 1000000000 = start)
    (hperiod : p.compare.perout.period.value / 1000000000 = period)
    (hnow : event.value / 1000000000 = now) (hstart0 : 0 ≤ start) (hstartFits : Fits64 start)
    (hperiodFits : Fits64 period) (hnow0 : 0 ≤ now) (hnowFits : Fits64 now) :
    (¬ RewriteMissed start period now →
        p.rewrite id timer event
          = if start - period < now then p.setTimer id (p.rewritten timer) else p)
      ∧ (RewriteMissed start period now → p.rewrite id timer event = p) := by
  subst hstart hperiod hnow
  have hcases := before_lt_iff hstart0 hstartFits hperiodFits hnow0 hnowFits rfl
  -- of a normalised period the seconds and the fraction are the quotient and the rest
  have hparts : p.compare.perout.start.value / 1000000000
        - p.compare.perout.period.sec.toNat * 1000000000
        + (p.compare.perout.period.asec.toNat / 1000000000 : Nat)
      = p.compare.perout.start.value / 1000000000 - p.compare.perout.period.value / 1000000000
        + 2 * (p.compare.perout.period.value / 1000000000 % 1000000000) := by
    unfold Timelength.value
    omega
  rw [hparts] at hcases
  simp only [rewrite, hflag, true_and, hcases]
  refine ⟨fun hnot => ?_, fun hmissed => if_neg (by omega)⟩
  split
  · rw [if_pos (by omega)]
    rfl
  · rw [if_neg (by omega)]

/-- The board with new values waiting: from `start` on, with period `period`. -/
def waiting (start : Timepoint) (period : Timelength) : Am335x Nat :=
  { running with
    compare := { running.compare with
      load := 1000
      matchValue := 500
      reprogramFlag := true
      perout := { running.compare.perout with start := start, period := period } } }

/-- With a period of 1.1 s the match at 3.2 s is less than a period before 4 s, and late enough. -/
theorem rewrite_moment_late :
    (waiting ⟨4, 0⟩ ⟨1, 100000000000000000⟩).rewrite (.pin comparePin) (omapTimer 7)
        ⟨3, 200000000000000000⟩
      = (waiting ⟨4, 0⟩ ⟨1, 100000000000000000⟩).setTimer (.pin comparePin)
        ((waiting ⟨4, 0⟩ ⟨1, 100000000000000000⟩).rewritten (omapTimer 7)) := by
  have hmoment := (rewrite_moment (waiting ⟨4, 0⟩ ⟨1, 100000000000000000⟩) (.pin comparePin)
    (omapTimer 7) ⟨3, 200000000000000000⟩ rfl (by decide) rfl rfl rfl (by decide)
    (by decide) (by decide) (by decide)
    (by decide)).1 (by decide)
  rw [hmoment, if_pos (by decide)]

/-- **The new values are late.** With a period of half a second they are due at a match at 2.8 s,
and are not written; with a start that is less than a period from the beginning they never are. -/
theorem rewrite_moment_missed :
    (((waiting ⟨3, 0⟩ ⟨0, 500000000000000000⟩).rewrite (.pin comparePin) (omapTimer 7)
        ⟨2, 800000000000000000⟩).pins comparePin).timer.map (·.load) = some 0
      ∧ (((waiting ⟨3, 0⟩ ⟨5, 0⟩).rewrite (.pin comparePin) (omapTimer 7)
        ⟨1000000, 0⟩).pins comparePin).timer.map (·.load) = some 0 := by
  decide

end Am335x

end Qot
