import Mathlib.Algebra.Order.Floor.Ring
import Mathlib.Data.Rat.Floor
import Mathlib.Tactic.FieldSimp
import QotStack.Types.Uncertain
import QotStack.Clock.Discipline

/-!
# QotStack — the published synchronisation uncertainty

The synchronisation daemon bounds the error of a disciplined clock by a predictor `p`, growing with
the time since the last discipline, and a margin `r`, present from the start
(`SyncUncertainty::CalculateBounds`). It rounds both to integers and hands them to the kernel,
which scales the predictor back with a truncating division and returns the sum as the interval
around every reading (`TIMELINE_SET_SYNC_UNCERTAINTY`, `TIMELINE_GET_TIME_NOW`).

The upper side is rounded up by the daemon. The lower side is rounded with the same `ceil`, which
on a negative bound goes *inward*, and the kernel's division goes inward on both. So the reported
interval covers the computed one only where nothing has to be rounded at all:
`sync_uncertainty_covers_iff`.
-/

namespace Qot

open MachineInt

/-- Upper and lower bound on current time (`qot_bounds_t`). -/
structure QotBounds where
  uDrift : Int64
  lDrift : Int64
  uNsec : Int64
  lNsec : Int64
  deriving DecidableEq, Repr

/-- The last part of `CalculateBounds`: the bounds it populates from the right predictor and the
right margin, the left ones being their opposites. -/
def calculateBounds (rightPredictor rightMargin : ℚ) : QotBounds where
  uDrift := Int64.ofInt ⌈rightPredictor * 1000000000⌉
  -- rounded up as well, and so towards zero
  lDrift := Int64.ofInt ⌈-rightPredictor * 1000000000⌉
  uNsec := Int64.ofInt ⌈rightMargin⌉
  lNsec := Int64.ofInt ⌈-rightMargin⌉

/-- Storing the bounds in a mapping: the drifts pass through 32 bits. -/
def setUncertainty (m : TlTranslation) (bounds : QotBounds) : TlTranslation :=
  { m with
    uMult := bounds.uDrift.toInt32.toInt64
    lMult := bounds.lDrift.toInt32.toInt64
    uNsec := bounds.uNsec
    lNsec := bounds.lNsec }

def qotClockGlSetUncertainty (clkglParams : TlTranslation) (bounds : QotBounds) : TlTranslation :=
  setUncertainty clkglParams bounds

/-- `TIMELINE_SET_SYNC_UNCERTAINTY`: the timeline's own mapping and the global one afterwards. -/
def timelineSetSyncUncertainty (type : QotTimelineType) (timelineImpl clkglParams : TlTranslation)
    (bounds : QotBounds) : TlTranslation × TlTranslation :=
  match type with
  | .qotTimelineLocal => (setUncertainty timelineImpl bounds, clkglParams)
  | .qotTimelineGlobal => (timelineImpl, qotClockGlSetUncertainty clkglParams bounds)

/-- The core time with the OS latency added (`qot_clock_get_core_time`). -/
def qotClockGetCoreTime (osLatency : Utimelength) (readTime : Timepoint) : Utimepoint :=
  utimepointAdd ⟨readTime, ⟨tlFromUsec 0, tlFromUsec 0⟩⟩ osLatency

def zeroLatency : Utimelength := ⟨tlFromUsec 0, ⟨tlFromUsec 0, tlFromUsec 0⟩⟩

def lengthBetween (lo hi : Int64) : Timelength :=
  if hi > lo then tlFromNsec (hi - lo).toUInt64 else tlFromNsec 0

/-- `TIMELINE_GET_TIME_NOW` on a local timeline. -/
def timelineGetTimeNowLocal (osLatency : Utimelength) (timelineImpl : TlTranslation)
    (readTime : Timepoint) : Utimepoint :=
  let utp := qotClockGetCoreTime osLatency readTime
  let coretime := tpToNsec utp.estimate
  let timelinetime := qotLoc2rem timelineImpl false coretime
  let uTimelinetime := timelinetime
    + timelineImpl.uMult * (coretime - timelineImpl.last) / 1000000000 + timelineImpl.uNsec
  let lTimelinetime := timelinetime
    + timelineImpl.lMult * (coretime - timelineImpl.last) / 1000000000 + timelineImpl.lNsec
  utimepointAdd ⟨tpFromNsec timelinetime, utp.interval⟩
    ⟨⟨0, 0⟩, ⟨lengthBetween lTimelinetime timelinetime, lengthBetween timelinetime uTimelinetime⟩⟩

def qotClockGlGetTime (clkglParams : TlTranslation) (ns : Int64) : Utimepoint :=
  let uTimelinetime :=
    clkglParams.uMult * (ns - clkglParams.last) / 1000000000 + clkglParams.uNsec
  let lTimelinetime :=
    clkglParams.lMult * (ns - clkglParams.last) / 1000000000 + clkglParams.lNsec
  utimepointAdd ⟨tpFromNsec (qotClockGlNow clkglParams ns), ⟨tlFromUsec 0, tlFromUsec 0⟩⟩
    ⟨⟨0, 0⟩,
      ⟨if lTimelinetime < 0 then tlFromNsec (-lTimelinetime).toUInt64 else tlFromNsec 0,
        if uTimelinetime > 0 then tlFromNsec uTimelinetime.toUInt64 else tlFromNsec 0⟩⟩

/-- `TIMELINE_GET_TIME_NOW`, at the nanosecond core (or real) time `ns`. -/
def timelineGetTimeNow (type : QotTimelineType) (osLatency : Utimelength)
    (timelineImpl clkglParams : TlTranslation) (ns : Int64) : Utimepoint :=
  match type with
  | .qotTimelineLocal => timelineGetTimeNowLocal osLatency timelineImpl (tpFromNsec ns)
  | .qotTimelineGlobal => qotClockGlGetTime clkglParams ns

/-! ## The widths over the rationals

What the kernel reports on each side after `d` nanoseconds, and how it compares with the bound
`p * d + r` the daemon computed. -/

/-- Nanoseconds reported above the estimate. -/
def aboveWidth (p r : ℚ) (d : ℤ) : ℤ := ⌈p * 1000000000⌉ * d / 1000000000 + ⌈r⌉

/-- Nanoseconds reported below the estimate. -/
def belowWidth (p r : ℚ) (d : ℤ) : ℤ := ⌊p * 1000000000⌋ * d / 1000000000 + ⌊r⌋

/-- Nothing needs rounding: the margin is a whole number of nanoseconds, and so is the drift of
`d` nanoseconds at a whole number of parts per billion. -/
def NothingRounded (p r : ℚ) (d : ℤ) : Prop :=
  (∃ k : ℤ, r = k) ∧ (d = 0 ∨ (∃ k : ℤ, p * 1000000000 = k) ∧ ∃ k : ℤ, p * d = k)

variable {p r : ℚ} {d : ℤ} {m : TlTranslation} {c : Int64}

theorem drift_ediv_eq {k j : ℤ} (hk : p * 1000000000 = k) (hj : p * d = j) :
    k * d / 1000000000 = j := by
  have hmul : (k * d : ℤ) = j * 1000000000 := by
    have hrat : (k : ℚ) * d = j * 1000000000 := by
      rw [← hk, ← hj]
      ring
    exact_mod_cast hrat
  rw [hmul, Int.mul_ediv_cancel _ (by norm_num)]

theorem widths_of_nothingRounded (h : NothingRounded p r d) :
    p * d + r = aboveWidth p r d ∧ p * d + r = belowWidth p r d := by
  obtain ⟨⟨k, rfl⟩, rfl | ⟨⟨a, ha⟩, j, hj⟩⟩ := h
  · simp [aboveWidth, belowWidth]
  · unfold aboveWidth belowWidth
    rw [ha, Int.ceil_intCast, Int.floor_intCast, Int.ceil_intCast, Int.floor_intCast,
      drift_ediv_eq ha hj, hj]
    simp

/-- The lower side never exceeds the bound, so it covers it only when it is exact. -/
theorem nothingRounded_of_below (hd : 0 ≤ d) (h : p * d + r ≤ belowWidth p r d) :
    NothingRounded p r d := by
  have hdq : (0 : ℚ) ≤ d := by exact_mod_cast hd
  set f := ⌊p * 1000000000⌋ with hf
  have hfloor : (f : ℚ) ≤ p * 1000000000 := Int.floor_le _
  have hscale : (f : ℚ) * d ≤ p * 1000000000 * d := mul_le_mul_of_nonneg_right hfloor hdq
  have hdiv : ((f * d / 1000000000 : ℤ) : ℚ) * 1000000000 ≤ f * d := by
    exact_mod_cast Int.ediv_mul_le (f * d) (show (1000000000 : ℤ) ≠ 0 by norm_num)
  have hmargin : (⌊r⌋ : ℚ) ≤ r := Int.floor_le r
  unfold belowWidth at h
  push_cast at h
  -- both roundings go down, so equality holds in each
  have hr : r = ⌊r⌋ := by linarith
  have hpd : p * d = ((f * d / 1000000000 : ℤ) : ℚ) := by linarith
  refine ⟨⟨_, hr⟩, ?_⟩
  rcases eq_or_ne d 0 with h0 | h0
  · exact Or.inl h0
  · have hd0 : (d : ℚ) ≠ 0 := by exact_mod_cast h0
    refine Or.inr ⟨⟨f, ?_⟩, ⟨_, hpd⟩⟩
    exact mul_right_cancel₀ hd0 (by linarith)

theorem widths_cover_iff (hd : 0 ≤ d) :
    (p * d + r ≤ belowWidth p r d ∧ p * d + r ≤ aboveWidth p r d) ↔ NothingRounded p r d := by
  constructor
  · rintro ⟨hbelow, -⟩
    exact nothingRounded_of_below hd hbelow
  · intro h
    obtain ⟨habove, hbelow⟩ := widths_of_nothingRounded h
    exact ⟨hbelow.le, habove.le⟩

/-! ## The widths the kernel computes -/

/-- The published integers fit the kernel's fields: 32 bits for the drifts, 64 for the offsets. -/
structure PublishedFits (p r : ℚ) : Prop where
  uDrift : -2147483648 ≤ ⌈p * 1000000000⌉ ∧ ⌈p * 1000000000⌉ < 2147483648
  lDrift : -2147483648 ≤ ⌈-p * 1000000000⌉ ∧ ⌈-p * 1000000000⌉ < 2147483648
  uNsec : Fits64 ⌈r⌉
  lNsec : Fits64 ⌈-r⌉

/-- No signed sum or product of the time query overflows at core time `c`. -/
structure QueryFits (m : TlTranslation) (c : Int) (p r : ℚ) : Prop where
  reading : Loc2remFits m c
  uProduct : Fits64 (⌈p * 1000000000⌉ * (c - m.last.toInt))
  lProduct : Fits64 (⌊p * 1000000000⌋ * (c - m.last.toInt))
  above : Fits64 (aboveWidth p r (c - m.last.toInt))
  below : Fits64 (belowWidth p r (c - m.last.toInt))
  upper : Fits64 (m.reading c + aboveWidth p r (c - m.last.toInt))
  lower : Fits64 (m.reading c - belowWidth p r (c - m.last.toInt))

theorem toInt_through_32 {x : Int} (h : -2147483648 ≤ x ∧ x < 2147483648) :
    (Int64.ofInt x).toInt32.toInt64.toInt = x := by
  rw [Int32.toInt_toInt64, Int64.toInt_toInt32, toInt_ofInt_of_fits (by omega)]
  exact Int.bmod_eq_of_le (by omega) (by omega)

theorem setUncertainty_fields (h : PublishedFits p r) (m : TlTranslation) :
    (setUncertainty m (calculateBounds p r)).uMult.toInt = ⌈p * 1000000000⌉
      ∧ (setUncertainty m (calculateBounds p r)).lMult.toInt = -⌊p * 1000000000⌋
      ∧ (setUncertainty m (calculateBounds p r)).uNsec.toInt = ⌈r⌉
      ∧ (setUncertainty m (calculateBounds p r)).lNsec.toInt = -⌊r⌋ := by
  refine ⟨toInt_through_32 h.uDrift, ?_, toInt_ofInt_of_fits h.uNsec, ?_⟩
  · rw [← Int.ceil_neg, ← neg_mul]
    exact toInt_through_32 h.lDrift
  · rw [← Int.ceil_neg]
    exact toInt_ofInt_of_fits h.lNsec

/-- Nanoseconds the parameters of `m` add to a reading at core time `c` for its upper end. -/
def TlTranslation.upperWidth (m : TlTranslation) (c : Int) : Int :=
  (m.uMult.toInt * (c - m.last.toInt)).tdiv 1000000000 + m.uNsec.toInt

/-- Nanoseconds they add for its lower end, normally not above zero. -/
def TlTranslation.lowerWidth (m : TlTranslation) (c : Int) : Int :=
  (m.lMult.toInt * (c - m.last.toInt)).tdiv 1000000000 + m.lNsec.toInt

/-- No signed intermediate of the two widths overflows at core time `c`. -/
structure SyncWidthsFit (m : TlTranslation) (c : Int) : Prop where
  diff : Fits64 (c - m.last.toInt)
  uProduct : Fits64 (m.uMult.toInt * (c - m.last.toInt))
  lProduct : Fits64 (m.lMult.toInt * (c - m.last.toInt))
  upper : Fits64 (m.upperWidth c)
  lower : Fits64 (m.lowerWidth c)

theorem toInt_drift_add {mult nsec d : Int64} {w : Int} (hprod : Fits64 (mult.toInt * d.toInt))
    (hw : (mult.toInt * d.toInt).tdiv 1000000000 + nsec.toInt = w) (hfit : Fits64 w) :
    (mult * d / 1000000000 + nsec).toInt = w := by
  have hquot : (mult * d / 1000000000).toInt = (mult.toInt * d.toInt).tdiv 1000000000 := by
    rw [toInt_div_of_two_le (by decide), toInt_mul_of_fits hprod, toInt_billion]
  rw [toInt_add_of_fits (by rw [hquot, hw]; exact hfit), hquot, hw]

theorem toInt_widths (h : SyncWidthsFit m c.toInt) :
    (m.uMult * (c - m.last) / 1000000000 + m.uNsec).toInt = m.upperWidth c.toInt
      ∧ (m.lMult * (c - m.last) / 1000000000 + m.lNsec).toInt = m.lowerWidth c.toInt := by
  have hd : (c - m.last).toInt = c.toInt - m.last.toInt := toInt_sub_of_fits h.diff
  constructor
  · exact toInt_drift_add (by rw [hd]; exact h.uProduct) (by rw [hd]; rfl) h.upper
  · exact toInt_drift_add (by rw [hd]; exact h.lProduct) (by rw [hd]; rfl) h.lower

theorem widths_nonneg (hp : 0 ≤ p) (hr : 0 ≤ r) (hd : 0 ≤ d) :
    0 ≤ aboveWidth p r d ∧ 0 ≤ belowWidth p r d := by
  have hceil : 0 ≤ ⌈p * 1000000000⌉ := Int.ceil_nonneg (by positivity)
  have hfloor : 0 ≤ ⌊p * 1000000000⌋ := Int.floor_nonneg.mpr (by positivity)
  refine ⟨add_nonneg ?_ (Int.ceil_nonneg hr), add_nonneg ?_ (Int.floor_nonneg.mpr hr)⟩
  · exact Int.ediv_nonneg (mul_nonneg hceil hd) (by norm_num)
  · exact Int.ediv_nonneg (mul_nonneg hfloor hd) (by norm_num)

/-- The widths the kernel evaluates, once the bounds are published. -/
theorem published_widths {c : Int} (hp : 0 ≤ p) (hpub : PublishedFits p r) (hc : m.last.toInt ≤ c) :
    (setUncertainty m (calculateBounds p r)).upperWidth c = aboveWidth p r (c - m.last.toInt)
      ∧ (setUncertainty m (calculateBounds p r)).lowerWidth c
        = -belowWidth p r (c - m.last.toInt) := by
  obtain ⟨hum, hlm, hun, hln⟩ := setUncertainty_fields hpub m
  have hlast : (setUncertainty m (calculateBounds p r)).last = m.last := rfl
  have hd : 0 ≤ c - m.last.toInt := by omega
  have hceil : 0 ≤ ⌈p * 1000000000⌉ := Int.ceil_nonneg (by positivity)
  have hfloor : 0 ≤ ⌊p * 1000000000⌋ := Int.floor_nonneg.mpr (by positivity)
  unfold TlTranslation.upperWidth TlTranslation.lowerWidth
  rw [hum, hlm, hun, hln, hlast]
  constructor
  · rw [Int.tdiv_eq_ediv_of_nonneg (mul_nonneg hceil hd)]
    rfl
  · -- the lower drift is negative, and truncation takes it toward zero
    rw [neg_mul, Int.neg_tdiv, Int.tdiv_eq_ediv_of_nonneg (mul_nonneg hfloor hd)]
    unfold belowWidth
    omega

theorem published_syncWidthsFit {c : Int} (hp : 0 ≤ p) (hr : 0 ≤ r) (hpub : PublishedFits p r)
    (hfits : QueryFits m c p r) (hc : m.last.toInt ≤ c) :
    SyncWidthsFit (setUncertainty m (calculateBounds p r)) c := by
  obtain ⟨hum, hlm, -, -⟩ := setUncertainty_fields hpub m
  obtain ⟨hupper, hlower⟩ := published_widths hp hpub hc
  have hd : 0 ≤ c - m.last.toInt := by omega
  have hfloor : 0 ≤ ⌊p * 1000000000⌋ := Int.floor_nonneg.mpr (by positivity)
  have hneg : ∀ {x : Int}, 0 ≤ x → Fits64 x → Fits64 (-x) := by
    intro x hx hfit
    omega
  refine ⟨hfits.reading.diff, ?_, ?_, ?_, ?_⟩
  · rw [hum]
    exact hfits.uProduct
  · rw [hlm, neg_mul]
    exact hneg (mul_nonneg hfloor hd) hfits.lProduct
  · rw [hupper]
    exact hfits.above
  · rw [hlower]
    exact hneg (widths_nonneg hp hr hd).2 hfits.below

theorem published_signs {c : Int} (hp : 0 ≤ p) (hr : 0 ≤ r) (hpub : PublishedFits p r)
    (hfits : QueryFits m c p r) (hc : m.last.toInt ≤ c) :
    0 ≤ (setUncertainty m (calculateBounds p r)).upperWidth c
      ∧ (setUncertainty m (calculateBounds p r)).lowerWidth c ≤ 0
      ∧ Fits64 (-(setUncertainty m (calculateBounds p r)).lowerWidth c) := by
  obtain ⟨hupper, hlower⟩ := published_widths hp hpub hc
  obtain ⟨habove, hbelow⟩ := widths_nonneg hp hr (show 0 ≤ c - m.last.toInt by omega)
  rw [hupper, hlower, neg_neg]
  exact ⟨habove, neg_nonpos.mpr hbelow, hfits.below⟩

theorem lengthBetween_value (lo hi : Int64) (h : lo.toInt ≤ hi.toInt)
    (hfit : Fits64 (hi.toInt - lo.toInt)) :
    (lengthBetween lo hi).value = (hi.toInt - lo.toInt) * 1000000000
      ∧ (lengthBetween lo hi).Normalised := by
  have hsub := toInt_sub_of_fits hfit
  unfold lengthBetween
  simp only [gt_iff_lt, Int64.lt_iff_toInt_lt]
  split
  case isTrue hlt =>
    obtain ⟨hval, hnorm⟩ := tlFromNsec_value (hi - lo).toUInt64
    refine ⟨?_, hnorm⟩
    rw [hval, toNat_toUInt64_of_nonneg (by omega), hsub]
  case isFalse hge =>
    refine ⟨?_, by decide⟩
    rw [show (tlFromNsec 0).value = 0 from rfl]
    omega

/-- The global clock measures its widths from zero. -/
theorem qotClockGlGetTime_eq (clkglParams : TlTranslation) (ns : Int64) :
    qotClockGlGetTime clkglParams ns
      = utimepointAdd ⟨tpFromNsec (qotClockGlNow clkglParams ns), ⟨⟨0, 0⟩, ⟨0, 0⟩⟩⟩
          ⟨⟨0, 0⟩,
            ⟨lengthBetween
                (clkglParams.lMult * (ns - clkglParams.last) / 1000000000 + clkglParams.lNsec) 0,
              lengthBetween 0
                (clkglParams.uMult * (ns - clkglParams.last) / 1000000000
                  + clkglParams.uNsec)⟩⟩ := by
  unfold qotClockGlGetTime lengthBetween
  simp [show tlFromUsec 0 = ⟨0, 0⟩ from rfl]

theorem utimepointAdd_exact (v : Int64) {below above : Timelength} (hb : below.Normalised)
    (ha : above.Normalised) :
    utimepointAdd ⟨tpFromNsec v, ⟨⟨0, 0⟩, ⟨0, 0⟩⟩⟩ ⟨⟨0, 0⟩, ⟨below, above⟩⟩
      = ⟨tpFromNsec v, ⟨below, above⟩⟩ := by
  unfold utimepointAdd
  rw [timepointAdd_zero (tpFromNsec_normalised v), zero_timelengthAdd hb, zero_timelengthAdd ha]

theorem qotClockGetCoreTime_zeroLatency (ns : Int64) :
    qotClockGetCoreTime zeroLatency (tpFromNsec ns)
      = ⟨tpFromNsec ns, ⟨⟨0, 0⟩, ⟨0, 0⟩⟩⟩ := by
  unfold qotClockGetCoreTime zeroLatency
  rw [show tlFromUsec 0 = ⟨0, 0⟩ from rfl, utimepointAdd_exact ns (by decide) (by decide)]

/-! ## Coverage -/

/-- The interval reaches at least `w` attoseconds from the estimate to both sides. -/
def Utimepoint.Covers (t : Utimepoint) (w : ℝ) : Prop :=
  ∀ x : ℝ, |x - t.estimate.value| ≤ w → t.Contains x

theorem covers_iff {t : Utimepoint} {w : ℝ} (hw : 0 ≤ w) :
    t.Covers w ↔ w ≤ t.interval.below.value ∧ w ≤ t.interval.above.value := by
  unfold Utimepoint.Covers Utimepoint.Contains
  constructor
  · intro h
    have hlow :=
      (h (t.estimate.value - w) (by rw [sub_sub_cancel_left, abs_neg, abs_of_nonneg hw])).1
    have hhigh := (h (t.estimate.value + w) (by rw [add_sub_cancel_left, abs_of_nonneg hw])).2
    constructor <;> linarith
  · rintro ⟨hbelow, habove⟩ x hx
    obtain ⟨hx1, hx2⟩ := abs_le.mp hx
    constructor <;> linarith

/-- The interval reaches `below` and `above` nanoseconds to its two sides. -/
def HasWidths (i : Timeinterval) (below above : Int) : Prop :=
  i.below.value = below * 1000000000 ∧ i.above.value = above * 1000000000

/-- A local timeline forms the ends of the interval around its reading, and takes the
differences. -/
theorem timelineGetTimeNowLocal_widths (hread : Loc2remFits m c.toInt)
    (hfits : SyncWidthsFit m c.toInt) (hup : Fits64 (m.reading c.toInt + m.upperWidth c.toInt))
    (hlow : Fits64 (m.reading c.toInt + m.lowerWidth c.toInt)) (hpos : 0 ≤ m.upperWidth c.toInt)
    (hneg : m.lowerWidth c.toInt ≤ 0) (hbelow : Fits64 (-m.lowerWidth c.toInt)) :
    (timelineGetTimeNowLocal zeroLatency m (tpFromNsec c)).estimate = tpFromNsec (loc2rem m false c)
      ∧ HasWidths (timelineGetTimeNowLocal zeroLatency m (tpFromNsec c)).interval
        (-m.lowerWidth c.toInt) (m.upperWidth c.toInt) := by
  obtain ⟨hu', hl'⟩ := toInt_widths hfits
  have hv := toInt_loc2rem hread
  have hu : (loc2rem m false c + m.uMult * (c - m.last) / 1000000000 + m.uNsec).toInt
      = m.reading c.toInt + m.upperWidth c.toInt := by
    rw [Int64.add_assoc, toInt_add_of_fits (by rw [hv, hu']; exact hup), hv, hu']
  have hl : (loc2rem m false c + m.lMult * (c - m.last) / 1000000000 + m.lNsec).toInt
      = m.reading c.toInt + m.lowerWidth c.toInt := by
    rw [Int64.add_assoc, toInt_add_of_fits (by rw [hv, hl']; exact hlow), hv, hl']
  obtain ⟨hvb, hnb⟩ := lengthBetween_value
    (loc2rem m false c + m.lMult * (c - m.last) / 1000000000 + m.lNsec)
    (loc2rem m false c) (by rw [hl, hv]; omega)
    (by rw [hl, hv, sub_add_cancel_left]; exact hbelow)
  obtain ⟨hva, hna⟩ := lengthBetween_value (loc2rem m false c)
    (loc2rem m false c + m.uMult * (c - m.last) / 1000000000 + m.uNsec)
    (by rw [hu, hv]; omega) (by rw [hu, hv, add_sub_cancel_left]; exact hfits.upper)
  simp only [timelineGetTimeNowLocal, qotClockGetCoreTime_zeroLatency, tpToNsec_tpFromNsec,
    qotLoc2rem]
  rw [utimepointAdd_exact _ hnb hna]
  refine ⟨rfl, ?_, ?_⟩
  · rw [hvb, hl, hv]
    ring
  · rw [hva, hu, hv]
    ring

theorem qotClockGlGetTime_widths (hfits : SyncWidthsFit m c.toInt) (hpos : 0 ≤ m.upperWidth c.toInt)
    (hneg : m.lowerWidth c.toInt ≤ 0) (hbelow : Fits64 (-m.lowerWidth c.toInt)) :
    (qotClockGlGetTime m c).estimate = tpFromNsec (loc2rem m false c)
      ∧ HasWidths (qotClockGlGetTime m c).interval (-m.lowerWidth c.toInt)
        (m.upperWidth c.toInt) := by
  obtain ⟨hu, hl⟩ := toInt_widths hfits
  have h0 : (0 : Int64).toInt = 0 := rfl
  obtain ⟨hvb, hnb⟩ := lengthBetween_value (m.lMult * (c - m.last) / 1000000000 + m.lNsec) 0
    (by rw [hl, h0]; omega) (by rw [hl, h0, zero_sub]; exact hbelow)
  obtain ⟨hva, hna⟩ := lengthBetween_value 0 (m.uMult * (c - m.last) / 1000000000 + m.uNsec)
    (by rw [hu, h0]; omega) (by rw [hu, h0, sub_zero]; exact hfits.upper)
  rw [qotClockGlGetTime_eq, utimepointAdd_exact _ hnb hna]
  refine ⟨rfl, ?_, ?_⟩
  · rw [hvb, hl, h0]
    ring
  · rw [hva, hu, h0]
    ring

/-- **What the time query returns** once the bounds are published: the reading, with the two
rounded widths around it, on either kind of timeline. -/
theorem timelineGetTimeNow_widths {type : QotTimelineType}
    {timelineImpl clkglParams : TlTranslation} (hp : 0 ≤ p) (hr : 0 ≤ r) (hpub : PublishedFits p r)
    (hfits : QueryFits (mappingInForce type timelineImpl clkglParams) c.toInt p r)
    (hc : (mappingInForce type timelineImpl clkglParams).last.toInt ≤ c.toInt)
    {published : TlTranslation × TlTranslation} (hset : published
      = timelineSetSyncUncertainty type timelineImpl clkglParams (calculateBounds p r)) :
    (timelineGetTimeNow type zeroLatency published.1 published.2 c).interval.below.value
        = belowWidth p r (c.toInt - (mappingInForce type timelineImpl clkglParams).last.toInt)
          * 1000000000
      ∧ (timelineGetTimeNow type zeroLatency published.1 published.2 c).interval.above.value
        = aboveWidth p r (c.toInt - (mappingInForce type timelineImpl clkglParams).last.toInt)
          * 1000000000 := by
  subst hset
  cases type with
  | qotTimelineLocal =>
    simp only [mappingInForce] at hfits hc ⊢
    obtain ⟨hupper, hlower⟩ := published_widths hp hpub hc
    obtain ⟨hpos, hneg, hbelow⟩ := published_signs hp hr hpub hfits hc
    -- publishing leaves the mapping itself alone
    have hread : Loc2remFits (setUncertainty timelineImpl (calculateBounds p r)) c.toInt :=
      ⟨hfits.reading.diff, hfits.reading.product, hfits.reading.offset, hfits.reading.reading⟩
    have hlow := hfits.lower
    rw [sub_eq_add_neg, ← hlower] at hlow
    have hup := hfits.upper
    rw [← hupper] at hup
    rw [← neg_neg (belowWidth p r _), ← hlower, ← hupper]
    exact (timelineGetTimeNowLocal_widths hread (published_syncWidthsFit hp hr hpub hfits hc) hup
      hlow hpos hneg hbelow).2
  | qotTimelineGlobal =>
    simp only [mappingInForce] at hfits hc ⊢
    obtain ⟨hupper, hlower⟩ := published_widths hp hpub hc
    obtain ⟨hpos, hneg, hbelow⟩ := published_signs hp hr hpub hfits hc
    rw [← neg_neg (belowWidth p r _), ← hlower, ← hupper]
    exact (qotClockGlGetTime_widths (published_syncWidthsFit hp hr hpub hfits hc) hpos hneg
      hbelow).2

/-- **The reported uncertainty covers the computed bound exactly where nothing is rounded.** For
every predictor and margin whose published integers fit, after `c - last` nanoseconds, on a local
timeline and on the global clock. -/
theorem sync_uncertainty_covers_iff (type : QotTimelineType)
    (timelineImpl clkglParams : TlTranslation) (p r : ℚ) (c : Int64) (hp : 0 ≤ p) (hr : 0 ≤ r)
    (hpub : PublishedFits p r)
    (hfits : QueryFits (mappingInForce type timelineImpl clkglParams) c.toInt p r)
    (hc : (mappingInForce type timelineImpl clkglParams).last.toInt ≤ c.toInt) :
    let d := c.toInt - (mappingInForce type timelineImpl clkglParams).last.toInt
    let published :=
      timelineSetSyncUncertainty type timelineImpl clkglParams (calculateBounds p r)
    (timelineGetTimeNow type zeroLatency published.1 published.2 c).Covers
        (((p * d + r) * 1000000000 : ℚ) : ℝ)
      ↔ NothingRounded p r d := by
  intro d published
  obtain ⟨hbelow, habove⟩ :=
    timelineGetTimeNow_widths hp hr hpub hfits hc (rfl : published = _)
  have hd : 0 ≤ d := by
    show 0 ≤ c.toInt - _
    omega
  have hdq : (0 : ℚ) ≤ d := by exact_mod_cast hd
  have hw : (0 : ℝ) ≤ (((p * d + r) * 1000000000 : ℚ) : ℝ) := by
    exact_mod_cast (show (0 : ℚ) ≤ (p * d + r) * 1000000000 by positivity)
  -- attoseconds on both sides: compare in nanoseconds over the rationals
  have hscale : ∀ w : ℤ,
      ((((p * d + r) * 1000000000 : ℚ) : ℝ) ≤ ((w * 1000000000 : ℤ) : ℝ)) ↔ p * d + r ≤ w := by
    intro w
    rw [← Rat.cast_intCast (w * 1000000000), Rat.cast_le]
    push_cast
    constructor <;> intro h <;> linarith
  rw [covers_iff hw, hbelow, habove, hscale, hscale, widths_cover_iff hd]

/-! A registered clock, a predictor of ten parts per million and a margin of half a nanosecond,
queried after a microsecond. -/

theorem halfMargin_publishedFits : PublishedFits (1 / 100000) (1 / 2) :=
  ⟨by decide +kernel, by decide +kernel, by decide +kernel, by decide +kernel⟩

theorem halfMargin_queryFits :
    QueryFits initTranslation (1000 : Int64).toInt (1 / 100000) (1 / 2) :=
  ⟨⟨by decide, by decide, by decide, by decide⟩, by decide +kernel, by decide +kernel,
    by decide +kernel, by decide +kernel, by decide +kernel, by decide +kernel⟩

theorem sync_uncertainty_covers_iff_wholeMargin :
    (timelineGetTimeNow .qotTimelineLocal zeroLatency
        (setUncertainty initTranslation (calculateBounds (1 / 1000) 3)) initTranslation 1000).Covers
        (((1 / 1000 * (1000 : ℤ) + 3) * 1000000000 : ℚ) : ℝ) := by
  have hiff := sync_uncertainty_covers_iff .qotTimelineLocal initTranslation initTranslation
    (1 / 1000) 3 1000 (by norm_num) (by norm_num)
    ⟨by decide +kernel, by decide +kernel, by decide +kernel, by decide +kernel⟩
    ⟨⟨by decide, by decide, by decide, by decide⟩, by decide +kernel, by decide +kernel,
      by decide +kernel, by decide +kernel, by decide +kernel, by decide +kernel⟩ (by decide)
  refine hiff.mpr ⟨⟨3, by norm_num⟩, Or.inr ⟨⟨1000000, by norm_num⟩, ⟨1, ?_⟩⟩⟩
  rw [show (1000 : Int64).toInt - _ = 1000 from rfl]
  norm_num

/-- **The reported interval can be narrower than the bound.** Half a nanosecond of margin is
published as nothing below the estimate, on a local timeline and on the global clock. -/
theorem sync_uncertainty_too_narrow :
    PublishedFits (1 / 100000) (1 / 2)
      ∧ QueryFits initTranslation (1000 : Int64).toInt (1 / 100000) (1 / 2)
      ∧ ∀ type : QotTimelineType,
        let published := timelineSetSyncUncertainty type initTranslation initTranslation
          (calculateBounds (1 / 100000) (1 / 2))
        ¬ (timelineGetTimeNow type zeroLatency published.1 published.2 1000).Covers
          (((1 / 100000 * (1000 : ℤ) + 1 / 2) * 1000000000 : ℚ) : ℝ) := by
  refine ⟨halfMargin_publishedFits, halfMargin_queryFits, ?_⟩
  intro type published h
  have hmap : mappingInForce type initTranslation initTranslation = initTranslation := by
    cases type <;> rfl
  obtain ⟨hbelow, -⟩ := timelineGetTimeNow_widths (by norm_num) (by norm_num)
    halfMargin_publishedFits (by rw [hmap]; exact halfMargin_queryFits)
    (by rw [hmap]; decide) (rfl : published = _)
  rw [hmap, show belowWidth (1 / 100000) (1 / 2)
    ((1000 : Int64).toInt - initTranslation.last.toInt) = 0 by decide +kernel] at hbelow
  have hle := ((covers_iff (by positivity)).mp h).1
  rw [hbelow] at hle
  norm_num at hle

end Qot
