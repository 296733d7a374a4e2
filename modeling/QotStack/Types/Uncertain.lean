import Mathlib.Data.Real.Basic
import QotStack.Types.Arithmetic

/-!
# QotStack — uncertain points and lengths of time (`qot_types.h`)

An uncertain point is an estimate with a length of uncertainty below and one above it; an
uncertain length is the same with a length as its estimate. Arithmetic acts on the estimates and
adds the uncertainties side by side, below to below and above to above.

For addition that is interval arithmetic. For subtraction it is not: the far end of `t - v` below
is `t` at its lowest less `v` at its *highest*, so the two sides of `v` should cross over.
`utimepoint_interval_sound_iff` says what the code therefore guarantees.
-/

namespace Qot

open MachineInt

structure Timeinterval where
  below : Timelength
  above : Timelength
  deriving DecidableEq, Repr

structure Utimepoint where
  estimate : Timepoint
  interval : Timeinterval
  deriving DecidableEq, Repr

/-- A duration of time with an uncertain end point. -/
structure Utimelength where
  estimate : Timelength
  interval : Timeinterval
  deriving DecidableEq, Repr

def utimepointAdd (t : Utimepoint) (v : Utimelength) : Utimepoint :=
  ⟨timepointAdd t.estimate v.estimate,
    ⟨timelengthAdd t.interval.below v.interval.below,
      timelengthAdd t.interval.above v.interval.above⟩⟩

def utimepointSub (t : Utimepoint) (v : Utimelength) : Utimepoint :=
  ⟨timepointSub t.estimate v.estimate,
    ⟨timelengthAdd t.interval.below v.interval.below,
      timelengthAdd t.interval.above v.interval.above⟩⟩

/-! ## The exact arithmetic underneath -/

theorem timelengthAdd_value {l1 l2 : Timelength} (h1 : l1.Normalised) (h2 : l2.Normalised)
    (hfit : (l1.value + l2.value) / 1000000000000000000 < 18446744073709551616) :
    (timelengthAdd l1 l2).value = l1.value + l2.value ∧ (timelengthAdd l1 l2).Normalised := by
  obtain ⟨hnorm, hres⟩ := timelengthAdd_residue h1 h2
  have hpos : 0 ≤ l1.value + l2.value := by
    have hl1 := (l1.value_inRange h1).1
    have hl2 := (l2.value_inRange h2).1
    omega
  exact ⟨Timelength.value_eq_of_residue hnorm ⟨hpos, hfit⟩ hres, hnorm⟩

theorem timepointAdd_value {t : Timepoint} {v : Timelength} (ht : t.Normalised)
    (hv : v.Normalised) (hfit : Fits64 ((t.value + v.value) / 1000000000000000000)) :
    (timepointAdd t v).value = t.value + v.value ∧ (timepointAdd t v).Normalised := by
  obtain ⟨hnorm, hres⟩ := timepointAdd_residue ht hv
  exact ⟨Timepoint.value_eq_of_residue hnorm hfit hres, hnorm⟩

theorem timepointSub_value {t : Timepoint} {v : Timelength} (ht : t.Normalised)
    (hv : v.Normalised) (hfit : Fits64 ((t.value - v.value) / 1000000000000000000)) :
    (timepointSub t v).value = t.value - v.value ∧ (timepointSub t v).Normalised := by
  obtain ⟨hnorm, hres⟩ := timepointSub_residue ht hv
  exact ⟨Timepoint.value_eq_of_residue hnorm hfit hres, hnorm⟩

theorem asec_div_eq_zero {a : UInt64} (h : a.toNat < 1000000000000000000) : a / aSecPerSec = 0 := by
  apply UInt64.toNat_inj.mp
  rw [UInt64.toNat_div, show aSecPerSec.toNat = 1000000000000000000 from rfl, Nat.div_eq_of_lt h]
  rfl

theorem timepointAdd_zero {t : Timepoint} (h : t.Normalised) : timepointAdd t ⟨0, 0⟩ = t := by
  have hcarry := asec_div_eq_zero h
  simp [timepointAdd, hcarry]

theorem zero_timelengthAdd {l : Timelength} (h : l.Normalised) : timelengthAdd ⟨0, 0⟩ l = l := by
  have hcarry := asec_div_eq_zero h
  simp [timelengthAdd, hcarry]

/-! ## Interval soundness -/

structure Utimepoint.Normalised (t : Utimepoint) : Prop where
  estimate : t.estimate.Normalised
  below : t.interval.below.Normalised
  above : t.interval.above.Normalised

structure Utimelength.Normalised (v : Utimelength) : Prop where
  estimate : v.estimate.Normalised
  below : v.interval.below.Normalised
  above : v.interval.above.Normalised

/-- The true point `x`, in attoseconds, lies inside the interval of `t`. -/
def Utimepoint.Contains (t : Utimepoint) (x : ℝ) : Prop :=
  (t.estimate.value - t.interval.below.value : ℝ) ≤ x
    ∧ x ≤ (t.estimate.value + t.interval.above.value : ℝ)

/-- The true length `y`, in attoseconds, lies inside the interval of `v`. -/
def Utimelength.Contains (v : Utimelength) (y : ℝ) : Prop :=
  (v.estimate.value - v.interval.below.value : ℝ) ≤ y
    ∧ y ≤ (v.estimate.value + v.interval.above.value : ℝ)

/-- The uncertainties of `t` and `v` add up without leaving the width of their fields. -/
structure WidthsFit (t : Utimepoint) (v : Utimelength) : Prop where
  below : (t.interval.below.value + v.interval.below.value) / 1000000000000000000
    < 18446744073709551616
  above : (t.interval.above.value + v.interval.above.value) / 1000000000000000000
    < 18446744073709551616

structure AddFits (t : Utimepoint) (v : Utimelength) : Prop extends WidthsFit t v where
  estimate : Fits64 ((t.estimate.value + v.estimate.value) / 1000000000000000000)

structure SubFits (t : Utimepoint) (v : Utimelength) : Prop extends WidthsFit t v where
  estimate : Fits64 ((t.estimate.value - v.estimate.value) / 1000000000000000000)

/-- Whatever true point and length hide in the two intervals, the result of the addition
contains their sum. -/
def AddSound (t : Utimepoint) (v : Utimelength) : Prop :=
  ∀ x y : ℝ, t.Contains x → v.Contains y → (utimepointAdd t v).Contains (x + y)

/-- Whatever true point and length hide in the two intervals, the result of the subtraction
contains their difference. -/
def SubSound (t : Utimepoint) (v : Utimelength) : Prop :=
  ∀ x y : ℝ, t.Contains x → v.Contains y → (utimepointSub t v).Contains (x - y)

variable {t : Utimepoint} {v : Utimelength}

theorem widths_value (ht : t.Normalised) (hv : v.Normalised) (hfit : WidthsFit t v) :
    (timelengthAdd t.interval.below v.interval.below).value
        = t.interval.below.value + v.interval.below.value
      ∧ (timelengthAdd t.interval.above v.interval.above).value
        = t.interval.above.value + v.interval.above.value :=
  ⟨(timelengthAdd_value ht.below hv.below hfit.below).1,
    (timelengthAdd_value ht.above hv.above hfit.above).1⟩

theorem utimepointAdd_sound (ht : t.Normalised) (hv : v.Normalised) (hfit : AddFits t v) :
    AddSound t v := by
  rintro x y ⟨hx1, hx2⟩ ⟨hy1, hy2⟩
  obtain ⟨hbelow, habove⟩ := widths_value ht hv hfit.toWidthsFit
  have hest := (timepointAdd_value ht.estimate hv.estimate hfit.estimate).1
  unfold Utimepoint.Contains utimepointAdd
  rw [hest, hbelow, habove]
  push_cast
  constructor <;> linarith

/-- The difference interval, written out: the sides of `v` do not cross over. -/
theorem utimepointSub_contains_iff (ht : t.Normalised) (hv : v.Normalised) (hfit : SubFits t v)
    (z : ℝ) :
    (utimepointSub t v).Contains z ↔
      (t.estimate.value - v.estimate.value - (t.interval.below.value + v.interval.below.value) : ℝ)
          ≤ z
        ∧ z ≤ (t.estimate.value - v.estimate.value
          + (t.interval.above.value + v.interval.above.value) : ℝ) := by
  obtain ⟨hbelow, habove⟩ := widths_value ht hv hfit.toWidthsFit
  have hest := (timepointSub_value ht.estimate hv.estimate hfit.estimate).1
  unfold Utimepoint.Contains utimepointSub
  rw [hest, hbelow, habove]
  push_cast
  exact Iff.rfl

/-- Subtraction encloses every difference exactly when the length is as uncertain below as it is
above. The extreme differences sit at opposite ends of the two intervals. -/
theorem utimepointSub_sound_iff (ht : t.Normalised) (hv : v.Normalised) (hfit : SubFits t v) :
    SubSound t v ↔ v.interval.below.value = v.interval.above.value := by
  have hpos : ∀ l : Timelength, (0 : ℝ) ≤ l.value := by
    intro l
    have := l.value_nonneg
    exact_mod_cast this
  have htb := hpos t.interval.below
  have hta := hpos t.interval.above
  have hvb := hpos v.interval.below
  have hva := hpos v.interval.above
  constructor
  · intro hsound
    -- lowest point against longest length, then highest point against shortest length
    have hlow := hsound (t.estimate.value - t.interval.below.value)
      (v.estimate.value + v.interval.above.value) ⟨le_rfl, by linarith⟩ ⟨by linarith, le_rfl⟩
    have hhigh := hsound (t.estimate.value + t.interval.above.value)
      (v.estimate.value - v.interval.below.value) ⟨by linarith, le_rfl⟩ ⟨le_rfl, by linarith⟩
    have h1 := ((utimepointSub_contains_iff ht hv hfit _).mp hlow).1
    have h2 := ((utimepointSub_contains_iff ht hv hfit _).mp hhigh).2
    have heq : (v.interval.below.value : ℝ) = v.interval.above.value := by linarith
    exact_mod_cast heq
  · rintro heq x y ⟨hx1, hx2⟩ ⟨hy1, hy2⟩
    have heq' : (v.interval.below.value : ℝ) = v.interval.above.value := by exact_mod_cast heq
    rw [utimepointSub_contains_iff ht hv hfit]
    constructor <;> linarith

/-- **Interval soundness of uncertain-time arithmetic.** Addition always encloses the true sum;
subtraction encloses the true difference if and only if the length it takes off is as uncertain
below as above. -/
theorem utimepoint_interval_sound_iff (t : Utimepoint) (v : Utimelength) (ht : t.Normalised)
    (hv : v.Normalised) :
    (AddFits t v → AddSound t v)
      ∧ (SubFits t v → (SubSound t v ↔ v.interval.below.value = v.interval.above.value)) :=
  ⟨utimepointAdd_sound ht hv, utimepointSub_sound_iff ht hv⟩

def zeroUtimepoint : Utimepoint := ⟨⟨0, 0⟩, ⟨⟨0, 0⟩, ⟨0, 0⟩⟩⟩

def lateUtimelength : Utimelength := ⟨⟨10, 0⟩, ⟨⟨0, 0⟩, ⟨1, 0⟩⟩⟩

theorem zeroUtimepoint_normalised : zeroUtimepoint.Normalised :=
  ⟨by decide, by decide, by decide⟩

theorem lateUtimelength_normalised : lateUtimelength.Normalised :=
  ⟨by decide, by decide, by decide⟩

theorem zero_late_subFits : SubFits zeroUtimepoint lateUtimelength :=
  ⟨⟨by decide, by decide⟩, by decide⟩

theorem zero_late_addFits : AddFits zeroUtimepoint lateUtimelength :=
  ⟨⟨by decide, by decide⟩, by decide⟩

/-- Ten seconds plus or minus nothing below and a second above: the sum is enclosed, the
difference is not, as the two widths differ. -/
theorem utimepoint_interval_sound_iff_late :
    AddSound zeroUtimepoint lateUtimelength
      ∧ (SubSound zeroUtimepoint lateUtimelength ↔
        lateUtimelength.interval.below.value = lateUtimelength.interval.above.value) :=
  have h := utimepoint_interval_sound_iff zeroUtimepoint lateUtimelength
    zeroUtimepoint_normalised lateUtimelength_normalised
  ⟨h.1 zero_late_addFits, h.2 zero_late_subFits⟩

/-- Taking ten to eleven seconds off the reference can leave minus eleven seconds, and the
result's interval stops at minus ten. -/
theorem utimepointSub_not_sound :
    ¬ ∀ (t : Utimepoint) (v : Utimelength), t.Normalised → v.Normalised → SubFits t v →
      SubSound t v := by
  intro h
  have hsound := h zeroUtimepoint lateUtimelength zeroUtimepoint_normalised
    lateUtimelength_normalised zero_late_subFits
  have heq := (utimepointSub_sound_iff zeroUtimepoint_normalised lateUtimelength_normalised
    zero_late_subFits).mp hsound
  exact absurd heq (by decide)

end Qot
