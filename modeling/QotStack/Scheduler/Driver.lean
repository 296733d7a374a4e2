import Mathlib.Algebra.Order.Floor.Div
import QotStack.Am335x.Clockevent

/-!
# QotStack — programming the core interrupt

The scheduler asks the clock driver for one interrupt at a core time. Two drivers are embedded:

* `qot_x86.c` — a high-resolution timer at the expiry itself; an expiry that is not in the future
  is refused, and the `force` flag is not looked at;
* `qot_am335x.c` — a countdown clamped between a minimum and a maximum delta; an expiry closer than
  the minimum is refused unless forced, and then the minimum delta is counted down.

`programSchedInterrupt` returns the core time the hardware is armed for, `none` where the driver
returns an error and arms nothing. The countdown of the am335x is in cycles: it is started at
`0xffffffff` less the cycles of the delay and interrupts when it overflows, one cycle after it has
reached `0xffffffff`; and the multiplier that gives the cycles may be rounded up. `lateness` bounds
what both cost. The core clock is taken to run at the rate of the counter meanwhile.
-/

namespace Qot

open MachineInt

/-! ## The countdown of the am335x -/

/-- The scheduler timer: its device, as `clkev_configure` leaves it for the rate of the counter. -/
structure SchedTimer where
  dev : ClockEventDevice
  rate : UInt32
  rate_pos : 1 ≤ rate.toNat
  configured : Configured rate dev
  deriving DecidableEq

namespace SchedTimer

/-- The nanoseconds from starting the counter for a delay to its overflow, in whole ones rounded
up. -/
def countdown (timer : SchedTimer) (delta : UInt64) : Option Nat :=
  (timer.dev.loadStart delta).map fun load =>
    (4294967296 - load.toNat) * 1000000000 ⌈/⌉ timer.rate.toNat

/-- What a countdown may take beyond its delay: the cycle of the overflow, and what half a unit of
the multiplier makes of the longest delay. -/
def lateness (timer : SchedTimer) : Nat :=
  (1000000000 + max timer.dev.maxDeltaNs.toNat timer.dev.minDeltaNs.toNat * 500000000
    / 2 ^ timer.dev.shift.toNat) ⌈/⌉ timer.rate.toNat

/-- **The countdown** of any delay ends, at the latest, `lateness` after the delay or the minimum
delta. -/
theorem countdown_le (timer : SchedTimer) (delta : UInt64) (h : 1 ≤ delta.toNat) :
    ∃ n, timer.countdown delta = some n
      ∧ n ≤ max delta.toNat timer.dev.minDeltaNs.toNat + timer.lateness := by
  obtain ⟨d, c, -, hd, -, hclc, hc, -, hcle⟩ := timer.configured.clc_spec h
  obtain ⟨load, hload, hstart⟩ := ClockEventDevice.loadStart_of_clc hclc hcle
  have hcycles := timer.configured.cycles_mul_le hc
  have hrate := timer.rate_pos
  refine ⟨(4294967296 - load.toNat) * 1000000000 ⌈/⌉ timer.rate.toNat,
    by rw [countdown, hload]; rfl, ?_⟩
  have hlate : 1000000000 + max timer.dev.maxDeltaNs.toNat timer.dev.minDeltaNs.toNat * 500000000
      / 2 ^ timer.dev.shift.toNat ≤ timer.rate.toNat * timer.lateness := by
    rw [← ceilDiv_le_iff_le_mul (by omega)]
    exact le_rfl
  rw [ceilDiv_le_iff_le_mul (by omega), show 4294967296 - load.toNat = c.toNat + 1 by omega,
    Nat.mul_add]
  -- the rounding of the delay that is counted is at most that of the longest one
  have hround : c.toNat * 1000000000 ≤ d.toNat * timer.rate.toNat
      + max timer.dev.maxDeltaNs.toNat timer.dev.minDeltaNs.toNat * 500000000
        / 2 ^ timer.dev.shift.toNat := by
    rw [← Nat.sub_le_iff_le_add', Nat.le_div_iff_mul_le (Nat.two_pow_pos _), Nat.sub_mul]
    have hmax : d.toNat * 500000000
        ≤ max timer.dev.maxDeltaNs.toNat timer.dev.minDeltaNs.toNat * 500000000 :=
      Nat.mul_le_mul_right _ (by omega)
    omega
  have hdelay : d.toNat * timer.rate.toNat
      ≤ timer.rate.toNat * max delta.toNat timer.dev.minDeltaNs.toNat := by
    rw [Nat.mul_comm]
    exact Nat.mul_le_mul_left _ (by omega)
  linarith

end SchedTimer

/-! ## The drivers -/

inductive Driver where
  | x86
  | am335x (timer : SchedTimer)
  deriving DecidableEq

namespace Driver

def minDelta : Driver → Int
  | .x86 => 0
  | .am335x timer => timer.dev.minDeltaNs.toNat

/-- How much later than asked for the interrupt may come. -/
def lateness : Driver → Int
  | .x86 => 0
  | .am335x timer => timer.lateness

theorem minDelta_nonneg (d : Driver) : 0 ≤ d.minDelta := by
  cases d with
  | x86 => exact le_refl 0
  | am335x timer => exact Int.natCast_nonneg _

end Driver

/-- Program an interrupt at `expiry`, the driver's clock reading `ns`. -/
def programSchedInterrupt (d : Driver) (ns : Int64) (expiry : Timepoint) (force : Bool) :
    Option Int :=
  let expiryNs := (tpToNsec expiry).toUInt64
  let now := ns.toUInt64
  match d with
  -- x86 does not look at `force`
  | .x86 => if expiryNs ≤ now then none else some (tpToNsec expiry).toInt
  | .am335x timer =>
    if expiryNs > now + timer.dev.minDeltaNs then
      (timer.countdown (expiryNs - now)).map fun delay => ns.toInt + delay
    else if force then
      (timer.countdown timer.dev.minDeltaNs).map fun delay => ns.toInt + delay
    else none

section Spec

variable {d : Driver} {ns k : Int64} (hns : 0 ≤ ns.toInt) (hk : 0 ≤ k.toInt)

include hns hk

theorem expiryNs_gt_iff {minDelta : UInt64} (hmin : minDelta.toNat < 9223372036854775808) :
    k.toUInt64 > ns.toUInt64 + minDelta ↔ ns.toInt + minDelta.toNat < k.toInt := by
  have hn := toNat_toUInt64_of_nonneg hns
  have hk' := toNat_toUInt64_of_nonneg hk
  have hfit := fits_toInt ns
  rw [gt_iff_lt, UInt64.lt_iff_toNat_lt, UInt64.toNat_add]
  constructor <;> intro h <;> omega

/-- **Unforced programming**: it succeeds exactly on an expiry more than the minimum delta away,
and the interrupt is then armed for the expiry, up to the lateness of the driver. -/
theorem programSchedInterrupt_unforced :
    (k.toInt ≤ ns.toInt + d.minDelta ∧ programSchedInterrupt d ns (tpFromNsec k) false = none)
      ∨ (ns.toInt + d.minDelta < k.toInt ∧ ∃ a,
        programSchedInterrupt d ns (tpFromNsec k) false = some a ∧ a ≤ k.toInt + d.lateness) := by
  have hn := toNat_toUInt64_of_nonneg hns
  have hk' := toNat_toUInt64_of_nonneg hk
  simp only [programSchedInterrupt, tpToNsec_tpFromNsec]
  cases d with
  | x86 =>
    simp only [Driver.minDelta, Driver.lateness, UInt64.le_iff_toNat_le]
    by_cases h : k.toUInt64.toNat ≤ ns.toUInt64.toNat
    · exact Or.inl ⟨by omega, if_pos h⟩
    · exact Or.inr ⟨by omega, k.toInt, if_neg h, by omega⟩
  | am335x timer =>
    simp only [Driver.minDelta, Driver.lateness,
      expiryNs_gt_iff hns hk timer.configured.min_range.2]
    by_cases h : ns.toInt + timer.dev.minDeltaNs.toNat < k.toInt
    · -- the delta exceeds the minimum
      have hdelta : (k.toUInt64 - ns.toUInt64).toNat = k.toUInt64.toNat - ns.toUInt64.toNat := by
        rw [UInt64.toNat_sub]
        have := toNat_lt k.toUInt64
        omega
      obtain ⟨n, hcount, hle⟩ := timer.countdown_le (k.toUInt64 - ns.toUInt64) (by omega)
      refine Or.inr ⟨h, ns.toInt + n, ?_, by omega⟩
      rw [if_pos h, hcount]
      rfl
    · exact Or.inl ⟨by omega, by rw [if_neg h]; rfl⟩

/-- **Forced programming**: x86 refuses an expiry that is not in the future; am335x never refuses,
and arms for the larger of the expiry and the minimum delta from now, up to its lateness. -/
theorem programSchedInterrupt_forced :
    (d = .x86 ∧ k.toInt ≤ ns.toInt ∧ programSchedInterrupt d ns (tpFromNsec k) true = none)
      ∨ (∃ a, programSchedInterrupt d ns (tpFromNsec k) true = some a
        ∧ (a ≤ k.toInt + d.lateness
          ∨ (a ≤ ns.toInt + d.minDelta + d.lateness ∧ k.toInt ≤ ns.toInt + d.minDelta))) := by
  rcases programSchedInterrupt_unforced (d := d) hns hk with ⟨hle, hnone⟩ | ⟨hlt, a, ha, hak⟩
  · cases d with
    | x86 => exact Or.inl ⟨rfl, by simpa [Driver.minDelta] using hle, hnone⟩
    | am335x timer =>
      have hmin := timer.configured.min_range
      obtain ⟨n, hcount, hbound⟩ := timer.countdown_le timer.dev.minDeltaNs (by omega)
      -- the force replaces the expiry by the minimum delta
      refine Or.inr ⟨ns.toInt + n, ?_, Or.inr ⟨?_, hle⟩⟩
      case refine_2 =>
        simp only [Driver.minDelta, Driver.lateness]
        omega
      have hgt : ¬ k.toUInt64 > ns.toUInt64 + timer.dev.minDeltaNs := by
        rw [expiryNs_gt_iff hns hk hmin.2]
        exact not_lt.mpr hle
      simp [programSchedInterrupt, tpToNsec_tpFromNsec, hgt, hcount]
  · refine Or.inr ⟨a, ?_, Or.inl hak⟩
    -- an expiry that needs no force is armed the same way with it
    rw [← ha]
    simp only [programSchedInterrupt, tpToNsec_tpFromNsec] at ha ⊢
    cases d with
    | x86 => rfl
    | am335x timer =>
      have hgt : k.toUInt64 > ns.toUInt64 + timer.dev.minDeltaNs :=
        (expiryNs_gt_iff hns hk timer.configured.min_range.2).mpr hlt
      simp only [if_pos hgt]

end Spec

end Qot
