import QotStack.Am335x.Lock

/-!
# QotStack — the rate of the am335x clock (`qot_am335x.c`)

A cycle of the core timer is `mult / 2 ^ shift` nanoseconds, 41.67 at the rate the driver is set up
with. The PTP clock may change the multiplier by a thousandth (`qot_am335x_adjfreq`, and `max_adj`,
above which the PTP core does not call it). What is left over of a nanosecond is kept as a fraction.

* `Tuned` — the multiplier is one that can be set, and the fraction is below a nanosecond. A reading
  of the counter and an adjustment keep it.
* `toNat_cycles` — what the driver computes for a number of nanoseconds, as a quotient.
-/

namespace Qot

open MachineInt

/-- The multiplier of the nominal rate (`cc_mult`). -/
def ccMult : UInt32 := 2796202667

def am335xMaxAdj : Nat := 1000000

/-- The multiplier for an adjustment of `ppb` in a thousand million. -/
def adjfreqMult (ppb : Int32) : UInt32 :=
  let negAdj : Bool := ppb < 0
  let ppb := if negAdj then -ppb else ppb
  -- `div_u64` after a product of 64 bits, stored in a `u32`
  let adj := ccMult.toUInt64 * ppb.toInt64.toUInt64
  let diff := (adj / 1000000000).toUInt32
  if negAdj then ccMult - diff else ccMult + diff

variable {ppb : Int32}

theorem toNat_ppb (h : 0 ≤ ppb.toInt) : ppb.toInt64.toUInt64.toNat = ppb.toInt.natAbs := by
  have hext : ppb.toInt64.toInt = ppb.toInt := Int32.toInt_toInt64 ppb
  have hnat := toNat_toUInt64_of_nonneg (a := ppb.toInt64) (by omega)
  omega

/-- The nominal multiplier changes by the part of it that was asked for. -/
theorem toNat_adj (ppb : Int32) (hnonneg : 0 ≤ ppb.toInt) (h : ppb.toInt.natAbs ≤ am335xMaxAdj) :
    ((ccMult.toUInt64 * ppb.toInt64.toUInt64 / 1000000000).toUInt32).toNat
      = 2796202667 * ppb.toInt.natAbs / 1000000000 := by
  unfold am335xMaxAdj at h
  have hmult : ccMult.toUInt64.toNat = 2796202667 := rfl
  have hppb := toNat_ppb hnonneg
  rw [toNat_toUInt32, UInt64.toNat_div, toNat_mul_of_lt (by rw [hmult, hppb]; omega), hmult, hppb]
  show 2796202667 * ppb.toInt.natAbs / 1000000000 % 4294967296 = _
  omega

theorem toInt_neg_of_neg (hneg : ppb.toInt < 0) (h : ppb.toInt.natAbs ≤ am335xMaxAdj) :
    (-ppb).toInt = -ppb.toInt := by
  unfold am335xMaxAdj at h
  rw [Int32.toInt_neg]
  exact Int.bmod_eq_of_le_mul_two (by omega) (by omega)

section
variable (h : ppb.toInt.natAbs ≤ am335xMaxAdj)
include h

theorem toNat_adjfreqMult :
    (adjfreqMult ppb).toNat
      = if ppb.toInt < 0 then 2796202667 - 2796202667 * ppb.toInt.natAbs / 1000000000
        else 2796202667 + 2796202667 * ppb.toInt.natAbs / 1000000000 := by
  have hmax : ppb.toInt.natAbs ≤ 1000000 := h
  have hmult : ccMult.toNat = 2796202667 := rfl
  unfold adjfreqMult
  by_cases hneg : ppb.toInt < 0
  · have hlt : ppb < 0 := Int32.lt_iff_toInt_lt.2 hneg
    -- the largest adjustment is far from the least `int`, whose negative is itself
    have hflip := toInt_neg_of_neg hneg h
    have habs : (-ppb).toInt.natAbs = ppb.toInt.natAbs := by omega
    have hdiff := toNat_adj (-ppb) (by omega) (by omega)
    rw [habs] at hdiff
    simp only [hlt, decide_true, if_true, if_pos hneg]
    rw [UInt32.toNat_sub_of_le _ _ (UInt32.le_iff_toNat_le.2 (by omega)), hdiff, hmult]
  · have hlt : ¬ ppb < 0 := fun hlt => hneg (Int32.lt_iff_toInt_lt.1 hlt)
    have hdiff := toNat_adj ppb (by omega) h
    simp only [hlt, decide_false, Bool.false_eq_true, if_false, if_neg hneg]
    rw [UInt32.toNat_add, hdiff, hmult]
    exact Nat.mod_eq_of_lt (by omega)

/-- The multipliers that can be set are within a thousandth of the nominal one. -/
theorem adjfreqMult_range :
    2793406465 ≤ (adjfreqMult ppb).toNat ∧ (adjfreqMult ppb).toNat ≤ 2798998869 := by
  have hmult := toNat_adjfreqMult h
  unfold am335xMaxAdj at h
  split at hmult <;> omega

theorem adjfreqMult_ne : adjfreqMult ppb ≠ 0 := by
  intro h0
  have hrange := (adjfreqMult_range h).1
  rw [h0] at hrange
  exact absurd hrange (by decide)

end

namespace Am335x

variable {φ : Type} {p : Am335x φ}

/-- The counter is read at the old rate first. -/
def qotAm335xAdjfreq (p : Am335x φ) (ppb : Int32) (hppb : ppb.toInt.natAbs ≤ am335xMaxAdj)
    (cycleNow : UInt64) : Option (Am335x φ) :=
  p.lock.map fun p =>
    { p.qotAm335xOverflow cycleNow with
      cc := ⟨adjfreqMult ppb, p.cc.shift, adjfreqMult_ne hppb⟩ }.unlock

/-- The clock runs at a rate that can be set, and is less than a nanosecond behind. -/
structure Tuned (p : Am335x φ) : Prop where
  shift : p.cc.shift = 26
  mult : ∃ ppb : Int32, ppb.toInt.natAbs ≤ am335xMaxAdj ∧ p.cc.mult = adjfreqMult ppb
  frac : p.tc.frac.toNat < 67108864

theorem toNat_and_frac_mask (u : UInt64) :
    (u &&& ((1 <<< (26 : UInt32).toUInt64) - 1)).toNat < 67108864 := by
  have hmask : ((1 : UInt64) <<< (26 : UInt32).toUInt64 - 1).toNat = 67108863 := by decide
  rw [UInt64.toNat_and, hmask]
  exact Nat.lt_of_le_of_lt Nat.and_le_right (by decide)

namespace Tuned

theorem overflow (h : p.Tuned) (cycleNow : UInt64) : (p.qotAm335xOverflow cycleNow).Tuned := by
  refine ⟨h.shift, h.mult, ?_⟩
  show (timecounterRead p.tc p.cc cycleNow).frac.toNat < 67108864
  unfold timecounterRead
  rw [h.shift]
  exact toNat_and_frac_mask _

/-- A request leaves the clock alone. -/
theorem program (h : p.Tuned) (coreStart : Timepoint) (corePeriod : Timelength)
    (perout : QotPerout φ) : (p.program coreStart corePeriod perout).Tuned :=
  ⟨h.shift, h.mult, h.frac⟩

theorem mult_range (h : p.Tuned) : 2793406465 ≤ p.cc.mult.toNat ∧ p.cc.mult.toNat ≤ 2798998869 := by
  obtain ⟨ppb, hppb, hmult⟩ := h.mult
  rw [hmult]
  exact adjfreqMult_range hppb

theorem mult_pos (h : p.Tuned) : (0 : Int) < p.cc.mult.toNat := by
  have hrange := h.mult_range
  omega

/-- **Nanoseconds in cycles**, of a delay up to the largest period, or a little more. -/
theorem toNat_cycles (h : p.Tuned) {ns : Int64} {n : Nat} (hns : ns.toInt = n)
    (hn : n ≤ 200000000000) :
    (p.cycles ns).toNat = (n * 67108864 + p.tc.frac.toNat) / p.cc.mult.toNat := by
  have hfrac := h.frac
  have hword : ns.toUInt64.toNat = n := by
    have := toNat_toUInt64_of_nonneg (a := ns) (by omega)
    omega
  have hshift : (26 : UInt32).toUInt64.toNat = 26 := rfl
  have hscaled : (ns.toUInt64 <<< (26 : UInt32).toUInt64).toNat = n * 67108864 := by
    rw [toNat_shiftLeft_of_lt (by decide) (by rw [hword, hshift]; omega), hword, hshift]
    omega
  unfold cycles
  rw [h.shift, UInt64.toNat_div, toNat_add_of_lt (by omega), hscaled]
  rfl

/-- The largest period is about half the counter. -/
theorem cycles_lt (h : p.Tuned) {n : Nat} (hn : n ≤ 100000000000) :
    (n * 67108864 + p.tc.frac.toNat) / p.cc.mult.toNat < 4294967296 := by
  have hfrac := h.frac
  have hmult := h.mult_range
  rw [Nat.div_lt_iff_lt_mul (by omega)]
  omega

end Tuned

theorem tuned_probed (core : Am335xChannel) (pins : Nat → Am335xChannel) (cycleLast nsec : UInt64) :
    (probed core pins ⟨cycleLast, nsec, 0⟩ ⟨2796202667, 26, by decide⟩ : Am335x φ).Tuned := by
  refine ⟨rfl, ⟨0, by decide, ?_⟩, ?_⟩
  · show (2796202667 : UInt32) = adjfreqMult 0
    decide
  · show (0 : UInt64).toNat < 67108864
    decide

end Am335x

end Qot
