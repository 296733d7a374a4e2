import Mathlib.Tactic.FieldSimp
import Mathlib.Tactic.Linarith
import Mathlib.Data.Rat.Floor
import QotStack.Types.Time

/-!
# QotStack — the countdown of the am335x scheduler timer (`qot_am335x.c`)

The scheduler timer counts cycles, and its delays are asked for in nanoseconds. `clkev_configure`
looks for the pair of a multiplier and a shift that a delay is scaled with, and `clkev_delta2ns`
turns the limits of the counter, in cycles, into the limits of a delay. `clkev_program_event` clamps
a delay between them, scales it and starts the timer that many cycles before its overflow.

A long is a word of 32 bits on this chip.

The crux is that the search ends in a `break`: a loop that runs to its end leaves the multiplier of
shift one beside the shift zero. `sftacc` has at least two bits left, and at a shift of one a
frequency that does not fit in them has `sec = 1` or `2`, where `sftacc` is never decreased
(`scaled_one_fits`). `Configured` has what the rest needs of the device.
-/

namespace Qot

open MachineInt

/-! ## The device -/

/-- What the driver uses of the kernel's `struct clock_event_device`. -/
structure ClockEventDevice where
  mult : UInt32
  shift : UInt32
  minDeltaTicks : UInt32
  maxDeltaTicks : UInt32
  minDeltaNs : UInt64
  maxDeltaNs : UInt64
  deriving DecidableEq, Repr

/-- The limit of a delay, from the limit of the counter. A multiplier of zero is replaced. -/
def clkevDelta2ns (latch : UInt32) (evt : ClockEventDevice) (ismax : Bool) :
    ClockEventDevice × UInt64 :=
  let clc := latch.toUInt64 <<< evt.shift.toUInt64
  let evt := if evt.mult = 0 then { evt with mult := 1 } else evt
  let rnd := evt.mult.toUInt64 - 1
  -- the shift lost bits
  let clc := if clc >>> evt.shift.toUInt64 ≠ latch.toUInt64 then ~~~0 else clc
  let clc :=
    if ~~~0 - clc > rnd ∧ (ismax = false ∨ evt.mult.toUInt64 ≤ 1 <<< evt.shift.toUInt64)
      then clc + rnd
    else clc
  let clc := clc / evt.mult.toUInt64
  (evt, if clc > 1000 then clc else 1000)

/-- The `while` loop of `clkev_configure`: one bit less for each bit of `tmp`. -/
def clkevSftacc (tmp : UInt64) (sftacc : UInt32) : UInt32 :=
  if h : tmp = 0 then sftacc
  else clkevSftacc (tmp >>> 1) (sftacc - 1)
termination_by tmp.toNat
decreasing_by
  have hpos : tmp.toNat ≠ 0 := fun h0 => h (UInt64.toNat_inj.1 h0)
  have hhalf : (tmp >>> 1).toNat = tmp.toNat / 2 := toNat_shiftRight (k := 1) (by decide)
  omega

/-- The frequency in units of `2 ^ -sft` cycles per nanosecond, to the nearest. -/
def clkevScaled (freq : UInt32) (sft : Nat) : UInt64 :=
  (freq.toUInt64 <<< sft.toUInt64 + 500000000) / 1000000000

/-- The `for` loop of `clkev_configure`, from the shift `sft` down: `tmp` and the shift it is left
with. -/
def clkevFind (freq sftacc : UInt32) : Nat → UInt64 → UInt64 × Nat
  | 0, tmp => (tmp, 0)
  | sft + 1, _ =>
    let tmp := clkevScaled freq (sft + 1)
    if tmp >>> sftacc.toUInt64 = 0 then (tmp, sft + 1) else clkevFind freq sftacc sft tmp

/-- The multiplier, before it is stored in 32 bits, and the shift. -/
def clkevSearch (maxDeltaTicks freq : UInt32) : UInt64 × Nat :=
  let sec := maxDeltaTicks.toUInt64 / freq.toUInt64
  let sec :=
    if sec = 0 then 1
    else if sec > 600 ∧ maxDeltaTicks > 0xffffffff then 600
    else sec
  let tmp := (sec * 1000000000) >>> 32
  clkevFind freq (clkevSftacc tmp 32) 32 tmp

/-- Store a limit. -/
def clkevSetMin (dev : ClockEventDevice) : ClockEventDevice :=
  let least := clkevDelta2ns dev.minDeltaTicks dev false
  { least.1 with minDeltaNs := least.2 }

def clkevSetMax (dev : ClockEventDevice) : ClockEventDevice :=
  let largest := clkevDelta2ns dev.maxDeltaTicks dev true
  { largest.1 with maxDeltaNs := largest.2 }

def clkevConfigure (dev : ClockEventDevice) (freq : UInt32) : ClockEventDevice :=
  let found := clkevSearch dev.maxDeltaTicks freq
  let dev := { dev with mult := found.1.toUInt32, shift := found.2.toUInt32 }
  clkevSetMax (clkevSetMin dev)

/-- `EVENT_START` of `qot_am335x_core_sched`. -/
def coreSchedStart (dev : ClockEventDevice) (rate : UInt32) : ClockEventDevice :=
  clkevConfigure { dev with minDeltaTicks := 3, maxDeltaTicks := 0xffffffff } rate

/-- The delay `clkev_program_event` scales, between the limits of the device; a delay of zero is
refused. -/
def clkevProgramEvent (minDelta maxDelta delta : UInt64) : Option UInt64 :=
  if delta ≤ 0 then none
  else
    let delta := if delta < maxDelta then delta else maxDelta
    some (if delta > minDelta then delta else minDelta)

namespace ClockEventDevice

/-- The cycles `clkev_program_event` computes. -/
def clc (dev : ClockEventDevice) (delta : UInt64) : Option UInt64 :=
  (clkevProgramEvent dev.minDeltaNs dev.maxDeltaNs delta).map fun delta =>
    (delta * dev.mult.toUInt64) >>> dev.shift.toUInt64

/-- What the counter is started with (`qot_am335x_sched_interface_program_interrupt`). -/
def loadStart (dev : ClockEventDevice) (delta : UInt64) : Option UInt32 :=
  (dev.clc delta).map fun clc => 0xffffffff - clc.toUInt32

end ClockEventDevice

/-! ## The search -/

theorem toNat_toUInt64_ofNat {n : Nat} (h : n ≤ 32) : n.toUInt64.toNat = n := by
  show n % 18446744073709551616 = n
  omega

theorem two_pow_le_of_le {s : Nat} (hs : s ≤ 32) : 2 ^ s ≤ 4294967296 :=
  Nat.pow_le_pow_right (by decide) hs

/-- A word of 32 bits that is shifted by at most 32 keeps all its bits. -/
theorem toNat_word_shiftLeft (u : UInt32) {k : UInt64} (hk : k.toNat ≤ 32) :
    (u.toUInt64 <<< k).toNat = u.toNat * 2 ^ k.toNat := by
  have hu : u.toNat ≤ 4294967295 := by have := u.toNat_lt; omega
  have hbound : u.toNat * 2 ^ k.toNat ≤ 4294967295 * 4294967296 :=
    Nat.mul_le_mul hu (two_pow_le_of_le hk)
  rw [toNat_shiftLeft_of_lt (by omega) (by rw [UInt32.toNat_toUInt64]; omega),
    UInt32.toNat_toUInt64]

/-- For shifts up to 32 nothing is lost: the largest sum is `2 ^ 64 - 2 ^ 32 + 500000000`. -/
theorem toNat_clkevScaled (freq : UInt32) {sft : Nat} (h : sft ≤ 32) :
    (clkevScaled freq sft).toNat = (freq.toNat * 2 ^ sft + 500000000) / 1000000000 := by
  have hsft := toNat_toUInt64_ofNat h
  have hfreq : freq.toNat ≤ 4294967295 := by have := freq.toNat_lt; omega
  have hbound : freq.toNat * 2 ^ sft ≤ 4294967295 * 4294967296 :=
    Nat.mul_le_mul hfreq (two_pow_le_of_le h)
  have hshift := toNat_word_shiftLeft freq (hsft.trans_le h)
  rw [hsft] at hshift
  have hhalf : (500000000 : UInt64).toNat = 500000000 := rfl
  unfold clkevScaled
  rw [UInt64.toNat_div, toNat_add_of_lt (by rw [hshift, hhalf]; omega), hshift, hhalf]
  rfl

/-- The accumulator loses no more bits than `tmp` has. -/
theorem clkevSftacc_range (tmp : UInt64) (sftacc : UInt32) {k : Nat} (htmp : tmp.toNat < 2 ^ k)
    (hk : k ≤ sftacc.toNat) :
    sftacc.toNat - k ≤ (clkevSftacc tmp sftacc).toNat
      ∧ (clkevSftacc tmp sftacc).toNat ≤ sftacc.toNat := by
  induction k generalizing tmp sftacc with
  | zero =>
    have h0 : tmp = 0 := UInt64.toNat_inj.1 (Nat.lt_one_iff.1 htmp)
    rw [clkevSftacc, dif_pos h0]
    omega
  | succ k ih =>
    rw [clkevSftacc]
    split
    · omega
    · have hhalf : (tmp >>> 1).toNat = tmp.toNat / 2 := toNat_shiftRight (k := 1) (by decide)
      have hless : (sftacc - 1).toNat = sftacc.toNat - 1 :=
        UInt32.toNat_sub_of_le _ _ (UInt32.le_iff_toNat_le.2 (show 1 ≤ sftacc.toNat by omega))
      have hrest := ih (tmp >>> 1) (sftacc - 1)
        (by rw [hhalf]; rw [Nat.pow_succ] at htmp; omega) (by omega)
      omega

theorem shiftRight_eq_zero_iff {u : UInt64} {k : UInt32} (hk : k.toNat ≤ 32) :
    u >>> k.toUInt64 = 0 ↔ u.toNat < 2 ^ k.toNat := by
  have hk' : k.toUInt64.toNat = k.toNat := UInt32.toNat_toUInt64 k
  rw [← UInt64.toNat_inj, toNat_shiftRight (by omega), hk', UInt64.toNat_zero,
    Nat.div_eq_zero_iff_lt (Nat.two_pow_pos _)]

variable {freq : UInt32} {dev : ClockEventDevice}

/-- Where some shift fits, the loop is left at the largest one. -/
theorem clkevFind_spec {sftacc : UInt32} (hacc : sftacc.toNat ≤ 32)
    (hone : (clkevScaled freq 1).toNat < 2 ^ sftacc.toNat) {n : Nat} (hn : 1 ≤ n) (tmp : UInt64) :
    ∃ s, 1 ≤ s ∧ s ≤ n ∧ clkevFind freq sftacc n tmp = (clkevScaled freq s, s)
      ∧ (clkevScaled freq s).toNat < 2 ^ sftacc.toNat
      ∧ (s = n ∨ 2 ^ sftacc.toNat ≤ (clkevScaled freq (s + 1)).toNat) := by
  induction n generalizing tmp with
  | zero => omega
  | succ n ih =>
    simp only [clkevFind, shiftRight_eq_zero_iff hacc]
    split
    next hfits => exact ⟨n + 1, by omega, le_refl _, rfl, hfits, Or.inl rfl⟩
    next hbig =>
      -- the shift one fits, so that there is a smaller one to go on with
      have hn0 : 1 ≤ n := by
        by_contra h0
        obtain rfl : n = 0 := by omega
        exact hbig hone
      obtain ⟨s, h1, hle, heq, hfits, hlargest⟩ := ih hn0 (clkevScaled freq (n + 1))
      refine ⟨s, h1, by omega, heq, hfits, Or.inr ?_⟩
      obtain rfl | hlargest := hlargest
      · exact not_lt.1 hbig
      · exact hlargest

/-- The seconds the counter spans, as a word of 64 bits, shifted by 32. -/
theorem toNat_seconds {sec : UInt64} (h : sec.toNat ≤ 4294967295) :
    ((sec * 1000000000) >>> 32).toNat = sec.toNat * 1000000000 / 4294967296 := by
  have hmul : (sec * 1000000000).toNat = sec.toNat * 1000000000 :=
    toNat_mul_of_lt (show sec.toNat * 1000000000 < 18446744073709551616 by omega)
  rw [toNat_shiftRight (by decide), hmul]
  rfl

/-- Two bits are left of the accumulator, and all of them if the counter spans at most four
seconds. -/
theorem sftacc_range (sec : UInt64) (h : sec.toNat ≤ 4294967295) :
    2 ≤ (clkevSftacc ((sec * 1000000000) >>> 32) 32).toNat
      ∧ (clkevSftacc ((sec * 1000000000) >>> 32) 32).toNat ≤ 32
      ∧ (sec.toNat ≤ 4 → (clkevSftacc ((sec * 1000000000) >>> 32) 32).toNat = 32) := by
  have htmp := toNat_seconds h
  have h32 : (32 : UInt32).toNat = 32 := rfl
  have hrange := clkevSftacc_range ((sec * 1000000000) >>> 32) 32 (k := 30)
    (by rw [htmp]; omega) (by decide)
  refine ⟨by omega, by omega, ?_⟩
  intro hfour
  have hall := clkevSftacc_range ((sec * 1000000000) >>> 32) 32 (k := 0)
    (by rw [htmp]; omega) (by decide)
  omega

/-- Two bits hold the multiplier of shift one up to 1.75 GHz, and above that all 32 are left. -/
theorem scaled_one_fits {acc : Nat} (hacc : 2 ≤ acc)
    (hfast : 4294967295 / freq.toNat ≤ 4 → acc = 32) : (clkevScaled freq 1).toNat < 2 ^ acc := by
  have hfreq := freq.toNat_lt
  rw [toNat_clkevScaled freq (by decide)]
  by_cases hslow : freq.toNat < 1750000000
  · have hfour : 2 ^ 2 ≤ 2 ^ acc := Nat.pow_le_pow_right (by decide) hacc
    omega
  · have hsec : 4294967295 / freq.toNat ≤ 4294967295 / 1750000000 :=
      Nat.div_le_div_left (by omega) (by decide)
    rw [hfast (by omega)]
    omega

/-- A multiplier is stored as zero at no frequency: the next shift had four or more, unless it is
the largest shift, where one hertz has four. -/
theorem scaled_pos (hfreq : 1 ≤ freq.toNat) {s acc : Nat} (hs : s ≤ 32) (hacc : 2 ≤ acc)
    (hlargest : s = 32 ∨ 2 ^ acc ≤ (clkevScaled freq (s + 1)).toNat) :
    0 < (clkevScaled freq s).toNat := by
  rw [toNat_clkevScaled freq hs]
  obtain rfl | hnext := hlargest
  · omega
  · by_cases h32 : s = 32
    · subst h32
      omega
    · have hfour : 2 ^ 2 ≤ 2 ^ acc := Nat.pow_le_pow_right (by decide) hacc
      rw [toNat_clkevScaled freq (by omega), Nat.pow_succ, ← Nat.mul_assoc] at hnext
      omega

/-- **The search** ends in a `break`, with a multiplier of 32 bits that is not zero. -/
theorem clkevSearch_spec (hfreq : 1 ≤ freq.toNat) :
    ∃ s, 1 ≤ s ∧ s ≤ 32 ∧ clkevSearch 0xffffffff freq = (clkevScaled freq s, s)
      ∧ 0 < (clkevScaled freq s).toNat ∧ (clkevScaled freq s).toNat < 4294967296 := by
  have hlt := freq.toNat_lt
  have hsec : ((0xffffffff : UInt32).toUInt64 / freq.toUInt64).toNat = 4294967295 / freq.toNat := by
    rw [UInt64.toNat_div, UInt32.toNat_toUInt64]
    rfl
  have hpos : 1 ≤ 4294967295 / freq.toNat := (Nat.one_le_div_iff hfreq).2 (by omega)
  have hle : 4294967295 / freq.toNat ≤ 4294967295 := Nat.div_le_self _ _
  unfold clkevSearch
  generalize (0xffffffff : UInt32).toUInt64 / freq.toUInt64 = sec at hsec
  have hsec0 : ¬ sec = 0 := by
    rintro rfl
    rw [← hsec] at hpos
    exact absurd hpos (by decide)
  -- the cap of 600 seconds is for counters wider than 32 bits
  have hcap : ¬ (sec > 600 ∧ (0xffffffff : UInt32) > 0xffffffff) := fun h => absurd h.2 (by decide)
  simp only [if_neg hsec0, if_neg hcap]
  obtain ⟨hacc2, hacc32, hfast⟩ := sftacc_range sec (by omega)
  rw [hsec] at hfast
  obtain ⟨s, h1, hs, heq, hfits, hlargest⟩ := clkevFind_spec hacc32 (scaled_one_fits hacc2 hfast)
    (by decide : 1 ≤ 32) ((sec * 1000000000) >>> 32)
  have hword := two_pow_le_of_le hacc32
  exact ⟨s, h1, hs, heq, scaled_pos hfreq hs hacc2 hlargest, by omega⟩

/-! ## The limits -/

theorem toNat_noise_floor (clc : UInt64) :
    (if clc > 1000 then clc else 1000).toNat = max 1000 clc.toNat := by
  have h1000 : (1000 : UInt64).toNat = 1000 := rfl
  simp only [gt_iff_lt, UInt64.lt_iff_toNat_lt]
  split <;> omega

theorem toNat_ones_sub (clc : UInt64) : (~~~0 - clc).toNat = 18446744073709551615 - clc.toNat := by
  have hlt := toNat_lt clc
  exact UInt64.toNat_sub_of_le _ _ (UInt64.le_iff_toNat_le.2
    (show clc.toNat ≤ 18446744073709551615 by omega))

section Delta

variable (evt : ClockEventDevice) (hmult : 0 < evt.mult.toNat) (hshift : evt.shift.toNat ≤ 32)
  (latch : UInt32) (ismax : Bool)

include hmult hshift

/-- The limit of a delay in numbers: no bit is lost by the shift. -/
theorem clkevDelta2ns_eq :
    (clkevDelta2ns latch evt ismax).1 = evt
      ∧ (clkevDelta2ns latch evt ismax).2.toNat
        = max 1000
          ((if evt.mult.toNat - 1 < 18446744073709551615 - latch.toNat * 2 ^ evt.shift.toNat
            ∧ (ismax = false ∨ evt.mult.toNat ≤ 2 ^ evt.shift.toNat)
          then latch.toNat * 2 ^ evt.shift.toNat + (evt.mult.toNat - 1)
          else latch.toNat * 2 ^ evt.shift.toNat) / evt.mult.toNat) := by
  have hs : evt.shift.toUInt64.toNat = evt.shift.toNat := UInt32.toNat_toUInt64 _
  have hm : evt.mult.toUInt64.toNat = evt.mult.toNat := UInt32.toNat_toUInt64 _
  have hclc := toNat_word_shiftLeft latch (hs.trans_le hshift)
  have hone := toNat_word_shiftLeft 1 (hs.trans_le hshift)
  rw [hs] at hclc hone
  have hback : (latch.toUInt64 <<< evt.shift.toUInt64) >>> evt.shift.toUInt64 = latch.toUInt64 := by
    rw [← UInt64.toNat_inj, toNat_shiftRight (by omega), hclc, hs, UInt32.toNat_toUInt64,
      Nat.mul_div_cancel _ (Nat.two_pow_pos _)]
  have hmult0 : ¬ evt.mult = 0 := by
    intro h0
    rw [h0] at hmult
    exact absurd hmult (by decide)
  have hrnd : (evt.mult.toUInt64 - 1).toNat = evt.mult.toNat - 1 := by
    rw [UInt64.toNat_sub_of_le _ _ (UInt64.le_iff_toNat_le.2 (by rw [hm]; exact hmult)), hm]
    rfl
  unfold clkevDelta2ns
  simp only [if_neg hmult0, hback, ne_eq, not_true_eq_false, if_false, true_and, toNat_noise_floor,
    UInt64.toNat_div, hm]
  simp only [gt_iff_lt, UInt64.lt_iff_toNat_lt, UInt64.le_iff_toNat_le, toNat_ones_sub, hrnd, hm,
    hclc]
  rw [show ((1 : UInt64) <<< evt.shift.toUInt64).toNat = 2 ^ evt.shift.toNat from
    hone.trans (Nat.one_mul _)]
  split
  next hadd => rw [toNat_add_of_lt (by rw [hclc, hrnd]; omega), hclc, hrnd]
  next => rw [hclc]

/-- The limit of a delay, as a quotient: of the cycles, rounded up where that cannot pass the
limit. -/
theorem clkevDelta2ns_spec :
    (clkevDelta2ns latch evt ismax).1 = evt
      ∧ ∃ clc < 18446744073709551616,
        (clkevDelta2ns latch evt ismax).2.toNat = max 1000 (clc / evt.mult.toNat)
          ∧ (ismax = true → clc < (latch.toNat + 1) * 2 ^ evt.shift.toNat)
          ∧ (ismax = false → latch.toNat ≤ 3 →
            clc = latch.toNat * 2 ^ evt.shift.toNat + (evt.mult.toNat - 1)) := by
  obtain ⟨hevt, hlimit⟩ := clkevDelta2ns_eq evt hmult hshift latch ismax
  refine ⟨hevt, _, ?_, hlimit, ?_⟩ <;> clear hevt hlimit
  all_goals
    have hlatch := latch.toNat_lt
    have hmultlt := evt.mult.toNat_lt
    have hpow := two_pow_le_of_le hshift
    have hpow1 : 1 ≤ 2 ^ evt.shift.toNat := Nat.one_le_two_pow
    have hbound : latch.toNat * 2 ^ evt.shift.toNat ≤ 4294967295 * 4294967296 :=
      Nat.mul_le_mul (by omega) hpow
  · split <;> omega
  · rw [Nat.add_mul]
    split
    next hadd =>
      refine ⟨?_, fun _ _ => rfl⟩
      rintro rfl
      have := hadd.2.resolve_left (by decide)
      omega
    next hkeep =>
      refine ⟨fun _ => by omega, ?_⟩
      -- the least limit leaves room for the rounding
      rintro rfl hthree
      have hthree' := Nat.mul_le_mul_right (2 ^ evt.shift.toNat) hthree
      exact absurd ⟨by omega, Or.inl rfl⟩ hkeep

end Delta

/-- What the search and the limits make of the device, in the numbers they stand for. -/
structure Configured (freq : UInt32) (dev : ClockEventDevice) : Prop where
  shift_le : dev.shift.toNat ≤ 32
  mult_pos : 0 < dev.mult.toNat
  mult_le : dev.mult.toNat * 1000000000 ≤ freq.toNat * 2 ^ dev.shift.toNat + 500000000
  min_cycles : 3 * 2 ^ dev.shift.toNat ≤ dev.minDeltaNs.toNat * dev.mult.toNat
  min_lt : dev.minDeltaNs.toNat * dev.mult.toNat < 4294967296 * 2 ^ dev.shift.toNat
  max_lt : dev.maxDeltaNs.toNat * dev.mult.toNat < 4294967296 * 2 ^ dev.shift.toNat
  min_range : 1000 ≤ dev.minDeltaNs.toNat ∧ dev.minDeltaNs.toNat < 9223372036854775808

/-- A limit of a delay, scaled back, stays below the overflow of the counter. -/
theorem limit_mul_lt {mult clc pow : Nat} (hmult : mult ≤ 5 * pow) (hclc : clc < 4294967296 * pow) :
    max 1000 (clc / mult) * mult < 4294967296 * pow := by
  have hquot : clc / mult * mult ≤ clc := Nat.div_mul_le_self _ _
  obtain h | h := Nat.le_total 1000 (clc / mult)
  · rw [Nat.max_eq_right h]
    omega
  · rw [Nat.max_eq_left h]
    omega

/-- The least delay is rounded up, so that it is not scaled below the cycles it is for. -/
theorem le_limit_mul {mult ticks : Nat} (hmult : 0 < mult) :
    ticks ≤ max 1000 ((ticks + (mult - 1)) / mult) * mult := by
  have hquot : ticks ≤ (ticks + (mult - 1)) / mult * mult := by
    have := Nat.div_add_mod' (ticks + (mult - 1)) mult
    have := Nat.mod_lt (ticks + (mult - 1)) hmult
    omega
  exact hquot.trans (Nat.mul_le_mul_right _ (Nat.le_max_right _ _))

/-- The multiplier is at most five times the power of the shift, as the frequency is below 5 GHz. -/
theorem mult_le_five_mul {mult pow : Nat} (_ : 1 ≤ pow)
    (h : mult * 1000000000 ≤ freq.toNat * pow + 500000000) : mult ≤ 5 * pow := by
  have hfreq := freq.toNat_lt
  have hbound : freq.toNat * pow ≤ 4294967296 * pow := Nat.mul_le_mul_right _ (by omega)
  omega

theorem clkevSetMin_eq (dev : ClockEventDevice) (hmult : 0 < dev.mult.toNat)
    (hshift : dev.shift.toNat ≤ 32) :
    clkevSetMin dev
      = { dev with minDeltaNs := (clkevDelta2ns dev.minDeltaTicks dev false).2 } := by
  have hdev := (clkevDelta2ns_spec dev hmult hshift dev.minDeltaTicks false).1
  simp only [clkevSetMin, hdev]

theorem clkevSetMax_eq (dev : ClockEventDevice) (hmult : 0 < dev.mult.toNat)
    (hshift : dev.shift.toNat ≤ 32) :
    clkevSetMax dev
      = { dev with maxDeltaNs := (clkevDelta2ns dev.maxDeltaTicks dev true).2 } := by
  have hdev := (clkevDelta2ns_spec dev hmult hshift dev.maxDeltaTicks true).1
  simp only [clkevSetMax, hdev]

/-- **The configuration** of a device that starts with a multiplier and a shift of these ranges. -/
theorem configured_limits (hmin : dev.minDeltaTicks = 3) (hmax : dev.maxDeltaTicks = 0xffffffff)
    (hshift : dev.shift.toNat ≤ 32) (hpos : 0 < dev.mult.toNat)
    (hmult : dev.mult.toNat * 1000000000 ≤ freq.toNat * 2 ^ dev.shift.toNat + 500000000) :
    Configured freq (clkevSetMax (clkevSetMin dev)) := by
  have hpow : 1 ≤ 2 ^ dev.shift.toNat := Nat.one_le_two_pow
  have hpow' := two_pow_le_of_le hshift
  have hfive := mult_le_five_mul hpow hmult
  have hmultlt := dev.mult.toNat_lt
  obtain ⟨-, clc, -, hminNs, -, hclc⟩ := clkevDelta2ns_spec dev hpos hshift dev.minDeltaTicks false
  have hclc := hclc rfl (by rw [hmin]; decide)
  rw [hmin, show (3 : UInt32).toNat = 3 from rfl] at hclc
  rw [clkevSetMin_eq dev hpos hshift]
  generalize (clkevDelta2ns dev.minDeltaTicks dev false).2 = minNs at hminNs
  obtain ⟨-, clc', -, hmaxNs, hclc', -⟩ := clkevDelta2ns_spec
    { dev with minDeltaNs := minNs } hpos hshift dev.maxDeltaTicks true
  have hclc' := hclc' rfl
  rw [hmax, show (0xffffffff : UInt32).toNat = 4294967295 from rfl] at hclc'
  rw [clkevSetMax_eq { dev with minDeltaNs := minNs } hpos hshift]
  generalize (clkevDelta2ns dev.maxDeltaTicks { dev with minDeltaNs := minNs } true).2
    = maxNs at hmaxNs
  refine ⟨hshift, hpos, hmult, ?_, ?_, ?_, ?_, ?_⟩
  · show _ ≤ minNs.toNat * dev.mult.toNat
    rw [hminNs, hclc]
    exact le_limit_mul hpos
  · show minNs.toNat * dev.mult.toNat < _
    rw [hminNs]
    exact limit_mul_lt hfive (show clc < 4294967296 * 2 ^ dev.shift.toNat by omega)
  · show maxNs.toNat * dev.mult.toNat < _
    rw [hmaxNs]
    exact limit_mul_lt hfive (show clc' < 4294967296 * 2 ^ dev.shift.toNat by omega)
  · show 1000 ≤ minNs.toNat
    omega
  · show minNs.toNat < _
    have hquot : clc / dev.mult.toNat ≤ clc := Nat.div_le_self _ _
    omega

theorem mult_limits (hpos : 0 < dev.mult.toNat) (hshift : dev.shift.toNat ≤ 32) :
    (clkevSetMax (clkevSetMin dev)).mult = dev.mult := by
  rw [clkevSetMin_eq dev hpos hshift]
  generalize (clkevDelta2ns dev.minDeltaTicks dev false).2 = minNs
  rw [clkevSetMax_eq { dev with minDeltaNs := minNs } hpos hshift]

theorem configured_coreSchedStart (dev : ClockEventDevice) {rate : UInt32}
    (hrate : 1 ≤ rate.toNat) :
    Configured rate (coreSchedStart dev rate)
      ∧ (coreSchedStart dev rate).mult.toNat = (clkevSearch 0xffffffff rate).1.toNat := by
  obtain ⟨s, -, hs, hsearch, hpos, hlt⟩ := clkevSearch_spec hrate
  have hscaled := toNat_clkevScaled rate hs
  have hmult : (clkevScaled rate s).toUInt32.toNat = (clkevScaled rate s).toNat := by
    rw [toNat_toUInt32, Nat.mod_eq_of_lt hlt]
  have hshift : s.toUInt32.toNat = s := by
    show s % 4294967296 = s
    omega
  have hpos' : 0 < (clkevScaled rate s).toUInt32.toNat := by omega
  have hshift' : s.toUInt32.toNat ≤ 32 := by omega
  unfold coreSchedStart clkevConfigure
  simp only [hsearch]
  refine ⟨configured_limits rfl rfl hshift' hpos' ?_, ?_⟩
  · show (clkevScaled rate s).toUInt32.toNat * 1000000000 ≤ rate.toNat * 2 ^ s.toUInt32.toNat + _
    rw [hshift]
    omega
  · rw [mult_limits hpos' hshift']
    exact hmult

/-! ## Programming an event -/

theorem clkevProgramEvent_some (minDelta maxDelta : UInt64) {delta : UInt64} (h : 0 < delta.toNat) :
    ∃ d, clkevProgramEvent minDelta maxDelta delta = some d
      ∧ d.toNat = max (min delta.toNat maxDelta.toNat) minDelta.toNat := by
  have hpos : ¬ delta ≤ 0 := by
    rw [UInt64.le_iff_toNat_le]
    exact not_le.mpr h
  simp only [clkevProgramEvent, if_neg hpos, gt_iff_lt, UInt64.lt_iff_toNat_lt]
  refine ⟨_, rfl, ?_⟩
  split <;> split <;> omega

namespace Configured

variable {freq : UInt32} {dev : ClockEventDevice} (h : Configured freq dev)

include h

variable {delta : Nat}

/-- The product of a clamped delay and the multiplier, before it is shifted. -/
theorem product_range {d : UInt64}
    (hd : d.toNat = max (min delta dev.maxDeltaNs.toNat) dev.minDeltaNs.toNat) :
    3 * 2 ^ dev.shift.toNat ≤ d.toNat * dev.mult.toNat
      ∧ d.toNat * dev.mult.toNat < 4294967296 * 2 ^ dev.shift.toNat := by
  have hlower : dev.minDeltaNs.toNat * dev.mult.toNat ≤ d.toNat * dev.mult.toNat :=
    Nat.mul_le_mul_right _ (by omega)
  have hmin := h.min_cycles
  refine ⟨by omega, ?_⟩
  obtain hle | hle : d.toNat ≤ dev.maxDeltaNs.toNat ∨ d.toNat ≤ dev.minDeltaNs.toNat := by omega
  · exact lt_of_le_of_lt (Nat.mul_le_mul_right _ hle) h.max_lt
  · exact lt_of_le_of_lt (Nat.mul_le_mul_right _ hle) h.min_lt

/-- A cycle count is the product, shifted: the multiplication does not overflow. -/
theorem clc_spec {delta : UInt64} (hdelta : 1 ≤ delta.toNat) :
    ∃ d c, clkevProgramEvent dev.minDeltaNs dev.maxDeltaNs delta = some d
      ∧ d.toNat = max (min delta.toNat dev.maxDeltaNs.toNat) dev.minDeltaNs.toNat
      ∧ d.toNat * dev.mult.toNat < 18446744073709551616 ∧ dev.clc delta = some c
      ∧ c.toNat = d.toNat * dev.mult.toNat / 2 ^ dev.shift.toNat
      ∧ 3 ≤ c.toNat ∧ c.toNat ≤ 4294967295 := by
  obtain ⟨d, hprogram, hd⟩ := clkevProgramEvent_some dev.minDeltaNs dev.maxDeltaNs hdelta
  obtain ⟨hlower, hupper⟩ := h.product_range hd
  have hpow := two_pow_le_of_le h.shift_le
  have hshift : dev.shift.toUInt64.toNat = dev.shift.toNat := UInt32.toNat_toUInt64 _
  have hmult : dev.mult.toUInt64.toNat = dev.mult.toNat := UInt32.toNat_toUInt64 _
  have hroom : d.toNat * dev.mult.toNat < 18446744073709551616 := by omega
  have hclc : ((d * dev.mult.toUInt64) >>> dev.shift.toUInt64).toNat
      = d.toNat * dev.mult.toNat / 2 ^ dev.shift.toNat := by
    have hle := h.shift_le
    rw [toNat_shiftRight (by omega), toNat_mul_of_lt (by rw [hmult]; exact hroom), hmult, hshift]
  refine ⟨d, _, hprogram, hd, hroom, ?_, hclc, ?_, ?_⟩
  · unfold ClockEventDevice.clc
    rw [hprogram]
    rfl
  · rw [hclc]
    exact (Nat.le_div_iff_mul_le (Nat.two_pow_pos _)).2 hlower
  · rw [hclc]
    exact Nat.le_of_lt_succ ((Nat.div_lt_iff_lt_mul (Nat.two_pow_pos _)).2 hupper)

/-- The multiplier is too large by half a unit at most, which a delay is multiplied with. -/
theorem cycles_mul_le {c : Nat} (hc : c = delta * dev.mult.toNat / 2 ^ dev.shift.toNat) :
    c * 1000000000 * 2 ^ dev.shift.toNat
      ≤ delta * freq.toNat * 2 ^ dev.shift.toNat + delta * 500000000 := by
  have hshifted : c * 2 ^ dev.shift.toNat ≤ delta * dev.mult.toNat := by
    rw [hc]
    exact Nat.div_mul_le_self _ _
  calc c * 1000000000 * 2 ^ dev.shift.toNat
      = c * 2 ^ dev.shift.toNat * 1000000000 := Nat.mul_right_comm _ _ _
    _ ≤ delta * dev.mult.toNat * 1000000000 := Nat.mul_le_mul_right _ hshifted
    _ = delta * (dev.mult.toNat * 1000000000) := Nat.mul_assoc _ _ _
    _ ≤ delta * (freq.toNat * 2 ^ dev.shift.toNat + 500000000) := Nat.mul_le_mul_left _ h.mult_le
    _ = delta * freq.toNat * 2 ^ dev.shift.toNat + delta * 500000000 := by
      rw [Nat.mul_add, Nat.mul_assoc]

theorem cycles_le {c : Nat} (hc : c = delta * dev.mult.toNat / 2 ^ dev.shift.toNat) :
    (c : ℚ) ≤ delta * ((freq.toNat + 10 ^ 9 / 2 ^ (dev.shift.toNat + 1)) / 10 ^ 9) := by
  have hpow : (0 : ℚ) < 2 ^ dev.shift.toNat := by positivity
  have hq : (c : ℚ) * 1000000000 * 2 ^ dev.shift.toNat
      ≤ delta * freq.toNat * 2 ^ dev.shift.toNat + delta * 500000000 := by
    exact_mod_cast h.cycles_mul_le hc
  have hrate : (delta : ℚ) * ((freq.toNat + 10 ^ 9 / 2 ^ (dev.shift.toNat + 1)) / 10 ^ 9)
      = delta * (freq.toNat * 2 ^ dev.shift.toNat + 500000000)
        / (2 ^ dev.shift.toNat * 1000000000) := by
    rw [pow_succ]
    field_simp
    ring
  rw [hrate, le_div_iff₀ (by positivity)]
  linarith

end Configured

/-- The counter is started so that it overflows after the cycles. -/
theorem ClockEventDevice.loadStart_of_clc {delta c : UInt64} (hclc : dev.clc delta = some c)
    (hc : c.toNat ≤ 4294967295) :
    ∃ load, dev.loadStart delta = some load ∧ load.toNat = 0xffffffff - c.toNat := by
  have hword : c.toUInt32.toNat = c.toNat := by
    rw [toNat_toUInt32]
    exact Nat.mod_eq_of_lt (by omega)
  refine ⟨0xffffffff - c.toUInt32, ?_, ?_⟩
  · unfold ClockEventDevice.loadStart
    rw [hclc]
    rfl
  · rw [UInt32.toNat_sub_of_le _ _ (UInt32.le_iff_toNat_le.2 (hword ▸ hc)), hword]
    rfl

/-- **The scheduler timer stays within the counter.** At every frequency of 32 bits the multiplier
is positive and is stored as it was found, and every delay is turned into 3 to `0xffffffff` cycles
without an overflow; between the limits no more than half a unit of the multiplier is gained. -/
theorem clkev_within_counter (dev : ClockEventDevice) (freq : UInt32) (hfreq : 1 ≤ freq.toNat)
    (started : ClockEventDevice) (hstarted : coreSchedStart dev freq = started) :
    0 < started.mult.toNat ∧ started.mult.toNat = (clkevSearch 0xffffffff freq).1.toNat
      ∧ ∀ delta : UInt64, 1 ≤ delta.toNat →
        ∃ d c load, clkevProgramEvent started.minDeltaNs started.maxDeltaNs delta = some d
          ∧ d.toNat * started.mult.toNat < 2 ^ 64
          ∧ started.clc delta = some c
          ∧ c.toNat = d.toNat * started.mult.toNat / 2 ^ started.shift.toNat
          ∧ 3 ≤ c.toNat ∧ c.toNat ≤ 0xffffffff
          ∧ started.loadStart delta = some load ∧ load.toNat = 0xffffffff - c.toNat
          ∧ (started.minDeltaNs ≤ delta → delta ≤ started.maxDeltaNs →
            (c.toNat : ℚ) ≤ delta.toNat
              * ((freq.toNat + 10 ^ 9 / 2 ^ (started.shift.toNat + 1)) / 10 ^ 9)) := by
  subst hstarted
  obtain ⟨hconf, hmult⟩ := configured_coreSchedStart dev hfreq
  refine ⟨hconf.mult_pos, hmult, ?_⟩
  intro delta hdelta
  obtain ⟨d, c, hprogram, hd, hroom, hclc, hc, hlower, hupper⟩ := hconf.clc_spec hdelta
  obtain ⟨load, hstart, hload⟩ := ClockEventDevice.loadStart_of_clc hclc hupper
  refine ⟨d, c, load, hprogram, hroom, hclc, hc, hlower, hupper, hstart, hload, ?_⟩
  intro hmin hmax
  have hsame : d.toNat = delta.toNat := by
    rw [UInt64.le_iff_toNat_le] at hmin hmax
    omega
  rw [hsame] at hc
  exact hconf.cycles_le hc

/-- The device as it is started for the 24 MHz of the chip's oscillator. -/
def oscDevice : ClockEventDevice where
  mult := 51539608
  shift := 31
  minDeltaTicks := 3
  maxDeltaTicks := 0xffffffff
  minDeltaNs := 1000
  maxDeltaNs := 178956969070

/-- The counter spans 178 seconds, which leaves 26 bits for the multiplier. -/
theorem clkevSftacc_osc : clkevSftacc 41 32 = 26 := by
  rw [clkevSftacc, dif_neg (by decide), clkevSftacc, dif_neg (by decide), clkevSftacc,
    dif_neg (by decide), clkevSftacc, dif_neg (by decide), clkevSftacc, dif_neg (by decide),
    clkevSftacc, dif_neg (by decide), clkevSftacc, dif_pos (by decide)]
  decide

theorem clkevSearch_osc : clkevSearch 0xffffffff 24000000 = (51539608, 31) := by
  have hacc : clkevSftacc (((0xffffffff : UInt32).toUInt64 / (24000000 : UInt32).toUInt64
      * 1000000000) >>> 32) 32 = 26 := clkevSftacc_osc
  have hsec : ¬ (0xffffffff : UInt32).toUInt64 / (24000000 : UInt32).toUInt64 = 0 := by decide
  unfold clkevSearch
  simp only [hsec, if_false]
  rw [if_neg (by decide), hacc]
  decide

theorem coreSchedStart_osc : coreSchedStart ⟨0, 0, 0, 0, 0, 0⟩ 24000000 = oscDevice := by
  unfold coreSchedStart clkevConfigure
  simp only [clkevSearch_osc]
  decide

theorem oscRate_pos : 1 ≤ (24000000 : UInt32).toNat := by decide

theorem oscDevice_configured : Configured 24000000 oscDevice :=
  coreSchedStart_osc ▸ (configured_coreSchedStart _ oscRate_pos).1

/-- The 24 MHz of the chip's oscillator. -/
theorem clkev_within_counter_osc :
    ∃ c, (coreSchedStart ⟨0, 0, 0, 0, 0, 0⟩ 24000000).clc 1 = some c ∧ 3 ≤ c.toNat := by
  obtain ⟨-, -, hprogram⟩ := clkev_within_counter ⟨0, 0, 0, 0, 0, 0⟩ 24000000 (by decide) _ rfl
  obtain ⟨-, c, -, -, -, hclc, -, hlower, -⟩ := hprogram 1 (by decide)
  exact ⟨c, hclc, hlower⟩

end Qot
