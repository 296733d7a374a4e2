import QotStack.Types.Time

/-!
# QotStack — scalars in every unit (`qot_types.h`)

The header casts time points and lengths to and from scalars in seven units, from seconds to
attoseconds. Each cast is a macro that gives the two factors of its unit to one of four functions:
`scalar_to_timepoint`, `scalar_to_timelength`, `TP_TO_GEN` and `TL_TO_GEN`. The nanosecond casts are
in `Types.Time`, as most of the stack needs no others.

The two factors of a unit make up a second in attoseconds (`TimeUnit.factors`), and that is all the
proofs use. `scalars_round_trip` has the seven units together.
-/

namespace Qot

open MachineInt

def secPerSec : UInt64 := 1

def mSecPerSec : UInt64 := 1000

def fSecPerSec : UInt64 := 1000000000000000

/-! ## Lengths -/

def tlFromSec (t : UInt64) : Timelength := scalarToTimelength t secPerSec aSecPerSec

def tlFromMsec (t : UInt64) : Timelength := scalarToTimelength t mSecPerSec fSecPerSec

def tlFromPsec (t : UInt64) : Timelength := scalarToTimelength t pSecPerSec uSecPerSec

def tlFromFsec (t : UInt64) : Timelength := scalarToTimelength t fSecPerSec mSecPerSec

def tlFromAsec (t : UInt64) : Timelength := scalarToTimelength t aSecPerSec secPerSec

def tlToGen (d : Timelength) (f1 f2 : UInt64) : UInt64 := d.sec * f1 + d.asec / f2

def tlToSec (d : Timelength) : UInt64 := tlToGen d secPerSec aSecPerSec

def tlToMsec (d : Timelength) : UInt64 := tlToGen d mSecPerSec fSecPerSec

def tlToUsec (d : Timelength) : UInt64 := tlToGen d uSecPerSec pSecPerSec

def tlToPsec (d : Timelength) : UInt64 := tlToGen d pSecPerSec uSecPerSec

def tlToFsec (d : Timelength) : UInt64 := tlToGen d fSecPerSec mSecPerSec

def tlToAsec (d : Timelength) : UInt64 := tlToGen d aSecPerSec secPerSec

/-! ## Points -/

def tpFromSec (t : Int64) : Timepoint := scalarToTimepoint t secPerSec aSecPerSec

def tpFromMsec (t : Int64) : Timepoint := scalarToTimepoint t mSecPerSec fSecPerSec

def tpFromUsec (t : Int64) : Timepoint := scalarToTimepoint t uSecPerSec pSecPerSec

def tpFromPsec (t : Int64) : Timepoint := scalarToTimepoint t pSecPerSec uSecPerSec

def tpFromFsec (t : Int64) : Timepoint := scalarToTimepoint t fSecPerSec mSecPerSec

def tpFromAsec (t : Int64) : Timepoint := scalarToTimepoint t aSecPerSec secPerSec

/-- Computed in unsigned words and assigned to a signed one. -/
def tpToGen (d : Timepoint) (f1 f2 : UInt64) : Int64 :=
  (d.sec.toUInt64 * f1 + d.asec / f2).toInt64

def tpToSec (d : Timepoint) : Int64 := tpToGen d secPerSec aSecPerSec

def tpToMsec (d : Timepoint) : Int64 := tpToGen d mSecPerSec fSecPerSec

def tpToUsec (d : Timepoint) : Int64 := tpToGen d uSecPerSec pSecPerSec

def tpToPsec (d : Timepoint) : Int64 := tpToGen d pSecPerSec uSecPerSec

def tpToFsec (d : Timepoint) : Int64 := tpToGen d fSecPerSec mSecPerSec

def tpToAsec (d : Timepoint) : Int64 := tpToGen d aSecPerSec secPerSec

/-! ## The units -/

inductive TimeUnit where
  | sec
  | msec
  | usec
  | nsec
  | psec
  | fsec
  | asec
  deriving DecidableEq, Repr

namespace TimeUnit

def perSec : TimeUnit → UInt64
  | sec => secPerSec
  | msec => mSecPerSec
  | usec => uSecPerSec
  | nsec => nSecPerSec
  | psec => pSecPerSec
  | fsec => fSecPerSec
  | asec => aSecPerSec

/-- The attoseconds in a unit. -/
def asecs : TimeUnit → UInt64
  | sec => aSecPerSec
  | msec => fSecPerSec
  | usec => pSecPerSec
  | nsec => nSecPerSec
  | psec => uSecPerSec
  | fsec => mSecPerSec
  | asec => secPerSec

def tlFrom : TimeUnit → UInt64 → Timelength
  | sec => tlFromSec
  | msec => tlFromMsec
  | usec => tlFromUsec
  | nsec => tlFromNsec
  | psec => tlFromPsec
  | fsec => tlFromFsec
  | asec => tlFromAsec

def tlTo : TimeUnit → Timelength → UInt64
  | sec => tlToSec
  | msec => tlToMsec
  | usec => tlToUsec
  | nsec => tlToNsec
  | psec => tlToPsec
  | fsec => tlToFsec
  | asec => tlToAsec

def tpFrom : TimeUnit → Int64 → Timepoint
  | sec => tpFromSec
  | msec => tpFromMsec
  | usec => tpFromUsec
  | nsec => tpFromNsec
  | psec => tpFromPsec
  | fsec => tpFromFsec
  | asec => tpFromAsec

def tpTo : TimeUnit → Timepoint → Int64
  | sec => tpToSec
  | msec => tpToMsec
  | usec => tpToUsec
  | nsec => tpToNsec
  | psec => tpToPsec
  | fsec => tpToFsec
  | asec => tpToAsec

section
variable (unit : TimeUnit)
include unit

theorem tlFrom_eq (t : UInt64) : unit.tlFrom t = scalarToTimelength t unit.perSec unit.asecs := by
  cases unit <;> rfl

theorem tlTo_eq (d : Timelength) : unit.tlTo d = tlToGen d unit.perSec unit.asecs := by
  cases unit <;> rfl

theorem tpFrom_eq (t : Int64) : unit.tpFrom t = scalarToTimepoint t unit.perSec unit.asecs := by
  cases unit <;> rfl

theorem tpTo_eq (d : Timepoint) : unit.tpTo d = tpToGen d unit.perSec unit.asecs := by
  cases unit <;> rfl

/-- The units of a second, and the attoseconds of a unit. -/
theorem factors : unit.perSec.toNat * unit.asecs.toNat = 1000000000000000000 := by
  cases unit <;> rfl

end

end TimeUnit

/-! ## From a scalar -/

section From

variable {dv ml : UInt64} (hunit : dv.toNat * ml.toNat = 1000000000000000000)

include hunit

theorem scalarToTimelength_normalised (t : UInt64) : (scalarToTimelength t dv ml).Normalised := by
  unfold Timelength.Normalised
  rw [(scalarToTimelength_fields hunit t).2]
  exact rest_mul_lt hunit t.toNat

theorem scalarToTimelength_value (t : UInt64) :
    (scalarToTimelength t dv ml).value = t.toNat * ml.toNat := by
  obtain ⟨hsec, hasec⟩ := scalarToTimelength_fields hunit t
  unfold Timelength.value
  rw [hsec, hasec]
  norm_cast
  calc t.toNat / dv.toNat * 1000000000000000000 + t.toNat % dv.toNat * ml.toNat
      = (dv.toNat * (t.toNat / dv.toNat) + t.toNat % dv.toNat) * ml.toNat := by rw [← hunit]; ring
    _ = t.toNat * ml.toNat := by rw [Nat.div_add_mod]

variable {t : Int64} (hroom : t.toInt.natAbs / dv.toNat < 9223372036854775808)

include hroom

theorem scalarToTimepoint_normalised : (scalarToTimepoint t dv ml).Normalised := by
  obtain ⟨hdv, -⟩ := factors_pos hunit
  have hasec := (scalarToTimepoint_fields hunit t hroom).2
  have hnonneg : 0 ≤ t.toInt % dv.toNat := Int.emod_nonneg _ (by omega)
  have hlt : t.toInt % dv.toNat < dv.toNat := Int.emod_lt_of_pos _ (by omega)
  obtain ⟨r, hr⟩ := Int.eq_ofNat_of_zero_le hnonneg
  rw [hr] at hasec hlt
  have hrest := rest_mul_lt hunit r
  rw [Nat.mod_eq_of_lt (by exact_mod_cast hlt)] at hrest
  have hasec' : (scalarToTimepoint t dv ml).asec.toNat = r * ml.toNat := by exact_mod_cast hasec
  unfold Timepoint.Normalised
  rw [hasec']
  exact hrest

theorem scalarToTimepoint_value : (scalarToTimepoint t dv ml).value = t.toInt * ml.toNat := by
  obtain ⟨hsec, hasec⟩ := scalarToTimepoint_fields hunit t hroom
  have hunit' : (dv.toNat : Int) * ml.toNat = 1000000000000000000 := by exact_mod_cast hunit
  unfold Timepoint.value
  rw [hsec, hasec]
  calc t.toInt / dv.toNat * 1000000000000000000 + t.toInt % dv.toNat * ml.toNat
      = (dv.toNat * (t.toInt / dv.toNat) + t.toInt % dv.toNat) * ml.toNat := by rw [← hunit']; ring
    _ = t.toInt * ml.toNat := by rw [Int.mul_ediv_add_emod]

end From

/-! ## To a scalar -/

theorem toNat_tlToGen (d : Timelength) (f1 f2 : UInt64) :
    (tlToGen d f1 f2).toNat
      = (d.sec.toNat * f1.toNat + d.asec.toNat / f2.toNat) % 18446744073709551616 := by
  unfold tlToGen
  rw [UInt64.toNat_add, UInt64.toNat_mul, UInt64.toNat_div]
  exact Nat.mod_add_mod _ _ _

/-- The seconds are multiplied as an unsigned word, which their sign survives. -/
theorem toInt_tpToGen (d : Timepoint) (f1 f2 : UInt64) :
    (tpToGen d f1 f2).toInt
      = wrap64 (d.sec.toInt * f1.toNat + (d.asec.toNat / f2.toNat : Nat)) := by
  unfold tpToGen
  rw [toInt_toInt64]
  apply wrap64_congr
  rw [UInt64.toNat_add, UInt64.toNat_mul, UInt64.toNat_div]
  push_cast
  rw [toNat_toUInt64]
  simp only [Int.add_emod, Int.mul_emod, Int.emod_emod_of_dvd, dvd_refl]

section To

variable {f1 f2 : UInt64} (hunit : f1.toNat * f2.toNat = 1000000000000000000)

include hunit

/-- Whole seconds are whole units, so that dividing the fraction alone rounds the value down. -/
theorem fields_ediv (sec : Int) (asec : Nat) :
    (sec * 1000000000000000000 + asec) / f2.toNat = sec * f1.toNat + (asec / f2.toNat : Nat) := by
  have hpos := (factors_pos hunit).2
  have hunit' : (f1.toNat : Int) * f2.toNat = 1000000000000000000 := by exact_mod_cast hunit
  have hsec : sec * 1000000000000000000 = sec * f1.toNat * f2.toNat := by rw [← hunit']; ring
  rw [hsec, Int.add_comm, Int.add_mul_ediv_right _ _ (by omega)]
  push_cast
  ring

theorem tlToGen_floor {d : Timelength} (hroom : d.value / f2.toNat < 18446744073709551616) :
    ((tlToGen d f1 f2).toNat : Int) = d.value / f2.toNat := by
  unfold Timelength.value at hroom ⊢
  rw [fields_ediv hunit] at hroom ⊢
  rw [toNat_tlToGen, Nat.mod_eq_of_lt (by exact_mod_cast hroom)]
  push_cast
  rfl

theorem tpToGen_floor {d : Timepoint} (hroom : Fits64 (d.value / f2.toNat)) :
    (tpToGen d f1 f2).toInt = d.value / f2.toNat := by
  unfold Timepoint.value at hroom ⊢
  rw [fields_ediv hunit] at hroom ⊢
  rw [toInt_tpToGen, wrap64_of_fits hroom]

end To

/-! ## Round trips -/

namespace TimeUnit

section
variable (unit : TimeUnit)
include unit

/-- The magnitude of every signed word but the least has room for its sign in any unit. -/
theorem magnitude_div_lt {t : Int64} (ht : -9223372036854775808 < t.toInt) :
    t.toInt.natAbs / unit.perSec.toNat < 9223372036854775808 := by
  have hfits := fits_toInt t
  exact Nat.lt_of_le_of_lt (Nat.div_le_self _ _) (by omega)

theorem tpTo_floor {d : Timepoint} (h : Fits64 (d.value / unit.asecs.toNat)) :
    (unit.tpTo d).toInt = d.value / unit.asecs.toNat := by
  rw [tpTo_eq]
  exact tpToGen_floor unit.factors h

theorem tlTo_floor {d : Timelength} (h : d.value / unit.asecs.toNat < 18446744073709551616) :
    ((unit.tlTo d).toNat : Int) = d.value / unit.asecs.toNat := by
  rw [tlTo_eq]
  exact tlToGen_floor unit.factors h

/-- A value of whole units, divided by the unit. -/
theorem units_ediv (n : Int) : n * unit.asecs.toNat / unit.asecs.toNat = n := by
  have hpos := (factors_pos unit.factors).2
  exact Int.mul_ediv_cancel n (by omega)

/-- A point made of a scalar is normalised, is worth that many units, and gives the scalar back. -/
theorem tpFrom_spec {t : Int64} (ht : -9223372036854775808 < t.toInt) :
    (unit.tpFrom t).Normalised ∧ (unit.tpFrom t).value = t.toInt * unit.asecs.toNat
      ∧ unit.tpTo (unit.tpFrom t) = t := by
  have hroom := unit.magnitude_div_lt ht
  have hvalue : (unit.tpFrom t).value = t.toInt * unit.asecs.toNat := by
    rw [tpFrom_eq]
    exact scalarToTimepoint_value unit.factors hroom
  have hfloor : (unit.tpFrom t).value / unit.asecs.toNat = t.toInt := by
    rw [hvalue, unit.units_ediv]
  refine ⟨?_, hvalue, ?_⟩
  · rw [tpFrom_eq]
    exact scalarToTimepoint_normalised unit.factors hroom
  · apply Int64.toInt_inj.1
    rw [unit.tpTo_floor (hfloor ▸ fits_toInt t), hfloor]

theorem tlFrom_spec (t : UInt64) :
    (unit.tlFrom t).Normalised ∧ (unit.tlFrom t).value = t.toNat * unit.asecs.toNat
      ∧ unit.tlTo (unit.tlFrom t) = t := by
  have hvalue : (unit.tlFrom t).value = t.toNat * unit.asecs.toNat := by
    rw [tlFrom_eq]
    exact scalarToTimelength_value unit.factors t
  have hfloor : (unit.tlFrom t).value / unit.asecs.toNat = t.toNat := by
    rw [hvalue, unit.units_ediv]
  refine ⟨?_, hvalue, ?_⟩
  · rw [tlFrom_eq]
    exact scalarToTimelength_normalised unit.factors t
  · have hlt := toNat_lt t
    have hback := unit.tlTo_floor (d := unit.tlFrom t) (by omega)
    apply UInt64.toNat_inj.1
    omega

end

end TimeUnit

/-- In every unit: a scalar makes a normalised point or length of that many units and is got back
from it, and a normalised point or length casts to its value rounded down to the unit, whatever its
sign, when that has room in a word. -/
theorem scalars_round_trip (unit : TimeUnit) :
    (∀ t : Int64, Int64.minValue < t →
        (unit.tpFrom t).Normalised ∧ (unit.tpFrom t).value = t.toInt * unit.asecs.toNat
          ∧ unit.tpTo (unit.tpFrom t) = t)
      ∧ (∀ t : UInt64,
        (unit.tlFrom t).Normalised ∧ (unit.tlFrom t).value = t.toNat * unit.asecs.toNat
          ∧ unit.tlTo (unit.tlFrom t) = t)
      ∧ (∀ d : Timepoint, d.Normalised → Fits64 (d.value / unit.asecs.toNat) →
        (unit.tpTo d).toInt = d.value / unit.asecs.toNat)
      ∧ ∀ d : Timelength, d.Normalised → d.value / unit.asecs.toNat < 18446744073709551616 →
        ((unit.tlTo d).toNat : Int) = d.value / unit.asecs.toNat := by
  refine ⟨?_, unit.tlFrom_spec, ?_, ?_⟩
  · intro t ht
    exact unit.tpFrom_spec (Int64.lt_iff_toInt_lt.1 ht)
  · intro d _ hfits
    exact unit.tpTo_floor hfits
  · intro d _ hroom
    exact unit.tlTo_floor hroom

/-- Minus 1.5 s in milliseconds: a second is borrowed, and the cast takes it back. -/
theorem scalars_round_trip_msec : tpFromMsec (-1500) = { sec := -2, asec := 500000000000000000 }
      ∧ tpToMsec (tpFromMsec (-1500)) = -1500 :=
  ⟨by decide, ((scalars_round_trip .msec).1 (-1500) (by decide)).2.2⟩

end Qot
