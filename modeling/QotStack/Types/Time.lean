import QotStack.Lib.MachineInt

/-!
# QotStack — time points and lengths (`qot_types.h`)

The stack carries time as a signed count of seconds plus an unsigned count of attoseconds.
This module embeds the two record types, their arithmetic and comparisons, and the casts to and
from scalars, in the machine widths the header declares.

Two readings of a record are used everywhere above:

* `value` — the attoseconds it denotes. Addition and subtraction are exact on it as long as the
  records are normalised (`Normalised`: the fractional field is below one second).
* `Timepoint.rank` — the single integer that orders records the way `timepoint_cmp` does, field
  by field. On normalised records it agrees with `value`; on others it need not.

A cast from a scalar is a floor and a remainder whatever the unit (`scalarToTimepoint_fields`). The
nanosecond casts get one spec lemma each (`tpFromNsec_sec`, `tpFromNsec_asec`, `toInt_tpToNsec`),
and no later module unfolds them.
-/

namespace Qot

open MachineInt

def aSecPerSec : UInt64 := 1000000000000000000

/-- Nanoseconds in a second (`nSEC_PER_SEC`), also attoseconds in a nanosecond. -/
def nSecPerSec : UInt64 := 1000000000

def uSecPerSec : UInt64 := 1000000

/-- Attoseconds in a microsecond (`pSEC_PER_SEC`). -/
def pSecPerSec : UInt64 := 1000000000000

/-! ## Lengths of time -/

/-- An absolute length of time. -/
structure Timelength where
  sec : UInt64
  asec : UInt64
  deriving DecidableEq, Repr

def scalarToTimelength (t dv ml : UInt64) : Timelength :=
  if t = 0 ∨ dv = 0 ∨ ml = 0 then ⟨0, 0⟩
  else
    let sec := t / dv
    ⟨sec, (t - dv * sec) * ml⟩

def timelengthAdd (l1 l2 : Timelength) : Timelength :=
  let asec := l1.asec + l2.asec
  let sec := l1.sec + l2.sec
  let tm := asec / aSecPerSec
  ⟨sec + tm, asec - tm * aSecPerSec⟩

/-- Compare two timelengths. The header's comment reads `l1 < l2 => -1`; the code returns `1`. -/
def timelengthCmp (l1 l2 : Timelength) : Int :=
  if l1.sec > l2.sec then -1
  else if l1.sec < l2.sec then 1
  else if l1.asec > l2.asec then -1
  else if l1.asec < l2.asec then 1
  else 0

def tlFromUsec (t : UInt64) : Timelength := scalarToTimelength t uSecPerSec pSecPerSec

def tlFromNsec (t : UInt64) : Timelength := scalarToTimelength t nSecPerSec nSecPerSec

def tlToNsec (d : Timelength) : UInt64 := d.sec * nSecPerSec + d.asec / nSecPerSec

/-! ## Points in time -/

/-- A single point in time with respect to some reference. -/
structure Timepoint where
  sec : Int64
  asec : UInt64
  deriving DecidableEq, Repr

def scalarToTimepoint (t : Int64) (dv ml : UInt64) : Timepoint :=
  if t = 0 ∨ dv = 0 ∨ ml = 0 then ⟨0, 0⟩
  else
    let tm : UInt64 := if t > 0 then t.toUInt64 else (-1 * t).toUInt64
    let sec : Int64 := (tm / dv).toInt64
    let asec : UInt64 := (tm - dv * sec.toUInt64) * ml
    if t < 0 then
      -- the definition of time stays `T = +/-sec + asec`
      if asec ≠ 0 then ⟨-sec - 1, aSecPerSec - asec⟩ else ⟨-sec, asec⟩
    else ⟨sec, asec⟩

def timepointAdd (t : Timepoint) (v : Timelength) : Timepoint :=
  let asec := t.asec + v.asec
  let sec := t.sec + v.sec.toInt64
  let tm := asec / aSecPerSec
  ⟨sec + tm.toInt64, asec - tm * aSecPerSec⟩

def timepointSub (t : Timepoint) (v : Timelength) : Timepoint :=
  let sec := t.sec - v.sec.toInt64
  if t.asec < v.asec then ⟨sec - 1, aSecPerSec - (v.asec - t.asec)⟩
  else ⟨sec, t.asec - v.asec⟩

/-- Compare two timepoints: `t1 > t2 => -1`, `t1 < t2 => 1`, else `0`. -/
def timepointCmp (t1 t2 : Timepoint) : Int :=
  if t1.sec > t2.sec then -1
  else if t1.sec < t2.sec then 1
  else if t1.asec > t2.asec then -1
  else if t1.asec < t2.asec then 1
  else 0

def tpFromNsec (t : Int64) : Timepoint := scalarToTimepoint t nSecPerSec nSecPerSec

/-- The nanosecond cast is computed in unsigned words and assigned to a signed one. -/
def tpToNsec (d : Timepoint) : Int64 :=
  (d.sec.toUInt64 * nSecPerSec + d.asec / nSecPerSec).toInt64

/-- A time as PTP clocks report and take it. -/
structure PtpClockTime where
  sec : Int64
  nsec : UInt32
  deriving DecidableEq, Repr

/-! ## What a record denotes -/

/-- The length in attoseconds. -/
def Timelength.value (l : Timelength) : Int := l.sec.toNat * 1000000000000000000 + l.asec.toNat

theorem Timelength.value_nonneg (l : Timelength) : 0 ≤ l.value := by
  unfold Timelength.value
  omega

/-- The point in attoseconds from the reference. -/
def Timepoint.value (t : Timepoint) : Int := t.sec.toInt * 1000000000000000000 + t.asec.toNat

/-- The fractional field is a proper fraction of a second. -/
abbrev Timelength.Normalised (l : Timelength) : Prop := l.asec.toNat < 1000000000000000000

abbrev Timepoint.Normalised (t : Timepoint) : Prop := t.asec.toNat < 1000000000000000000

/-- The integer that orders lengths as `timelengthCmp` does. -/
def Timelength.rank (l : Timelength) : Int := l.sec.toNat * 18446744073709551616 + l.asec.toNat

/-- The integer that orders points as `timepointCmp` does. -/
def Timepoint.rank (t : Timepoint) : Int := t.sec.toInt * 18446744073709551616 + t.asec.toNat

/-! ## Comparisons -/

theorem timepointCmp_cases (t1 t2 : Timepoint) :
    (timepointCmp t1 t2 = 1 ∧ t1.rank < t2.rank) ∨ (timepointCmp t1 t2 = 0 ∧ t1 = t2)
      ∨ (timepointCmp t1 t2 = -1 ∧ t2.rank < t1.rank) := by
  have h1 := toNat_lt t1.asec
  have h2 := toNat_lt t2.asec
  unfold timepointCmp Timepoint.rank
  simp only [gt_iff_lt, Int64.lt_iff_toInt_lt, UInt64.lt_iff_toNat_lt]
  split
  · exact Or.inr (Or.inr ⟨rfl, by omega⟩)
  split
  · exact Or.inl ⟨rfl, by omega⟩
  split
  · exact Or.inr (Or.inr ⟨rfl, by omega⟩)
  split
  · exact Or.inl ⟨rfl, by omega⟩
  · refine Or.inr (Or.inl ⟨rfl, ?_⟩)
    have hsec : t1.sec = t2.sec := Int64.toInt_inj.mp (by omega)
    have hasec : t1.asec = t2.asec := UInt64.toNat_inj.mp (by omega)
    cases t1; cases t2; simp_all

/-- `timepointCmp t1 t2 > 0` is how the sources ask "is `t1` earlier than `t2`". -/
theorem timepointCmp_pos (t1 t2 : Timepoint) : timepointCmp t1 t2 > 0 ↔ t1.rank < t2.rank := by
  rcases timepointCmp_cases t1 t2 with ⟨h, hr⟩ | ⟨h, rfl⟩ | ⟨h, hr⟩ <;> rw [h] <;> constructor <;>
    intro _ <;> omega

theorem timepointCmp_neg (t1 t2 : Timepoint) : timepointCmp t1 t2 < 0 ↔ t2.rank < t1.rank := by
  rcases timepointCmp_cases t1 t2 with ⟨h, hr⟩ | ⟨h, rfl⟩ | ⟨h, hr⟩ <;> rw [h] <;> constructor <;>
    intro _ <;> omega

theorem Timelength.rank_inj {l1 l2 : Timelength} (h : l1.rank = l2.rank) : l1 = l2 := by
  have h1 := toNat_lt l1.asec
  have h2 := toNat_lt l2.asec
  unfold Timelength.rank at h
  have hsec : l1.sec = l2.sec := UInt64.toNat_inj.mp (by omega)
  have hasec : l1.asec = l2.asec := UInt64.toNat_inj.mp (by omega)
  cases l1; cases l2; simp_all

/-- `timelengthCmp` is zero exactly on equal lengths; otherwise its sign follows the rank. -/
theorem timelengthCmp_eq_zero (l1 l2 : Timelength) : timelengthCmp l1 l2 = 0 ↔ l1 = l2 := by
  constructor
  · intro h
    apply Timelength.rank_inj
    unfold timelengthCmp at h
    simp only [gt_iff_lt, UInt64.lt_iff_toNat_lt] at h
    unfold Timelength.rank
    split_ifs at h <;> omega
  · rintro rfl
    simp [timelengthCmp]

/-- On normalised points the field-by-field order is the order of the values. -/
theorem Timepoint.rank_lt_iff_value_lt {t1 t2 : Timepoint} (h1 : t1.Normalised)
    (h2 : t2.Normalised) : t1.rank < t2.rank ↔ t1.value < t2.value := by
  unfold Timepoint.rank Timepoint.value
  constructor <;> intro h <;> omega

/-! ## Scalars

A unit is given by two factors: `dv` units are a second, and a unit is `ml` attoseconds. Both casts
go through an unsigned magnitude; the helpers below evaluate the machine expressions once. -/

section Negated

variable {n d : Nat} (hd : 0 < d)

include hd

theorem neg_divided_exactly (h : n % d = 0) :
    -(n : Int) / d = -((n / d : Nat) : Int) ∧ -(n : Int) % d = 0 := by
  have hn : (n : Int) = d * (n / d : Nat) := by
    exact_mod_cast (Nat.mul_div_cancel' (Nat.dvd_of_mod_eq_zero h)).symm
  apply (Int.ediv_emod_unique (by omega)).2
  refine ⟨?_, le_refl 0, by omega⟩
  rw [hn]
  ring

theorem neg_divided_with_rest (h : n % d ≠ 0) :
    -(n : Int) / d = -((n / d : Nat) : Int) - 1 ∧ -(n : Int) % d = d - (n % d : Nat) := by
  have hn : (n : Int) = d * (n / d : Nat) + (n % d : Nat) := by
    exact_mod_cast (Nat.div_add_mod n d).symm
  have hlt := Nat.mod_lt n hd
  apply (Int.ediv_emod_unique (by omega)).2
  refine ⟨?_, by omega, by omega⟩
  generalize n / d = q at hn ⊢
  generalize n % d = r at hn ⊢
  rw [hn]
  ring

end Negated

section Scalar

variable {dv ml tm : UInt64}

theorem toInt_magnitude_sec (h : tm.toNat / dv.toNat < 9223372036854775808) :
    (tm / dv).toInt64.toInt = (tm.toNat / dv.toNat : Nat) := by
  rw [toInt_toInt64, UInt64.toNat_div]
  generalize tm.toNat / dv.toNat = q at h
  exact wrap64_of_fits (by omega)

section
variable (hunit : dv.toNat * ml.toNat = 1000000000000000000)
include hunit

theorem factors_pos : 0 < dv.toNat ∧ 0 < ml.toNat := by
  constructor
  · apply Nat.pos_of_ne_zero
    intro h
    rw [h, Nat.zero_mul] at hunit
    omega
  · apply Nat.pos_of_ne_zero
    intro h
    rw [h, Nat.mul_zero] at hunit
    omega

/-- A proper fraction of a second, in attoseconds. -/
theorem rest_mul_lt (n : Nat) : n % dv.toNat * ml.toNat < 1000000000000000000 := by
  obtain ⟨hdv, hml⟩ := factors_pos hunit
  rw [← hunit]
  exact Nat.mul_lt_mul_of_pos_right (Nat.mod_lt n hdv) hml

theorem toNat_rest_asec (tm : UInt64) :
    ((tm - dv * (tm / dv)) * ml).toNat = tm.toNat % dv.toNat * ml.toNat := by
  have hlt := toNat_lt tm
  have hsum := Nat.div_add_mod tm.toNat dv.toNat
  have hsmall := rest_mul_lt hunit tm.toNat
  have hprod : (dv * (tm / dv)).toNat = dv.toNat * (tm.toNat / dv.toNat) := by
    rw [UInt64.toNat_mul, UInt64.toNat_div]
    exact Nat.mod_eq_of_lt (by omega)
  have hrest : (tm - dv * (tm / dv)).toNat = tm.toNat % dv.toNat := by
    rw [UInt64.toNat_sub, hprod]
    omega
  rw [UInt64.toNat_mul, hrest]
  exact Nat.mod_eq_of_lt (by omega)

/-- Negating a magnitude of `n` units: a fraction borrows a second. -/
theorem negated_magnitude_fields {S : Int64} {A : UInt64} {n : Nat}
    (hS : S.toInt = (n / dv.toNat : Nat)) (hA : A.toNat = n % dv.toNat * ml.toNat) :
    (if A ≠ 0 then (⟨-S - 1, aSecPerSec - A⟩ : Timepoint) else ⟨-S, A⟩).sec.toInt
        = -(n : Int) / dv.toNat
      ∧ ((if A ≠ 0 then (⟨-S - 1, aSecPerSec - A⟩ : Timepoint) else ⟨-S, A⟩).asec.toNat : Int)
        = -(n : Int) % dv.toNat * ml.toNat := by
  obtain ⟨hdv, hml⟩ := factors_pos hunit
  have hfit := fits_toInt S
  have hnonneg : 0 ≤ S.toInt := hS ▸ Int.natCast_nonneg _
  have hr : A = 0 ↔ n % dv.toNat = 0 := by
    rw [← UInt64.toNat_inj, hA]
    show n % dv.toNat * ml.toNat = 0 ↔ n % dv.toNat = 0
    rw [Nat.mul_eq_zero, or_iff_left hml.ne']
  by_cases hzero : n % dv.toNat = 0
  · obtain ⟨hdiv, hmod⟩ := neg_divided_exactly hdv hzero
    rw [if_neg (not_not.2 (hr.2 hzero)), hdiv, hmod, hA, hzero, ← hS]
    refine ⟨?_, by simp⟩
    show (-S).toInt = -S.toInt
    rw [toInt_neg_eq]
    exact wrap64_of_fits (by omega)
  · obtain ⟨hdiv, hmod⟩ := neg_divided_with_rest hdv hzero
    rw [if_pos (mt hr.1 hzero), hdiv, hmod, ← hS]
    constructor
    · show (-S - 1).toInt = -S.toInt - 1
      rw [toInt_sub_eq, toInt_neg_eq, Int64.toInt_one]
      unfold wrap64
      omega
    · have hle : A.toNat ≤ 1000000000000000000 := by
        rw [hA, ← hunit]
        exact Nat.mul_le_mul_right _ (Nat.mod_lt n hdv).le
      have hrest : (aSecPerSec - A).toNat = 1000000000000000000 - A.toNat := by
        rw [UInt64.toNat_sub, show aSecPerSec.toNat = 1000000000000000000 from rfl]
        omega
      have hunit' : (dv.toNat : Int) * ml.toNat = 1000000000000000000 := by exact_mod_cast hunit
      show ((aSecPerSec - A).toNat : Int) = _
      rw [hrest, Nat.cast_sub hle, hA, sub_mul, hunit']
      push_cast
      rfl

/-- Both fields of a scalar at once: floor and remainder, also below zero. -/
theorem scalarToTimepoint_fields (t : Int64)
    (hroom : t.toInt.natAbs / dv.toNat < 9223372036854775808) :
    (scalarToTimepoint t dv ml).sec.toInt = t.toInt / dv.toNat
      ∧ ((scalarToTimepoint t dv ml).asec.toNat : Int) = t.toInt % dv.toNat * ml.toNat := by
  obtain ⟨hdv, hml⟩ := factors_pos hunit
  have hfit := fits_toInt t
  have h0 : (0 : Int64).toInt = 0 := rfl
  unfold scalarToTimepoint
  by_cases hz : t = 0
  · subst hz
    rw [if_pos (Or.inl rfl), h0]
    simp
  have hne : t.toInt ≠ 0 := fun h => hz (Int64.toInt_inj.mp (by rw [h, h0]))
  have hfactors : ¬ (t = 0 ∨ dv = 0 ∨ ml = 0) := by
    rintro (h | rfl | rfl)
    · exact hz h
    · exact absurd hdv (by decide)
    · exact absurd hml (by decide)
  rw [if_neg hfactors]
  simp only [gt_iff_lt, Int64.lt_iff_toInt_lt, h0, UInt64.toUInt64_toInt64]
  rcases lt_or_gt_of_ne hne with hneg | hpos
  · rw [if_neg (show ¬ 0 < t.toInt by omega), if_pos hneg]
    have htm : ((-1 * t).toUInt64.toNat : Int) = -t.toInt := by
      rw [toNat_toUInt64, toInt_mul_eq, show (-1 : Int64).toInt = -1 from rfl]
      unfold wrap64
      omega
    have habs : (-1 * t).toUInt64.toNat = t.toInt.natAbs := by omega
    rw [← habs] at hroom
    have hfields := negated_magnitude_fields hunit (toInt_magnitude_sec hroom)
      (toNat_rest_asec hunit (-1 * t).toUInt64)
    rwa [htm, neg_neg] at hfields
  · rw [if_pos hpos, if_neg (show ¬ t.toInt < 0 by omega)]
    have htm : (t.toUInt64.toNat : Int) = t.toInt := toNat_toUInt64_of_nonneg hpos.le
    have habs : t.toUInt64.toNat = t.toInt.natAbs := by omega
    rw [← habs] at hroom
    rw [toInt_magnitude_sec hroom, toNat_rest_asec hunit, ← htm]
    push_cast
    exact ⟨rfl, rfl⟩

theorem scalarToTimelength_fields (t : UInt64) :
    (scalarToTimelength t dv ml).sec.toNat = t.toNat / dv.toNat
      ∧ (scalarToTimelength t dv ml).asec.toNat = t.toNat % dv.toNat * ml.toNat := by
  obtain ⟨hdv, hml⟩ := factors_pos hunit
  unfold scalarToTimelength
  split
  · next h =>
    have ht : t = 0 := by
      rcases h with h | rfl | rfl
      · exact h
      · exact absurd hdv (by decide)
      · exact absurd hml (by decide)
    subst ht
    simp
  · exact ⟨UInt64.toNat_div _ _, toNat_rest_asec hunit t⟩

end

end Scalar

/-! ## The nanosecond casts -/

/-- Both fields of a nanosecond scalar at once: floor and remainder, also below zero. -/
theorem tpFromNsec_fields (t : Int64) :
    (tpFromNsec t).sec.toInt = t.toInt / 1000000000
      ∧ ((tpFromNsec t).asec.toNat : Int) = t.toInt % 1000000000 * 1000000000 := by
  have hfit := fits_toInt t
  have hn : nSecPerSec.toNat = 1000000000 := rfl
  have hfields := @scalarToTimepoint_fields nSecPerSec nSecPerSec rfl t (by rw [hn]; omega)
  rw [hn] at hfields
  exact hfields

theorem tpFromNsec_sec (t : Int64) : (tpFromNsec t).sec.toInt = t.toInt / 1000000000 :=
  (tpFromNsec_fields t).1

theorem tpFromNsec_asec (t : Int64) :
    ((tpFromNsec t).asec.toNat : Int) = t.toInt % 1000000000 * 1000000000 :=
  (tpFromNsec_fields t).2

theorem tpFromNsec_normalised (t : Int64) : (tpFromNsec t).Normalised := by
  have h := tpFromNsec_asec t
  omega

theorem tpFromNsec_value (t : Int64) : (tpFromNsec t).value = t.toInt * 1000000000 := by
  have h1 := tpFromNsec_sec t
  have h2 := tpFromNsec_asec t
  unfold Timepoint.value
  omega

theorem tpFromNsec_rank_lt (a b : Int64) :
    (tpFromNsec a).rank < (tpFromNsec b).rank ↔ a.toInt < b.toInt := by
  rw [Timepoint.rank_lt_iff_value_lt (tpFromNsec_normalised a) (tpFromNsec_normalised b),
    tpFromNsec_value, tpFromNsec_value]
  omega

theorem timepointCmp_tpFromNsec (a b : Int64) :
    timepointCmp (tpFromNsec a) (tpFromNsec b) > 0 ↔ a.toInt < b.toInt := by
  rw [timepointCmp_pos, tpFromNsec_rank_lt]

/-- The scalar of a point is its value floored to nanoseconds, reduced to a machine word. -/
theorem toInt_tpToNsec (d : Timepoint) :
    (tpToNsec d).toInt = wrap64 (d.sec.toInt * 1000000000 + d.asec.toNat / 1000000000) := by
  have hn : nSecPerSec.toNat = 1000000000 := rfl
  have hs := toNat_toUInt64 d.sec
  unfold tpToNsec
  rw [toInt_toInt64]
  apply wrap64_congr
  rw [UInt64.toNat_add, UInt64.toNat_mul, UInt64.toNat_div, hn]
  omega

/-- Casting a scalar to a point and back is the identity. -/
theorem tpToNsec_tpFromNsec (t : Int64) : tpToNsec (tpFromNsec t) = t := by
  have h1 := tpFromNsec_sec t
  have h2 := tpFromNsec_asec t
  apply Int64.toInt_inj.mp
  rw [toInt_tpToNsec, h1, show ((tpFromNsec t).asec.toNat : Int) / 1000000000
    = t.toInt % 1000000000 by omega]
  have hsum : t.toInt / 1000000000 * 1000000000 + t.toInt % 1000000000 = t.toInt := by omega
  rw [hsum, wrap64_of_fits (fits_toInt t)]

/-- The length cast of a scalar denotes exactly that many nanoseconds, and is normalised. -/
theorem tlFromNsec_value (t : UInt64) :
    (tlFromNsec t).value = t.toNat * 1000000000 ∧ (tlFromNsec t).Normalised := by
  have hn : nSecPerSec.toNat = 1000000000 := rfl
  obtain ⟨hsec, hasec⟩ := @scalarToTimelength_fields nSecPerSec nSecPerSec rfl t
  rw [hn] at hsec hasec
  unfold tlFromNsec Timelength.value
  rw [hsec, hasec]
  omega

end Qot
