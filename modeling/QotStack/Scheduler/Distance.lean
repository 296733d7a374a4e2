import QotStack.Scheduler.Period
import QotStack.Types.Arithmetic

/-!
# QotStack — the distance between two points in time (`timepoint_diff`)

`timepoint_diff` subtracts seconds and fractions apart and drops the sign of each. What it returns
is a proper length, the same in both directions, but its value is the distance only if the two
differences have the same direction (`FractionsFollow`): of a second and a half less three quarters
it makes one second and a quarter. The seconds also have to survive the `abs` they go through, which
one on `int` cuts to 32 bits (`AbsWidth.Keeps`).

`timepoint_diff_exact_iff` says that these two conditions are exact, and that they are what it takes
for the result to lead from the earlier point to the later one.
-/

namespace Qot

open MachineInt

/-- The absolute value of this many seconds comes out right. -/
def AbsWidth.Keeps (w : AbsWidth) (d : Int) : Prop :=
  match w with
  | .int => -2147483648 < d ∧ d < 2147483648
  | .wide => True

/-- The point with fewer seconds does not have the larger fraction. -/
abbrev FractionsFollow (t1 t2 : Timepoint) : Prop :=
  (t1.sec < t2.sec → t1.asec ≤ t2.asec) ∧ (t2.sec < t1.sec → t2.asec ≤ t1.asec)

/-- Nothing gets lost between the two points. -/
@[mk_iff]
structure DiffHarmless (w : AbsWidth) (t1 t2 : Timepoint) : Prop where
  fractions : FractionsFollow t1 t2
  seconds : w.Keeps (t1.sec.toInt - t2.sec.toInt)

instance (w : AbsWidth) (d : Int) : Decidable (w.Keeps d) :=
  match w with
  | .int => inferInstanceAs (Decidable (_ ∧ _))
  | .wide => isTrue trivial

instance (w : AbsWidth) (t1 t2 : Timepoint) : Decidable (DiffHarmless w t1 t2) :=
  decidable_of_iff' _ (diffHarmless_iff w t1 t2)

/-- What a distance is for. -/
structure DiffExact (w : AbsWidth) (t1 t2 : Timepoint) : Prop where
  normalised : (timepointDiffWith w t1 t2).Normalised
  value : (timepointDiffWith w t1 t2).value = |t1.value - t2.value|
  forward : t1.value ≤ t2.value → timepointAdd t1 (timepointDiffWith w t1 t2) = t2
  backward : t2.value ≤ t1.value → timepointAdd t2 (timepointDiffWith w t1 t2) = t1
  symm : timepointDiffWith w t2 t1 = timepointDiffWith w t1 t2

theorem timepointDiffWith_normalised (w : AbsWidth) {t1 t2 : Timepoint} (h1 : t1.Normalised)
    (h2 : t2.Normalised) : (timepointDiffWith w t1 t2).Normalised := by
  have hasec := toNat_timepointDiffWith_asec w t1 t2
  omega

/-- The seconds come out right exactly where the absolute value keeps them. -/
theorem secs_eq_iff (w : AbsWidth) {d : Int} (hd : Fits64 d) :
    w.secs d % 18446744073709551616 = d.natAbs ↔ w.Keeps d := by
  cases w with
  | int =>
    simp only [AbsWidth.secs, AbsWidth.Keeps, wrap32]
    constructor <;> intro h <;> omega
  | wide =>
    simp only [AbsWidth.secs, AbsWidth.Keeps]
    refine iff_of_true ?_ trivial
    omega

/-- Where they do not, they are not off by just one. -/
theorem secs_add_one_ne (w : AbsWidth) (d : Int) :
    w.secs d % 18446744073709551616 + 1 ≠ d.natAbs := by
  cases w with
  | int =>
    simp only [AbsWidth.secs, wrap32]
    omega
  | wide =>
    simp only [AbsWidth.secs]
    omega

theorem natAbs_wrap32_neg (d : Int) : (wrap32 (wrap64 (-d))).natAbs = (wrap32 d).natAbs := by
  have hcut : wrap32 (wrap64 (-d)) = wrap32 (-d) := by
    unfold wrap64 wrap32
    omega
  rw [hcut]
  unfold wrap32
  omega

/-- The direction in which the seconds are subtracted does not matter. -/
theorem absSec_symm (w : AbsWidth) (s1 s2 : Int64) : absSec w (s2 - s1) = absSec w (s1 - s2) := by
  apply UInt64.toNat_inj.mp
  have hneg : (s2 - s1).toInt = wrap64 (-(s1 - s2).toInt) := by
    rw [toInt_sub_eq, toInt_sub_eq]
    unfold wrap64
    omega
  have hfit := fits_toInt (s1 - s2)
  have hd := toNat_absSec w (s1 - s2)
  have hd' := toNat_absSec w (s2 - s1)
  rw [hneg] at hd'
  generalize (s1 - s2).toInt = d at hd hd' hfit
  have hsecs : w.secs (wrap64 (-d)) = w.secs d := by
    cases w with
    | int =>
      show wrap32 (wrap32 (wrap64 (-d))).natAbs = wrap32 (wrap32 d).natAbs
      rw [natAbs_wrap32_neg]
    | wide =>
      show ((wrap64 (-d)).natAbs : Int) = d.natAbs
      unfold wrap64
      omega
  rw [hsecs] at hd'
  omega

section Exact

variable (w : AbsWidth) {t1 t2 : Timepoint}
  (hfit : Fits64 (t1.sec.toInt - t2.sec.toInt))

include hfit

theorem toNat_timepointDiffWith_sec :
    ((timepointDiffWith w t1 t2).sec.toNat : Int)
      = w.secs (t1.sec.toInt - t2.sec.toInt) % 18446744073709551616 := by
  show ((absSec w (t1.sec - t2.sec)).toNat : Int) = _
  rw [toNat_absSec, toInt_sub_of_fits hfit]

variable (h1 : t1.Normalised) (h2 : t2.Normalised)

include h1 h2

theorem timepointDiffWith_value_iff :
    (timepointDiffWith w t1 t2).value = |t1.value - t2.value| ↔ DiffHarmless w t1 t2 := by
  have hsec := toNat_timepointDiffWith_sec w hfit
  have hasec := toNat_timepointDiffWith_asec w t1 t2
  have hkeeps := secs_eq_iff w hfit
  have hne := secs_add_one_ne w (t1.sec.toInt - t2.sec.toInt)
  have hharm : DiffHarmless w t1 t2
      ↔ FractionsFollow t1 t2 ∧ w.Keeps (t1.sec.toInt - t2.sec.toInt) :=
    ⟨fun h => ⟨h.fractions, h.seconds⟩, fun h => ⟨h.1, h.2⟩⟩
  rw [hharm, ← hkeeps]
  unfold Timelength.value Timepoint.value FractionsFollow
  simp only [Int64.lt_iff_toInt_lt, UInt64.le_iff_toNat_le]
  generalize w.secs (t1.sec.toInt - t2.sec.toInt) % 18446744073709551616 = S at hsec hne ⊢
  generalize (timepointDiffWith w t1 t2).sec.toNat = s at hsec ⊢
  generalize (timepointDiffWith w t1 t2).asec.toNat = a at hasec ⊢
  rw [Int.abs_eq_natAbs]
  -- against each other the fractions borrow a second, which the seconds would have to be short of
  constructor
  · intro h
    refine ⟨⟨fun hlt => ?_, fun hlt => ?_⟩, ?_⟩ <;> omega
  · rintro ⟨⟨hup, hdown⟩, hS⟩
    rcases lt_trichotomy t1.sec.toInt t2.sec.toInt with hlt | heq | hlt
    · have := hup hlt
      omega
    · omega
    · have := hdown hlt
      omega

end Exact

theorem timepointDiffWith_symm (w : AbsWidth) {t1 t2 : Timepoint} (h1 : t1.Normalised)
    (h2 : t2.Normalised) : timepointDiffWith w t2 t1 = timepointDiffWith w t1 t2 := by
  apply Timelength.value_inj (timepointDiffWith_normalised w h2 h1)
    (timepointDiffWith_normalised w h1 h2)
  have hasec := toNat_timepointDiffWith_asec w t1 t2
  have hasec' := toNat_timepointDiffWith_asec w t2 t1
  unfold Timelength.value
  have hasecEq : (timepointDiffWith w t2 t1).asec.toNat
      = (timepointDiffWith w t1 t2).asec.toNat := by omega
  rw [hasecEq, show (timepointDiffWith w t2 t1).sec = (timepointDiffWith w t1 t2).sec from
    absSec_symm w t1.sec t2.sec]

/-- Adding the distance to one end gives the other, wherever the value is right. -/
theorem timepointAdd_of_value_eq {t t' : Timepoint} {v : Timelength} (ht : t.Normalised)
    (ht' : t'.Normalised) (hv : v.Normalised) (h : v.value = t'.value - t.value) :
    timepointAdd t v = t' := by
  obtain ⟨hnorm, hres⟩ := timepointAdd_residue ht hv
  apply Timepoint.eq_of_residue hnorm ht'
  rw [hres, h]
  congr 1
  omega

/-- **The distance is exact exactly where nothing gets lost**; and there it is a distance: it obeys
the triangle inequality. -/
theorem timepoint_diff_exact_iff (w : AbsWidth) (t1 t2 t3 : Timepoint) (h1 : t1.Normalised)
    (h2 : t2.Normalised) (h3 : t3.Normalised) (h12 : Fits64 (t1.sec.toInt - t2.sec.toInt))
    (h23 : Fits64 (t2.sec.toInt - t3.sec.toInt)) (h13 : Fits64 (t1.sec.toInt - t3.sec.toInt)) :
    (DiffExact w t1 t2 ↔ DiffHarmless w t1 t2)
      ∧ (DiffHarmless w t1 t2 → DiffHarmless w t2 t3 → DiffHarmless w t1 t3 →
        (timepointDiffWith w t1 t3).value
          ≤ (timepointDiffWith w t1 t2).value + (timepointDiffWith w t2 t3).value) := by
  refine ⟨⟨fun h => (timepointDiffWith_value_iff w h12 h1 h2).mp h.value, fun h => ?_⟩, ?_⟩
  · have hvalue := (timepointDiffWith_value_iff w h12 h1 h2).mpr h
    have hnorm := timepointDiffWith_normalised w h1 h2
    refine ⟨hnorm, hvalue, fun hle => ?_, fun hle => ?_, timepointDiffWith_symm w h1 h2⟩
    · apply timepointAdd_of_value_eq h1 h2 hnorm
      rw [hvalue, abs_of_nonpos (by omega)]
      omega
    · apply timepointAdd_of_value_eq h2 h1 hnorm
      rw [hvalue, abs_of_nonneg (by omega)]
  · intro hh12 hh23 hh13
    rw [(timepointDiffWith_value_iff w h12 h1 h2).mpr hh12,
      (timepointDiffWith_value_iff w h23 h2 h3).mpr hh23,
      (timepointDiffWith_value_iff w h13 h1 h3).mpr hh13]
    exact abs_sub_le t1.value t2.value t3.value

theorem timepoint_diff_exact_iff_quarters :
    DiffExact .int ⟨-1, 250000000000000000⟩ ⟨2, 750000000000000000⟩
      ∧ (timepointDiffWith .int ⟨-1, 250000000000000000⟩ ⟨0, 500000000000000000⟩).value
          ≤ (timepointDiffWith .int ⟨-1, 250000000000000000⟩ ⟨2, 750000000000000000⟩).value
            + (timepointDiffWith .int ⟨2, 750000000000000000⟩ ⟨0, 500000000000000000⟩).value := by
  have h := timepoint_diff_exact_iff .int ⟨-1, 250000000000000000⟩ ⟨2, 750000000000000000⟩
    ⟨0, 500000000000000000⟩ (by decide) (by decide) (by decide) (by decide) (by decide) (by decide)
  exact ⟨h.1.mpr (by decide), h.2 (by decide) (by decide) (by decide)⟩

/-- One second and half a second after the reference are half a second apart; both the kernel and
the library make it a second and a half. The library loses `2 ^ 32` seconds altogether. -/
theorem timepoint_diff_not_exact :
    (timepointDiffWith .wide ⟨1, 0⟩ ⟨0, 500000000000000000⟩).value = 1500000000000000000
      ∧ |Timepoint.value ⟨1, 0⟩ - Timepoint.value ⟨0, 500000000000000000⟩| = 500000000000000000
      ∧ timepointAdd ⟨0, 500000000000000000⟩
          (timepointDiffWith .int ⟨1, 0⟩ ⟨0, 500000000000000000⟩) ≠ ⟨1, 0⟩
      ∧ timepointDiffWith .int ⟨4294967296, 0⟩ ⟨0, 0⟩ = ⟨0, 0⟩ := by
  decide

end Qot
