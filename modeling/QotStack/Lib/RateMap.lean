import Mathlib.Tactic.Linarith
import Mathlib.Tactic.Ring
import Mathlib.Order.Monotone.Basic
import Mathlib.Order.SuccPred.LinearLocallyFinite
import Mathlib.Algebra.Order.Ring.Int

/-!
# RateMap — linear rate maps on the integers

A disciplined clock advances by `x + m * x / N` while its base clock advances by `x`: `m` is the
rate correction in units of `1 / N`, and the quotient truncates toward zero as C's does.
`forward` is that map. `inverse` is the cheap way back: divide by `N + m`, scale the quotient by
`N` and add the remainder *as it is*.

The remainder should have been scaled too, and the lemmas below say exactly what that costs:

* `forward_split` — the forward map acts on whole multiples of `N` and on the rest separately;
* `inverse_eq` — the inverse takes `m` off once per whole quotient, and nothing off the rest;
* `inverse_forward_of_nonneg`, `inverse_forward_of_neg` — so the round trip is off by the
  rate correction of the rest;
* `forward_monotone` — the forward map is monotone as soon as the rate is positive;
* `inverse_lt_iff_of_lt_forward`, `le_inverse_iff_of_forward_le` — an image before (after) that of
  `x` is put before (after) `x` exactly if, in the same whole quotient, its rest is on that side;
* `inverse_lt_iff_of_le` — the inverse is not: a rest larger than the scale overtakes the next
  whole quotient, which takes a clock that is fast.
-/

namespace RateMap

/-- The rate map: `x` base units become `x` plus the truncated correction. -/
def forward (N m x : Int) : Int := x + (m * x).tdiv N

/-- The quotient-and-remainder inverse, with the remainder left unscaled. -/
def inverse (N m y : Int) : Int := N * (y / (N + m)) + y % (N + m)

/-! ## Truncating division by a positive scale -/

variable {N a b m : Int}

theorem tdiv_of_nonpos {p : Int} (hp : p ≤ 0) : p.tdiv N = -((-p) / N) := by
  have h := Int.neg_tdiv (-p) N
  rw [neg_neg] at h
  rw [h, Int.tdiv_eq_ediv_of_nonneg (by omega)]

theorem tdiv_mul_split (m : Int) (hN : 0 < N) (ha : 0 ≤ a) (hb : 0 ≤ b) :
    (m * (N * a + b)).tdiv N = m * a + (m * b).tdiv N := by
  have hx : 0 ≤ N * a + b := add_nonneg (mul_nonneg hN.le ha) hb
  have hsplit : m * (N * a + b) = m * b + N * (m * a) := by ring
  rcases le_total 0 m with hm | hm
  · rw [Int.tdiv_eq_ediv_of_nonneg (mul_nonneg hm hx),
      Int.tdiv_eq_ediv_of_nonneg (mul_nonneg hm hb), hsplit,
      Int.add_mul_ediv_left _ _ hN.ne']
    ring
  · -- both products are non-positive, so both quotients are negated floors
    rw [tdiv_of_nonpos (mul_nonpos_of_nonpos_of_nonneg hm hx),
      tdiv_of_nonpos (mul_nonpos_of_nonpos_of_nonneg hm hb),
      show -(m * (N * a + b)) = -(m * b) + N * (-(m * a)) by ring,
      Int.add_mul_ediv_left _ _ hN.ne']
    ring

/-- One more scale unit moves a truncated quotient by at most one. -/
theorem tdiv_add_scale_le (hN : 0 < N) (p : Int) : (p + N).tdiv N ≤ p.tdiv N + 1 := by
  rcases le_total 0 p with hp | hp
  · rw [Int.tdiv_eq_ediv_of_nonneg hp, Int.tdiv_eq_ediv_of_nonneg (by omega),
      Int.add_ediv_of_dvd_right (dvd_refl N), Int.ediv_self hN.ne']
  · rcases le_total 0 (p + N) with hq | hq
    · -- `p` lies in `[-N, 0]`: the new quotient is `0` or `1`, the old one `0` or `-1`
      rw [Int.tdiv_eq_ediv_of_nonneg hq, tdiv_of_nonpos hp]
      rcases eq_or_lt_of_le hq with h0 | h0
      · rw [← h0, show -p = N by omega, Int.zero_ediv, Int.ediv_self hN.ne']
        omega
      · have hsmall : (-p) / N = 0 := Int.ediv_eq_zero_of_lt (by omega) (by omega)
        have hle : (p + N) / N ≤ 1 := by
          rcases eq_or_lt_of_le hp with h1 | h1
          · rw [h1, zero_add, Int.ediv_self hN.ne']
          · rw [Int.ediv_eq_zero_of_lt hq (by omega)]
            omega
        omega
    · rw [tdiv_of_nonpos hq, tdiv_of_nonpos hp,
        show -p = -(p + N) + N by ring, Int.add_ediv_of_dvd_right (dvd_refl N),
        Int.ediv_self hN.ne']
      omega

/-! ## The forward map -/

theorem forward_zero (N m : Int) : forward N m 0 = 0 := by
  simp [forward]

/-- The forward map on `N * a + b`: the whole part runs at the exact rate. -/
theorem forward_split (m : Int) (hN : 0 < N) (ha : 0 ≤ a) (hb : 0 ≤ b) :
    forward N m (N * a + b) = (N + m) * a + forward N m b := by
  unfold forward
  rw [tdiv_mul_split m hN ha hb]
  ring

theorem forward_le_succ (hN : 0 < N) (hm : -N < m) (x : Int) :
    forward N m x ≤ forward N m (x + 1) := by
  unfold forward
  rcases le_total 0 m with h | h
  · have hle : (m * x).tdiv N ≤ (m * (x + 1)).tdiv N :=
      Int.tdiv_le_tdiv hN (by linarith [mul_add m x 1])
    omega
  · -- the correction drops by at most one while the base part gains one
    have hstep : (m * x).tdiv N ≤ (m * (x + 1) + N).tdiv N :=
      Int.tdiv_le_tdiv hN (by linarith [mul_add m x 1])
    have hadd := tdiv_add_scale_le hN (m * (x + 1))
    omega

/-- **The forward map is monotone** on the whole line as soon as the rate `N + m` is positive. -/
theorem forward_monotone {x y : Int} (hN : 0 < N) (hm : -N < m) (hxy : x ≤ y) :
    forward N m x ≤ forward N m y :=
  monotone_int_of_le_succ (forward_le_succ hN hm) hxy

theorem forward_nonneg {x : Int} (hN : 0 < N) (hm : -N < m) (hx : 0 ≤ x) : 0 ≤ forward N m x := by
  have h := forward_monotone hN hm hx
  rwa [forward_zero] at h

/-! ## The inverse and the round trip -/

/-- The inverse takes `m` off once for every whole quotient; the remainder is not corrected. -/
theorem inverse_eq (N m y : Int) : inverse N m y = y - m * (y / (N + m)) := by
  have h := Int.mul_ediv_add_emod y (N + m)
  unfold inverse
  linarith [add_mul N m (y / (N + m))]

/-- Quotient and remainder of a forward image whose rest stays below the rate. -/
theorem inverse_of_rest_lt {r : Int} (hr : 0 ≤ r) (hlt : r < N + m) :
    inverse N m ((N + m) * a + r) = N * a + r := by
  have hd : 0 < N + m := lt_of_le_of_lt hr hlt
  unfold inverse
  rw [add_comm ((N + m) * a) r, Int.add_mul_ediv_left _ _ hd.ne', Int.add_mul_emod_self_left,
    Int.ediv_eq_zero_of_lt hr hlt, Int.emod_eq_of_lt hr hlt]
  ring

theorem forward_rest_lt (hN : 0 < N) (hm : 0 ≤ m) (hb : 0 ≤ b) (hlt : b < N) :
    forward N m b < N + m := by
  unfold forward
  rw [Int.tdiv_eq_ediv_of_nonneg (mul_nonneg hm hb)]
  have hle : m * b / N ≤ m := by
    have hmul : m * b ≤ N * m := by nlinarith
    exact Int.ediv_le_of_le_mul hN (by linarith)
  omega

/-- The forward image of a rest below `N` is at most the rate, also for a slow clock. -/
theorem forward_rest_le (hN : 0 < N) (hm : -N < m) (hlt : b < N) : forward N m b ≤ N + m := by
  have hmono := forward_monotone hN hm (show b ≤ N by omega)
  have hfull : forward N m N = N + m := by
    unfold forward
    rw [mul_comm, Int.mul_tdiv_cancel_left _ hN.ne']
  omega

/-- **Round trip of a fast clock**: the inverse comes back late by the correction of the rest. -/
theorem inverse_forward_of_nonneg (hN : 0 < N) (hm : 0 ≤ m) (ha : 0 ≤ a) (hb : 0 ≤ b)
    (hlt : b < N) : inverse N m (forward N m (N * a + b)) = N * a + b + m * b / N := by
  have hrest := forward_rest_lt hN hm hb hlt
  rw [forward_split m hN ha hb,
    inverse_of_rest_lt (forward_nonneg hN (by omega) hb) hrest]
  unfold forward
  rw [Int.tdiv_eq_ediv_of_nonneg (mul_nonneg hm hb)]
  ring

/-- **Round trip of a slow clock**: the inverse comes back early by the correction of the rest,
unless the rest rounds up to a whole quotient, where it lands on the next multiple of `N`. -/
theorem inverse_forward_of_neg (hN : 0 < N) (hm : -N < m) (hneg : m ≤ 0) (ha : 0 ≤ a) (hb : 0 ≤ b)
    (hlt : b < N) :
    inverse N m (forward N m (N * a + b)) =
      if forward N m b = N + m then N * (a + 1) else N * a + b - (-m) * b / N := by
  have hle := forward_rest_le hN hm hlt
  rw [forward_split m hN ha hb]
  split
  · next hfull =>
    rw [hfull, show (N + m) * a + (N + m) = (N + m) * (a + 1) + 0 by ring,
      inverse_of_rest_lt le_rfl (by omega)]
    ring
  · next hne =>
    rw [inverse_of_rest_lt (forward_nonneg hN hm hb) (lt_of_le_of_ne hle hne)]
    unfold forward
    rw [tdiv_of_nonpos (mul_nonpos_of_nonpos_of_nonneg hneg hb), ← neg_mul]
    ring

/-! ## Order -/

section Compare

variable {N m x y : Int} (hN : 0 < N) (hm : -N < m) (hx : 0 ≤ x)

include hN hm hx

/-- The forward map at a time given by its whole scales and its rest. -/
theorem forward_quotient :
    (N + m) * (x / N) ≤ forward N m x ∧ forward N m x ≤ (N + m) * (x / N) + (N + m) := by
  have hb := Int.emod_nonneg x hN.ne'
  have hsplit := forward_split m hN (Int.ediv_nonneg hx hN.le) hb
  rw [Int.mul_ediv_add_emod] at hsplit
  have hlow := forward_nonneg hN hm hb
  have hhigh := forward_rest_le hN hm (Int.emod_lt_of_pos x hN)
  omega

/-- **An image before that of `x` is put before `x`** exactly if its rest is smaller than that of
`x`, where it shares the whole quotient; in the one before, it must not exceed it by a scale. -/
theorem inverse_lt_iff_of_lt_forward (hbound : m ≤ N) (h : y < forward N m x) :
    inverse N m y < x
      ↔ (y / (N + m) = x / N → y % (N + m) < x % N)
        ∧ (y / (N + m) + 1 = x / N → y % (N + m) < N + x % N) := by
  have hd : 0 < N + m := by omega
  obtain ⟨-, hupper⟩ := forward_quotient hN hm hx
  have hr := Int.emod_nonneg y hd.ne'
  have hlt := Int.emod_lt_of_pos y hd
  have hb := Int.emod_nonneg x hN.ne'
  have hxsplit := Int.mul_ediv_add_emod x N
  have hysplit := Int.mul_ediv_add_emod y (N + m)
  have hquot : y / (N + m) < x / N + 1 := by
    by_contra hge
    have hmul := Int.mul_le_mul_of_nonneg_left (not_lt.mp hge) hd.le
    rw [mul_add, mul_one] at hmul
    omega
  unfold inverse
  obtain ⟨k, hk⟩ : ∃ k, x / N = y / (N + m) + k := ⟨x / N - y / (N + m), by omega⟩
  rw [hk, mul_add] at hxsplit
  rw [hk]
  generalize y / (N + m) = q at *
  generalize y % (N + m) = r at *
  generalize x % N = b at *
  -- two whole quotients behind, no rest makes up for them
  rcases show k = 0 ∨ k = 1 ∨ 2 ≤ k by omega with rfl | rfl | hfar
  · constructor <;> intro h <;> omega
  · constructor <;> intro h <;> omega
  · have hscale := Int.mul_le_mul_of_nonneg_left hfar hN.le
    constructor <;> intro h <;> omega

/-- **An image not before that of `x` is put not before `x`** exactly if its rest is not smaller,
where it shares the whole quotient. -/
theorem le_inverse_iff_of_forward_le (h : forward N m x ≤ y) :
    x ≤ inverse N m y ↔ (y / (N + m) = x / N → x % N ≤ y % (N + m)) := by
  have hd : 0 < N + m := by omega
  obtain ⟨hlower, -⟩ := forward_quotient hN hm hx
  have hr := Int.emod_nonneg y hd.ne'
  have hb := Int.emod_lt_of_pos x hN
  have hxsplit := Int.mul_ediv_add_emod x N
  have hquot : x / N ≤ y / (N + m) := by
    rw [Int.le_ediv_iff_mul_le hd, mul_comm]
    omega
  unfold inverse
  obtain ⟨k, hk⟩ : ∃ k, y / (N + m) = x / N + k := ⟨y / (N + m) - x / N, by omega⟩
  rw [hk, mul_add]
  generalize x / N = a at *
  rcases show k = 0 ∨ 1 ≤ k by omega with rfl | hnext
  · constructor <;> intro h <;> omega
  · have hscale := Int.mul_le_mul_of_nonneg_left hnext hN.le
    constructor <;> intro h <;> omega

end Compare

/-- **The inverse puts a later image first** exactly if that is in the next whole quotient, and the
rest left behind is larger by more than a scale. -/
theorem inverse_lt_iff_of_le {y y' : Int} (hN : 0 < N) (hd : 0 < N + m) (hm : m ≤ N) (h : y ≤ y') :
    inverse N m y' < inverse N m y
      ↔ y' / (N + m) = y / (N + m) + 1 ∧ N + y' % (N + m) < y % (N + m) := by
  have hq : y / (N + m) ≤ y' / (N + m) := Int.ediv_le_ediv hd h
  have hr := Int.emod_nonneg y hd.ne'
  have hr' := Int.emod_nonneg y' hd.ne'
  have hlt := Int.emod_lt_of_pos y hd
  have hsplit := Int.mul_ediv_add_emod y (N + m)
  have hsplit' := Int.mul_ediv_add_emod y' (N + m)
  unfold inverse
  generalize y % (N + m) = r at *
  generalize y' % (N + m) = r' at *
  obtain ⟨k, hk⟩ : ∃ k, y' / (N + m) = y / (N + m) + k := ⟨y' / (N + m) - y / (N + m), by omega⟩
  rw [hk] at hsplit' hq ⊢
  generalize y / (N + m) = q at *
  rw [mul_add] at hsplit' ⊢
  constructor
  · intro hlater
    -- in the same quotient the rests are in order, and two scales are more than any rest
    have hone : k = 1 := by
      rcases lt_trichotomy k 1 with hlow | heq | hhigh
      · obtain rfl : k = 0 := by omega
        omega
      · exact heq
      · have hscale : N * 2 ≤ N * k := Int.mul_le_mul_of_nonneg_left (by omega) hN.le
        omega
    subst hone
    exact ⟨rfl, by omega⟩
  · rintro ⟨hone, hrest⟩
    obtain rfl : k = 1 := by omega
    omega

/-- A clock that is not fast keeps the order. -/
theorem inverse_mono {y y' : Int} (hN : 0 < N) (hd : 0 < N + m) (hm : m ≤ 1) (h : y ≤ y') :
    inverse N m y ≤ inverse N m y' := by
  rw [← not_lt, inverse_lt_iff_of_le hN hd (by omega) h]
  rintro ⟨-, hrest⟩
  have hlt := Int.emod_lt_of_pos y hd
  have hr' := Int.emod_nonneg y' hd.ne'
  omega

end RateMap
