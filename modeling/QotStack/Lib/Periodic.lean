import Mathlib.Algebra.Order.Floor.Div
import Mathlib.GroupTheory.GroupAction.Ring
import Mathlib.Order.Bounds.Basic
import Mathlib.Tactic.Linarith
import Mathlib.Tactic.Ring

/-!
# Periodic — the next release of a periodic activity

A periodic activity that starts at `start` is released at `start + k * period` for every natural
`k`. `IsNext` is the specification of the next release: the least one that is not before `now`.

* `isNext_iff_of_le` — after the start it is the elapsed time rounded up to whole periods;
* `ceilDiv_eq_iff` — two elapsed times round up alike exactly when no release separates them;
* `mod_round_up_eq_iff` — rounding a wrong elapsed time up in modular arithmetic comes out right
  only if it rounds up alike: a reduction cannot repair it.
-/

namespace Periodic

/-- The instants at which the activity is released. -/
def releases (start period : Int) : Set Int := { x | ∃ k : Nat, x = start + period * k }

/-- `r` is the first release that is not before `now`. -/
def IsNext (start period now r : Int) : Prop :=
  IsLeast { x | x ∈ releases start period ∧ now ≤ x } r

theorem isNext_iff_of_le_start {start period now r : Int} (hp : 0 < period) (h : now ≤ start) :
    IsNext start period now r ↔ r = start := by
  have hleast : IsNext start period now start := by
    refine ⟨⟨⟨0, by simp⟩, h⟩, ?_⟩
    rintro _ ⟨⟨k, rfl⟩, -⟩
    have hk : 0 ≤ period * k := by positivity
    omega
  constructor
  · intro hr
    exact hr.unique hleast
  · rintro rfl
    exact hleast

variable {e p : Nat}

/-- `e` after the start, the next release is `e` rounded up to whole periods. -/
theorem isNext_iff_of_le {start now r : Int} {period : Nat} (hp : 0 < period)
    (h : now = start + e) :
    IsNext start period now r ↔ r = start + (period * (e ⌈/⌉ period) : Nat) := by
  have hleast : IsNext start period now (start + (period * (e ⌈/⌉ period) : Nat)) := by
    have hle : e ≤ period * (e ⌈/⌉ period) := by simpa using le_smul_ceilDiv (b := e) hp
    refine ⟨⟨⟨e ⌈/⌉ period, by push_cast; rfl⟩, by omega⟩, ?_⟩
    rintro _ ⟨⟨k, rfl⟩, hk⟩
    have hk' : e ≤ period * k := by
      rw [h] at hk
      exact_mod_cast le_of_add_le_add_left hk
    have hceil : e ⌈/⌉ period ≤ k := (ceilDiv_le_iff_le_mul hp).mpr hk'
    have hmul : period * (e ⌈/⌉ period) ≤ period * k := Nat.mul_le_mul_left period hceil
    exact_mod_cast Int.add_le_add_left (Int.ofNat_le.mpr hmul) start
  constructor
  · intro hr
    exact hr.unique hleast
  · rintro rfl
    exact hleast

/-- Rounding up by quotient and remainder, as a program does. -/
theorem ceilDiv_eq_div_add (e : Nat) (hp : 0 < p) :
    e ⌈/⌉ p = if e % p = 0 then e / p else e / p + 1 := by
  have hdiv := Nat.div_add_mod e p
  have hlt := Nat.mod_lt e hp
  refine le_antisymm ((ceilDiv_le_iff_le_mul hp).mpr ?_) ?_
  · split
    · omega
    · rw [Nat.mul_add]
      omega
  · have hceil : e ≤ p * (e ⌈/⌉ p) := by simpa using le_smul_ceilDiv (b := e) hp
    split
    · exact Nat.div_le_of_le_mul hceil
    · next hrem =>
      refine Nat.succ_le_of_lt ?_
      by_contra hle
      have hmul := Nat.mul_le_mul_left p (Nat.not_lt.mp hle)
      omega

/-- **Two elapsed times round up alike exactly when no release separates them.** -/
theorem ceilDiv_eq_iff {e' : Nat} (hp : 0 < p) :
    e' ⌈/⌉ p = e ⌈/⌉ p ↔ ∀ k : Nat, p * k < e ↔ p * k < e' := by
  have hlt : ∀ (e k : Nat), k < e ⌈/⌉ p ↔ p * k < e := by
    intro e k
    rw [← not_le, ceilDiv_le_iff_le_mul hp, not_le]
  simp only [← hlt]
  constructor
  · intro h k
    rw [h]
  · intro h
    exact eq_of_forall_lt_iff fun k => (h k).symm

/-- The rounded-up time of an elapsed time below half the modulus is below the modulus. -/
theorem round_up_lt {M : Nat} (hp : 0 < p) (hpM : p < M) (he : 2 * e ≤ M) : p * (e ⌈/⌉ p) < M := by
  rcases Nat.lt_or_ge (e ⌈/⌉ p) 2 with hsmall | hlarge
  · have hmul := Nat.mul_le_mul_left p (show e ⌈/⌉ p ≤ 1 by omega)
    omega
  · -- all periods but the last one are over, and they are at least half of all
    obtain ⟨k, hk⟩ : ∃ k, e ⌈/⌉ p = k + 2 := ⟨e ⌈/⌉ p - 2, by omega⟩
    have hover : p * (k + 1) < e := by
      rw [← not_le, ← ceilDiv_le_iff_le_mul hp]
      omega
    rw [hk]
    nlinarith

theorem le_round_up (e : Nat) (hp : 0 < p) : e ≤ p * (e ⌈/⌉ p) := by
  simpa using le_smul_ceilDiv (b := e) hp

theorem round_up_lt_add (e : Nat) (hp : 0 < p) : p * (e ⌈/⌉ p) < e + p := by
  have hdiv := Nat.div_add_mod e p
  have hmod := Nat.mod_lt e hp
  rw [ceilDiv_eq_div_add e hp]
  split
  · omega
  · rw [Nat.mul_add]
    omega

/-- Rounding up changes everything but whole periods. -/
theorem round_up_le_iff (e : Nat) (hp : 0 < p) : p * (e ⌈/⌉ p) ≤ e ↔ p ∣ e := by
  constructor
  · intro h
    exact ⟨e ⌈/⌉ p, le_antisymm (le_round_up e hp) h⟩
  · rintro ⟨k, rfl⟩
    exact Nat.mul_le_mul_left p ((ceilDiv_le_iff_le_mul hp).mpr le_rfl)

/-- **Reduction does not repair a wrong elapsed time.** Computed modulo `M` from `e'` instead of
`e`, the rounded-up time is right exactly when `e'` rounds up to the same number of periods. -/
theorem mod_round_up_eq_iff {e' M : Nat} (hp : 0 < p) (hpM : p < M) (he : 2 * e ≤ M) (he' : e' < M)
    (hzero : e = 0 → e' = 0) : p * (e' ⌈/⌉ p) % M = p * (e ⌈/⌉ p) ↔ e' ⌈/⌉ p = e ⌈/⌉ p := by
  have hlt := round_up_lt hp hpM he
  constructor
  · intro hmod
    rcases Nat.eq_zero_or_pos e' with hz | hpos
    · -- the wrong time is zero, so the right one rounds up to nothing as well
      subst hz
      rw [zero_ceilDiv, Nat.mul_zero, Nat.zero_mod] at hmod
      rw [zero_ceilDiv]
      exact (Nat.mul_eq_zero.mp hmod.symm).elim (by omega) Eq.symm
    · by_cases hfit : p * (e' ⌈/⌉ p) < M
      · rw [Nat.mod_eq_of_lt hfit] at hmod
        exact Nat.eq_of_mul_eq_mul_left hp hmod
      · -- a reduction leaves less than one period, which only an elapsed time of zero rounds to
        have hupper := round_up_lt_add e' hp
        have hred : p * (e' ⌈/⌉ p) % M + M ≤ p * (e' ⌈/⌉ p) := by
          have hdiv := Nat.div_add_mod (p * (e' ⌈/⌉ p)) M
          have hq : 1 ≤ p * (e' ⌈/⌉ p) / M := Nat.div_pos (by omega) (by omega)
          nlinarith
        have hk : e ⌈/⌉ p = 0 := by
          by_contra hne
          have hmul := Nat.mul_le_mul_left p (Nat.pos_of_ne_zero hne)
          omega
        have hezero : e = 0 := by
          have hle := (ceilDiv_le_iff_le_mul hp).mp hk.le
          omega
        exact absurd (hzero hezero) (by omega)
  · intro heq
    rw [heq, Nat.mod_eq_of_lt hlt]

end Periodic
