import Mathlib.Tactic.Linarith
import Mathlib.Tactic.Ring

/-!
# MachineInt — fixed-width integers read as mathematical ones

A C program computes in `Int64`, `UInt64` and their narrower siblings, where every operation
wraps; what one wants to say about it is a statement over `Int`. This module holds the bridge:

* `Fits64` — the integer is the exact value of some `Int64`;
* `toInt_*_of_fits` — an operation whose exact result fits computes that result, so a
  "no intermediate overflows" hypothesis turns a machine expression into plain arithmetic;
* `wrap64` — the two's-complement reduction in a shape `omega` can use
  (`Int.bmod` is opaque to it), and the readings of the casts between signed and unsigned.
-/

namespace MachineInt

/-! ## The signed 64-bit range -/

/-- The exact value `x` is representable as a signed 64-bit integer. -/
abbrev Fits64 (x : Int) : Prop :=
  -9223372036854775808 ≤ x ∧ x < 9223372036854775808

/-- Two's-complement reduction to the signed 64-bit range. -/
def wrap64 (x : Int) : Int :=
  (x + 9223372036854775808) % 18446744073709551616 - 9223372036854775808

theorem bmod_eq_wrap64 (x : Int) : x.bmod (2 ^ 64) = wrap64 x := by
  rw [Int.bmod_def]
  unfold wrap64
  norm_num
  split <;> omega

theorem wrap64_of_fits {x : Int} (h : Fits64 x) : wrap64 x = x := by
  unfold wrap64
  omega

/-- Reduction only sees the residue modulo `2 ^ 64`. -/
theorem wrap64_congr {x y : Int} (h : x % 18446744073709551616 = y % 18446744073709551616) :
    wrap64 x = wrap64 y := by
  unfold wrap64
  omega

/-- Two's-complement reduction to the signed 32-bit range. -/
def wrap32 (x : Int) : Int := (x + 2147483648) % 4294967296 - 2147483648

theorem bmod_eq_wrap32 (x : Int) : x.bmod (2 ^ 32) = wrap32 x := by
  rw [Int.bmod_def]
  unfold wrap32
  norm_num
  split <;> omega

/-- The exact value `x` is representable as a signed 32-bit integer. -/
abbrev Fits32 (x : Int) : Prop := -2147483648 ≤ x ∧ x < 2147483648

variable {a b : Int64} {u : UInt64}

theorem toInt_toInt32_of_fits (h : Fits32 a.toInt) : a.toInt32.toInt = a.toInt := by
  rw [Int64.toInt_toInt32, bmod_eq_wrap32]
  unfold wrap32
  omega

theorem fits32_toInt (a : Int32) : Fits32 a.toInt := by
  have hlo := a.le_toInt
  have hhi := a.toInt_lt
  omega

theorem toInt_ofInt_of_fits {x : Int} (h : Fits64 x) : (Int64.ofInt x).toInt = x := by
  rw [Int64.toInt_ofInt]
  exact (bmod_eq_wrap64 x).trans (wrap64_of_fits h)

theorem fits_toInt (a : Int64) : Fits64 a.toInt := by
  have hlo := a.le_toInt
  have hhi := a.toInt_lt
  omega

/-! ## Operations on `Int64`

Each machine operation is the exact one followed by `wrap64`; when the exact result fits, the
reduction disappears. -/

theorem toInt_add_eq (a b : Int64) : (a + b).toInt = wrap64 (a.toInt + b.toInt) := by
  rw [Int64.toInt_add, bmod_eq_wrap64]

theorem toInt_sub_eq (a b : Int64) : (a - b).toInt = wrap64 (a.toInt - b.toInt) := by
  rw [Int64.toInt_sub, bmod_eq_wrap64]

theorem toInt_mul_eq (a b : Int64) : (a * b).toInt = wrap64 (a.toInt * b.toInt) := by
  rw [Int64.toInt_mul, bmod_eq_wrap64]

theorem toInt_neg_eq (a : Int64) : (-a).toInt = wrap64 (-a.toInt) := by
  rw [Int64.toInt_neg, bmod_eq_wrap64]

theorem toInt_add_of_fits (h : Fits64 (a.toInt + b.toInt)) : (a + b).toInt = a.toInt + b.toInt := by
  rw [toInt_add_eq, wrap64_of_fits h]

theorem toInt_sub_of_fits (h : Fits64 (a.toInt - b.toInt)) : (a - b).toInt = a.toInt - b.toInt := by
  rw [toInt_sub_eq, wrap64_of_fits h]

theorem toInt_mul_of_fits (h : Fits64 (a.toInt * b.toInt)) : (a * b).toInt = a.toInt * b.toInt := by
  rw [toInt_mul_eq, wrap64_of_fits h]

/-- Dividing by a literal of at least two never overflows: C's truncating quotient is exact. -/
theorem toInt_div_of_two_le (hb : 2 ≤ b.toInt) : (a / b).toInt = a.toInt.tdiv b.toInt := by
  rw [Int64.toInt_div, bmod_eq_wrap64]
  apply wrap64_of_fits
  have ha := fits_toInt a
  have habs : (a.toInt.tdiv b.toInt).natAbs ≤ a.toInt.natAbs / 2 := by
    rw [Int.natAbs_tdiv]
    exact Nat.div_le_div_left (by omega) (by decide)
  omega

/-! ## Casts between signed and unsigned words -/

theorem toNat_toUInt64 (a : Int64) : (a.toUInt64.toNat : Int) = a.toInt % 18446744073709551616 := by
  have h : a.toInt = (a.toUInt64.toNat : Int).bmod (2 ^ 64) := by
    show a.toBitVec.toInt = _
    rw [BitVec.toInt_eq_toNat_bmod]
    rfl
  have hlt : a.toUInt64.toNat < 18446744073709551616 := a.toUInt64.toNat_lt
  rw [h, bmod_eq_wrap64]
  unfold wrap64
  omega

theorem toInt_toInt64 (u : UInt64) : u.toInt64.toInt = wrap64 (u.toNat : Int) := by
  rw [← bmod_eq_wrap64]
  show u.toBitVec.toInt = _
  rw [BitVec.toInt_eq_toNat_bmod]
  rfl

theorem toNat_lt (u : UInt64) : u.toNat < 18446744073709551616 := u.toNat_lt

theorem toNat_toUInt64_of_nonneg (h : 0 ≤ a.toInt) : (a.toUInt64.toNat : Int) = a.toInt := by
  have ha := fits_toInt a
  rw [toNat_toUInt64]
  omega

theorem toNat_toUInt32 (u : UInt64) : u.toUInt32.toNat = u.toNat % 4294967296 := by
  simp

theorem toNat_shiftRight {k : UInt64} (hk : k.toNat < 64) :
    (u >>> k).toNat = u.toNat / 2 ^ k.toNat := by
  rw [UInt64.toNat_shiftRight, Nat.mod_eq_of_lt hk, Nat.shiftRight_eq_div_pow]

theorem toNat_shiftLeft_of_lt {k : UInt64} (hk : k.toNat < 64)
    (h : u.toNat * 2 ^ k.toNat < 18446744073709551616) :
    (u <<< k).toNat = u.toNat * 2 ^ k.toNat := by
  rw [UInt64.toNat_shiftLeft, Nat.mod_eq_of_lt hk, Nat.shiftLeft_eq]
  exact Nat.mod_eq_of_lt h

theorem toNat_mul_of_lt {v : UInt64} (h : u.toNat * v.toNat < 18446744073709551616) :
    (u * v).toNat = u.toNat * v.toNat := by
  rw [UInt64.toNat_mul]
  exact Nat.mod_eq_of_lt h

theorem toNat_add_of_lt {v : UInt64} (h : u.toNat + v.toNat < 18446744073709551616) :
    (u + v).toNat = u.toNat + v.toNat := by
  rw [UInt64.toNat_add]
  exact Nat.mod_eq_of_lt h

theorem toNat_shift_count : ∀ k < 64, ((Int64.ofNat k).toBitVec.smod 64).toNat = k := by decide

/-- The right shift of a signed word keeps the sign: it rounds down. -/
theorem toInt_shiftRight (a : Int64) {k : Nat} (hk : k < 64) :
    (a >>> Int64.ofNat k).toInt = a.toInt / 2 ^ k := by
  show (a >>> Int64.ofNat k).toBitVec.toInt = a.toBitVec.toInt / 2 ^ k
  rw [Int64.toBitVec_shiftRight, BitVec.sshiftRight_eq', toNat_shift_count k hk,
    BitVec.toInt_sshiftRight, Int.shiftRight_eq_div_pow]
  norm_cast

end MachineInt
