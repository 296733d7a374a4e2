import Mathlib.Algebra.BigOperators.Group.List.Basic
import Mathlib.Algebra.Order.Ring.Int
import QotStack.Types.Time

/-!
# QotStack — whole computations with time (`qot_types.h`)

A program adds and subtracts many lengths before it compares the result. Every single operation is
exact up to a multiple of `2 ^ 64` seconds, the width of the field (`timepointAdd_residue`,
`timepointSub_residue`, `timelengthAdd_residue`), and keeps the fraction below one second. So a
computation is exact as soon as the last sum is in range, in whatever order the lengths come: a
normalised record is determined by the residue of its value (`Timepoint.eq_of_residue`).

The comparisons return the sign of second minus first. On normalised records that is the order of
the values.
-/

namespace Qot

open MachineInt

/-! ## One operation, up to the width of the seconds -/

/-- The fraction of a sum, and the seconds it carries. -/
theorem timepointAdd_asec (t : Timepoint) (v : Timelength) :
    (timepointAdd t v).asec.toNat
      = (t.asec.toNat + v.asec.toNat) % 18446744073709551616 % 1000000000000000000 := by
  have ha : aSecPerSec.toNat = 1000000000000000000 := rfl
  unfold timepointAdd
  simp only [UInt64.toNat_sub, UInt64.toNat_mul, UInt64.toNat_div, UInt64.toNat_add, ha]
  omega

theorem timepointAdd_sec (t : Timepoint) (v : Timelength) :
    (timepointAdd t v).sec.toInt
      = wrap64 (t.sec.toInt + v.sec.toNat
        + ((t.asec.toNat + v.asec.toNat) % 18446744073709551616 / 1000000000000000000 : Nat)) := by
  have ha : aSecPerSec.toNat = 1000000000000000000 := rfl
  unfold timepointAdd
  simp only [toInt_add_eq, toInt_toInt64, UInt64.toNat_add, UInt64.toNat_div, ha, wrap64]
  omega

/-- Attoseconds after which the seconds of a record repeat. -/
def secondsCycle : Int := 18446744073709551616 * 1000000000000000000

variable {t t1 t2 : Timepoint} {v l1 l2 l : Timelength}

/-- The sum fits its fields: neither the fractions nor the seconds wrap. -/
abbrev SumFits (t : Timepoint) (v : Timelength) : Prop :=
  t.asec.toNat + v.asec.toNat < 18446744073709551616
    ∧ t.sec.toInt + v.sec.toNat + ((t.asec.toNat + v.asec.toNat) / 1000000000000000000 : Nat)
      < 9223372036854775808

/-- **A sum is exact exactly if it fits**, normalised or not. -/
theorem timepointAdd_exact_iff (t : Timepoint) (v : Timelength) :
    (timepointAdd t v).value = t.value + v.value ↔ SumFits t v := by
  have hfit := fits_toInt t.sec
  have ht := toNat_lt t.asec
  have hv := toNat_lt v.asec
  unfold SumFits
  rw [Timepoint.value, Timepoint.value, Timelength.value, timepointAdd_sec, timepointAdd_asec]
  rcases Nat.lt_or_ge (t.asec.toNat + v.asec.toNat) 18446744073709551616 with hlt | hge
  · rw [Nat.mod_eq_of_lt hlt]
    have hwrap : ∀ x : Int, -9223372036854775808 ≤ x →
        (wrap64 x = x ↔ x < 9223372036854775808) := by
      intro x hx
      unfold wrap64
      omega
    generalize hsum : t.asec.toNat + v.asec.toNat = sum at hlt
    have hsec : -9223372036854775808
        ≤ t.sec.toInt + v.sec.toNat + (sum / 1000000000000000000 : Nat) := by omega
    rw [and_iff_right hlt, ← hwrap _ hsec]
    generalize wrap64 _ = sec
    -- seconds and fraction of the sum
    have hdiv := Nat.div_add_mod sum 1000000000000000000
    clear hwrap hfit ht hv hlt hsec
    constructor
    · intro h
      omega
    · intro h
      omega
  · -- what the fractions lose is no number of seconds
    refine iff_of_false ?_ (by omega)
    have hrest : ∃ rest : Nat, t.asec.toNat + v.asec.toNat = 18446744073709551616 + rest
        ∧ rest < 18446744073709551616 :=
          ⟨t.asec.toNat + v.asec.toNat - 18446744073709551616, by omega⟩
    obtain ⟨rest, hsum, hlt⟩ := hrest
    rw [hsum, Nat.add_mod_left, Nat.mod_eq_of_lt hlt]
    have hdiv := Nat.div_add_mod rest 1000000000000000000
    generalize wrap64 _ = sec
    generalize rest % 1000000000000000000 = fraction at hdiv
    generalize rest / 1000000000000000000 = whole at hdiv
    clear hfit ht hv hge hlt
    intro h
    omega

theorem timepointAdd_residue (ht : t.Normalised) (hv : v.Normalised) :
    (timepointAdd t v).Normalised
      ∧ (timepointAdd t v).value % secondsCycle = (t.value + v.value) % secondsCycle := by
  have ha : aSecPerSec.toNat = 1000000000000000000 := rfl
  unfold Timepoint.Normalised Timelength.Normalised Timepoint.value Timelength.value
    timepointAdd secondsCycle at *
  simp only [toInt_add_eq, toInt_toInt64, UInt64.toNat_add, UInt64.toNat_sub, UInt64.toNat_mul,
    UInt64.toNat_div, ha, wrap64]
  omega

theorem timepointSub_residue (ht : t.Normalised) (hv : v.Normalised) :
    (timepointSub t v).Normalised
      ∧ (timepointSub t v).value % secondsCycle = (t.value - v.value) % secondsCycle := by
  have ha : aSecPerSec.toNat = 1000000000000000000 := rfl
  have h1 : (1 : Int64).toInt = 1 := rfl
  unfold Timepoint.Normalised Timelength.Normalised Timepoint.value Timelength.value
    timepointSub secondsCycle at *
  -- borrow a second exactly when the fractional part runs short
  by_cases hlt : t.asec < v.asec
  · rw [if_pos hlt]
    rw [UInt64.lt_iff_toNat_lt] at hlt
    simp only [toInt_sub_eq, toInt_toInt64, UInt64.toNat_sub, ha, h1, wrap64]
    omega
  · rw [if_neg hlt]
    rw [UInt64.lt_iff_toNat_lt] at hlt
    simp only [toInt_sub_eq, toInt_toInt64, UInt64.toNat_sub, wrap64]
    omega

theorem timelengthAdd_residue (h1 : l1.Normalised) (h2 : l2.Normalised) :
    (timelengthAdd l1 l2).Normalised
      ∧ (timelengthAdd l1 l2).value % secondsCycle = (l1.value + l2.value) % secondsCycle := by
  have ha : aSecPerSec.toNat = 1000000000000000000 := rfl
  unfold Timelength.Normalised Timelength.value timelengthAdd secondsCycle at *
  simp only [UInt64.toNat_add, UInt64.toNat_sub, UInt64.toNat_mul, UInt64.toNat_div, ha]
  omega

/-! ## Records and residues -/

/-- The value has its seconds in the range of the signed field. -/
abbrev PointInRange (x : Int) : Prop := Fits64 (x / 1000000000000000000)

/-- The value has its seconds in the range of the unsigned field. -/
def LengthInRange (x : Int) : Prop := 0 ≤ x ∧ x / 1000000000000000000 < 18446744073709551616

theorem Timepoint.value_inRange (h : t.Normalised) : PointInRange t.value := by
  have hsec := fits_toInt t.sec
  unfold Timepoint.value
  omega

theorem Timelength.value_inRange (h : l.Normalised) : LengthInRange l.value := by
  have hsec := toNat_lt l.sec
  unfold LengthInRange Timelength.value
  omega

/-- In range, the residue is the value. -/
theorem Timepoint.value_eq_of_residue {x : Int} (h : t.Normalised) (hx : PointInRange x)
    (hres : t.value % secondsCycle = x % secondsCycle) : t.value = x := by
  have ht := t.value_inRange h
  unfold secondsCycle at hres
  omega

theorem Timelength.value_eq_of_residue {x : Int} (h : l.Normalised) (hx : LengthInRange x)
    (hres : l.value % secondsCycle = x % secondsCycle) : l.value = x := by
  have hl := l.value_inRange h
  unfold LengthInRange at hl hx
  unfold secondsCycle at hres
  omega

theorem Timepoint.value_inj (h1 : t1.Normalised) (h2 : t2.Normalised) (h : t1.value = t2.value) :
    t1 = t2 := by
  unfold Timepoint.value at h
  have hsec : t1.sec = t2.sec := Int64.toInt_inj.mp (by omega)
  have hasec : t1.asec = t2.asec := UInt64.toNat_inj.mp (by omega)
  cases t1
  cases t2
  simp_all

theorem Timelength.value_inj (h1 : l1.Normalised) (h2 : l2.Normalised) (h : l1.value = l2.value) :
    l1 = l2 := by
  unfold Timelength.value at h
  have hsec : l1.sec = l2.sec := UInt64.toNat_inj.mp (by omega)
  have hasec : l1.asec = l2.asec := UInt64.toNat_inj.mp (by omega)
  cases l1
  cases l2
  simp_all

/-- **A normalised point is known by its residue.** -/
theorem Timepoint.eq_of_residue (h1 : t1.Normalised) (h2 : t2.Normalised)
    (hres : t1.value % secondsCycle = t2.value % secondsCycle) : t1 = t2 :=
  Timepoint.value_inj h1 h2 (t1.value_eq_of_residue h1 (t2.value_inRange h2) hres)

theorem Timelength.eq_of_residue (h1 : l1.Normalised) (h2 : l2.Normalised)
    (hres : l1.value % secondsCycle = l2.value % secondsCycle) : l1 = l2 :=
  Timelength.value_inj h1 h2 (l1.value_eq_of_residue h1 (l2.value_inRange h2) hres)

/-! ## Sequences of operations -/

/-- One call on a time point. -/
inductive TimepointOp where
  | add (v : Timelength)
  | sub (v : Timelength)
  deriving DecidableEq, Repr

def TimepointOp.apply (t : Timepoint) : TimepointOp → Timepoint
  | .add v => timepointAdd t v
  | .sub v => timepointSub t v

/-- What the call adds, in attoseconds. -/
def TimepointOp.shift : TimepointOp → Int
  | .add v => v.value
  | .sub v => -v.value

def TimepointOp.Normalised : TimepointOp → Prop
  | .add v => v.Normalised
  | .sub v => v.Normalised

instance (op : TimepointOp) : Decidable op.Normalised := by
  unfold TimepointOp.Normalised; split <;> infer_instance

/-- The point after a sequence of calls. -/
def timepointRun (t : Timepoint) (ops : List TimepointOp) : Timepoint :=
  ops.foldl TimepointOp.apply t

/-- The length after a sequence of calls of `timelength_add`. -/
def timelengthRun (l : Timelength) (ls : List Timelength) : Timelength := ls.foldl timelengthAdd l

def totalShift (ops : List TimepointOp) : Int := (ops.map TimepointOp.shift).sum

def totalLength (ls : List Timelength) : Int := (ls.map Timelength.value).sum

theorem TimepointOp.apply_residue {op : TimepointOp} (ht : t.Normalised) (hop : op.Normalised) :
    (op.apply t).Normalised
      ∧ (op.apply t).value % secondsCycle = (t.value + op.shift) % secondsCycle := by
  cases op with
  | add v => exact timepointAdd_residue ht hop
  | sub v =>
    rw [TimepointOp.shift, ← sub_eq_add_neg]
    exact timepointSub_residue ht hop

variable {ops : List TimepointOp} {ls : List Timelength}

/-- **The residue of a sequence** is the residue of the exact sum. -/
theorem timepointRun_residue (ht : t.Normalised) (hops : ∀ op ∈ ops, op.Normalised) :
    (timepointRun t ops).Normalised
      ∧ (timepointRun t ops).value % secondsCycle = (t.value + totalShift ops) % secondsCycle := by
  induction ops generalizing t with
  | nil =>
    refine ⟨ht, ?_⟩
    show t.value % secondsCycle = (t.value + 0) % secondsCycle
    rw [add_zero]
  | cons op ops ih =>
    obtain ⟨hnorm, hone⟩ := TimepointOp.apply_residue ht (hops op List.mem_cons_self)
    obtain ⟨hrun, hrest⟩ := ih hnorm fun op' hop' => hops op' (List.mem_cons_of_mem _ hop')
    refine ⟨hrun, ?_⟩
    show (timepointRun (op.apply t) ops).value % secondsCycle = _
    have htotal : totalShift (op :: ops) = op.shift + totalShift ops := by
      simp [totalShift]
    rw [hrest, htotal]
    calc ((op.apply t).value + totalShift ops) % secondsCycle
        = ((op.apply t).value % secondsCycle + totalShift ops) % secondsCycle := by
          rw [Int.emod_add_emod]
      _ = (t.value + (op.shift + totalShift ops)) % secondsCycle := by
          rw [hone, Int.emod_add_emod, add_assoc]

theorem timelengthRun_residue (hl : l.Normalised) (hls : ∀ l' ∈ ls, l'.Normalised) :
    (timelengthRun l ls).Normalised
      ∧ (timelengthRun l ls).value % secondsCycle = (l.value + totalLength ls) % secondsCycle := by
  induction ls generalizing l with
  | nil =>
    refine ⟨hl, ?_⟩
    show l.value % secondsCycle = (l.value + 0) % secondsCycle
    rw [add_zero]
  | cons l' ls ih =>
    obtain ⟨hnorm, hone⟩ := timelengthAdd_residue hl (hls l' List.mem_cons_self)
    obtain ⟨hrun, hrest⟩ := ih hnorm fun l'' hl'' => hls l'' (List.mem_cons_of_mem _ hl'')
    refine ⟨hrun, ?_⟩
    show (timelengthRun (timelengthAdd l l') ls).value % secondsCycle = _
    have htotal : totalLength (l' :: ls) = l'.value + totalLength ls := by
      simp [totalLength]
    rw [hrest, htotal]
    calc ((timelengthAdd l l').value + totalLength ls) % secondsCycle
        = ((timelengthAdd l l').value % secondsCycle + totalLength ls) % secondsCycle := by
          rw [Int.emod_add_emod]
      _ = (l.value + (l'.value + totalLength ls)) % secondsCycle := by
          rw [hone, Int.emod_add_emod, add_assoc]

theorem totalShift_perm {ops' : List TimepointOp} (h : ops'.Perm ops) :
    totalShift ops' = totalShift ops :=
  (h.map _).sum_eq

theorem totalLength_perm {ls' : List Timelength} (h : ls'.Perm ls) :
    totalLength ls' = totalLength ls :=
  (h.map _).sum_eq

/-! ## Comparisons -/

/-- The comparison is the sign of the difference. -/
theorem timepointCmp_eq_sign (h1 : t1.Normalised) (h2 : t2.Normalised) :
    timepointCmp t1 t2 = (t2.value - t1.value).sign := by
  rcases timepointCmp_cases t1 t2 with ⟨hcmp, hlt⟩ | ⟨hcmp, heq⟩ | ⟨hcmp, hlt⟩
  · rw [Timepoint.rank_lt_iff_value_lt h1 h2] at hlt
    rw [hcmp, Int.sign_eq_one_of_pos (by omega)]
  · rw [hcmp, heq, sub_self, Int.sign_zero]
  · rw [Timepoint.rank_lt_iff_value_lt h2 h1] at hlt
    rw [hcmp, Int.sign_eq_neg_one_of_neg (by omega)]

theorem timelengthCmp_eq_sign (h1 : l1.Normalised) (h2 : l2.Normalised) :
    timelengthCmp l1 l2 = (l2.value - l1.value).sign := by
  unfold timelengthCmp Timelength.value
  simp only [gt_iff_lt, UInt64.lt_iff_toNat_lt]
  split
  · exact (Int.sign_eq_neg_one_of_neg (by omega)).symm
  split
  · exact (Int.sign_eq_one_of_pos (by omega)).symm
  split
  · exact (Int.sign_eq_neg_one_of_neg (by omega)).symm
  split
  · exact (Int.sign_eq_one_of_pos (by omega)).symm
  · rw [eq_comm, Int.sign_eq_zero_iff_zero]
    omega

/-- The comparison is negative where the first length is the longer one. -/
def timelengthMax (l1 l2 : Timelength) : Timelength := if timelengthCmp l1 l2 < 0 then l1 else l2

def timelengthMin (l1 l2 : Timelength) : Timelength := if timelengthCmp l1 l2 > 0 then l1 else l2

section MaxMin

variable {l1 l2 : Timelength} (h1 : l1.Normalised) (h2 : l2.Normalised)

include h1 h2

theorem timelengthMax_value : (timelengthMax l1 l2).value = max l1.value l2.value := by
  unfold timelengthMax
  simp only [timelengthCmp_eq_sign h1 h2, Int.sign_neg_iff]
  split <;> omega

theorem timelengthMin_value : (timelengthMin l1 l2).value = min l1.value l2.value := by
  unfold timelengthMin
  simp only [timelengthCmp_eq_sign h1 h2, gt_iff_lt, Int.sign_pos_iff]
  split <;> omega

end MaxMin

/-! ## The contract -/

/-- Points: a sequence of calls is exact whenever its exact sum is in range, in any order. -/
theorem timepointRun_exact (ht : t.Normalised) (hops : ∀ op ∈ ops, op.Normalised)
    (hrange : PointInRange (t.value + totalShift ops)) :
    (timepointRun t ops).Normalised ∧ (timepointRun t ops).value = t.value + totalShift ops
      ∧ ∀ ops' : List TimepointOp, ops'.Perm ops → timepointRun t ops' = timepointRun t ops := by
  obtain ⟨hnorm, hres⟩ := timepointRun_residue ht hops
  refine ⟨hnorm, (timepointRun t ops).value_eq_of_residue hnorm hrange hres, ?_⟩
  intro ops' hperm
  obtain ⟨hnorm', hres'⟩ := timepointRun_residue ht fun op hop => hops op (hperm.mem_iff.mp hop)
  apply Timepoint.eq_of_residue hnorm' hnorm
  rw [hres', hres, totalShift_perm hperm]

theorem timelengthRun_exact (hl : l.Normalised) (hls : ∀ l' ∈ ls, l'.Normalised)
    (hrange : LengthInRange (l.value + totalLength ls)) :
    (timelengthRun l ls).Normalised ∧ (timelengthRun l ls).value = l.value + totalLength ls
      ∧ ∀ ls' : List Timelength, ls'.Perm ls → timelengthRun l ls' = timelengthRun l ls := by
  obtain ⟨hnorm, hres⟩ := timelengthRun_residue hl hls
  refine ⟨hnorm, (timelengthRun l ls).value_eq_of_residue hnorm hrange hres, ?_⟩
  intro ls' hperm
  obtain ⟨hnorm', hres'⟩ := timelengthRun_residue hl fun l' hl' => hls l' (hperm.mem_iff.mp hl')
  apply Timelength.eq_of_residue hnorm' hnorm
  rw [hres', hres, totalLength_perm hperm]

theorem timepointCmp_add (h1 : t1.Normalised) (h2 : t2.Normalised) (hv : v.Normalised)
    (hr1 : PointInRange (t1.value + v.value)) (hr2 : PointInRange (t2.value + v.value)) :
    timepointCmp (timepointAdd t1 v) (timepointAdd t2 v) = timepointCmp t1 t2 := by
  obtain ⟨hn1, hres1⟩ := timepointAdd_residue h1 hv
  obtain ⟨hn2, hres2⟩ := timepointAdd_residue h2 hv
  rw [timepointCmp_eq_sign hn1 hn2, timepointCmp_eq_sign h1 h2,
    Timepoint.value_eq_of_residue hn1 hr1 hres1, Timepoint.value_eq_of_residue hn2 hr2 hres2]
  congr 1
  omega

/-- **Time arithmetic is exact and ordered.** A sequence of additions and subtractions, of
additions of lengths, and the comparisons, with the order kept by adding one length to both
sides. -/
theorem time_arithmetic_exact (t t' : Timepoint) (ops : List TimepointOp) (l : Timelength)
    (ls : List Timelength) (v : Timelength) (ht : t.Normalised) (ht' : t'.Normalised)
    (hops : ∀ op ∈ ops, op.Normalised) (hl : l.Normalised) (hls : ∀ l' ∈ ls, l'.Normalised)
    (hv : v.Normalised) :
    (PointInRange (t.value + totalShift ops) →
        (timepointRun t ops).Normalised ∧ (timepointRun t ops).value = t.value + totalShift ops
          ∧ ∀ ops' : List TimepointOp, ops'.Perm ops → timepointRun t ops' = timepointRun t ops)
      ∧ (LengthInRange (l.value + totalLength ls) →
        (timelengthRun l ls).Normalised ∧ (timelengthRun l ls).value = l.value + totalLength ls
          ∧ ∀ ls' : List Timelength, ls'.Perm ls → timelengthRun l ls' = timelengthRun l ls)
      ∧ timepointCmp t t' = (t'.value - t.value).sign
      ∧ timelengthCmp l v = (v.value - l.value).sign
      ∧ (PointInRange (t.value + v.value) → PointInRange (t'.value + v.value) →
        timepointCmp (timepointAdd t v) (timepointAdd t' v) = timepointCmp t t') :=
  ⟨timepointRun_exact ht hops, timelengthRun_exact hl hls, timepointCmp_eq_sign ht ht',
    timelengthCmp_eq_sign hl hv, timepointCmp_add ht ht' hv⟩

/-- Half a second before the reference, with a carry and a borrow over it. -/
def halfBefore : Timepoint := ⟨-1, 500000000000000000⟩

def carryAndBorrow : List TimepointOp :=
  [.add ⟨0, 700000000000000000⟩, .sub ⟨1, 900000000000000000⟩]

theorem time_arithmetic_exact_over_zero :
    (PointInRange (halfBefore.value + totalShift carryAndBorrow)
      ∧ (timepointRun halfBefore carryAndBorrow).value = -1700000000000000000)
      ∧ timepointCmp halfBefore ⟨0, 0⟩ = 1
      ∧ timepointCmp (timepointAdd halfBefore ⟨1, 0⟩) (timepointAdd ⟨0, 0⟩ ⟨1, 0⟩) = 1 := by
  have h := time_arithmetic_exact halfBefore ⟨0, 0⟩ carryAndBorrow ⟨0, 0⟩ [] ⟨1, 0⟩ (by decide)
    (by decide) (by decide) (by decide) (by decide) (by decide)
  have hrange : PointInRange (halfBefore.value + totalShift carryAndBorrow) := by decide
  have hcmp : timepointCmp halfBefore ⟨0, 0⟩ = 1 := h.2.2.1.trans (by decide)
  refine ⟨⟨hrange, (h.1 hrange).2.1.trans (by decide)⟩, hcmp, ?_⟩
  exact (h.2.2.2.2 (by decide) (by decide)).trans hcmp

end Qot
