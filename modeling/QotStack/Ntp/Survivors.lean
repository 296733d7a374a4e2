import Mathlib.Algebra.Order.BigOperators.Group.List
import Mathlib.Data.List.Basic
import Mathlib.Tactic.Linarith
import QotStack.Lib.Loop
import QotStack.Lib.MachineInt
import QotStack.Lib.SelectionSort

/-!
# QotStack — the clustering of the survivors (`ntp_process` in `algorithm.c`)

The servers whose offset is in the selection are the survivors. They are sorted by weight, and as
long as there are more than three of them the one that is farthest from the others, by the sum `phi`
of the squared differences, should be removed. Two things are in the way of that.

* The index of the farthest is only set where its sum is larger than the first one's, and it is not
  cleared before a round. When the first survivor is the farthest, the index is the one of the round
  before.
* The loop that should move the survivors behind the index down by one copies the next one to the
  index each time.

`cluster_outliers_iff` says when every round removes an outlier all the same. How many survivors are
left in the end does not depend on it.
-/

namespace Qot.Ntp

open MachineInt SelectionSort Loop

structure Survivor where
  stratum : Int32
  offset : Int64
  rootDist : Int64
  weight : Int64
  deriving DecidableEq, Repr

def nMinSurvivor : Nat := 3

def sortSurvivors (survList : List Survivor) : List Survivor :=
  selectionSort (·.weight.toInt) survList

/-- The inner loop, from position `j` on. -/
def phiFrom (si : Int64) (i : Nat) : Nat → List Survivor → Int64 → Int64
  | _, [], phi => phi
  | j, s :: rest, phi =>
    phiFrom si i (j + 1) rest (if i ≠ j then phi + (si - s.offset) * (si - s.offset) else phi)

structure Jitters where
  maxJitter : Int64
  minJitter : Int64
  maxIndex : Nat
  minIndex : Nat
  deriving DecidableEq, Repr

def Jitters.visit (js : Jitters) (i : Nat) (phi : Int64) : Jitters :=
  if i = 0 then { js with maxJitter := phi, minJitter := phi }
  else if phi > js.maxJitter then { js with maxJitter := phi, maxIndex := i }
  else if phi < js.minJitter then { js with minJitter := phi, minIndex := i }
  else js

/-- The outer loop of a round, from position `i` on. -/
def jittersFrom (survList : List Survivor) : Nat → List Survivor → Jitters → Jitters
  | _, [], js => js
  | i, s :: rest, js => jittersFrom survList (i + 1) rest
      (js.visit i (phiFrom s.offset i 0 survList 0))

/-- `surv_list[maxIndex] = surv_list[maxIndex+1]`. -/
def copyNext (maxIndex : Nat) (survList : List Survivor) : List Survivor :=
  survList[maxIndex + 1]?.elim survList fun next => survList.set maxIndex next

/-- The loop that removes a survivor. Its counter does not occur in its body. -/
def removeSurvivor (maxIndex : Nat) (survList : List Survivor) : List Survivor :=
  ((copyNext maxIndex)^[survList.length - 1 - maxIndex] survList).dropLast

/-- The variables of the clustering loop. -/
structure Cluster where
  survList : List Survivor
  jitters : Jitters
  deriving DecidableEq, Repr

def clusterStep (c : Cluster) : Option Cluster :=
  let js := jittersFrom c.survList 0 c.survList c.jitters
  -- the first test never holds: see `jittersFrom_le`
  if js.maxJitter < js.minJitter ∨ c.survList.length ≤ nMinSurvivor then none
  else some ⟨removeSurvivor js.maxIndex c.survList, js⟩

def clusterStart (survList : List Survivor) : Cluster := ⟨sortSurvivors survList, ⟨0, 0, 0, 0⟩⟩

/-! ## The rounds -/

theorem visit_le {js : Jitters} {i : Nat} (phi : Int64)
    (h : i = 0 ∨ js.minJitter.toInt ≤ js.maxJitter.toInt) :
    (js.visit i phi).minJitter.toInt ≤ (js.visit i phi).maxJitter.toInt := by
  unfold Jitters.visit
  simp only [gt_iff_lt, Int64.lt_iff_toInt_lt]
  split
  · exact le_refl _
  · split
    · show js.minJitter.toInt ≤ phi.toInt
      omega
    · split
      · show phi.toInt ≤ js.maxJitter.toInt
        omega
      · omega

/-- The largest sum is never smaller than the smallest. -/
theorem jittersFrom_le (survList : List Survivor) {rest : List Survivor} {i : Nat} {js : Jitters}
    (h : i = 0 ∧ rest ≠ [] ∨ js.minJitter.toInt ≤ js.maxJitter.toInt) :
    (jittersFrom survList i rest js).minJitter.toInt
      ≤ (jittersFrom survList i rest js).maxJitter.toInt := by
  induction rest generalizing i js with
  | nil =>
    rcases h with ⟨-, hnil⟩ | h
    · exact absurd rfl hnil
    · exact h
  | cons s rest ih => exact ih (Or.inr (visit_le _ (h.imp_left And.left)))

theorem getElem?_copyNext (k j : Nat) (survList : List Survivor) :
    (copyNext k survList)[j]?
      = if j = k ∧ k + 1 < survList.length then survList[k + 1]? else survList[j]? := by
  unfold copyNext
  by_cases hk : k + 1 < survList.length
  · rw [List.getElem?_eq_getElem hk]
    show (survList.set k survList[k + 1])[j]? = _
    rw [List.getElem?_set]
    by_cases hj : k = j
    · rw [if_pos hj, if_pos (by omega), if_pos ⟨hj.symm, hk⟩]
    · rw [if_neg hj, if_neg fun h => hj h.1.symm]
  · have hnone : survList[k + 1]? = none := List.getElem?_eq_none (by omega)
    rw [hnone, if_neg fun h => hk h.2]
    rfl

theorem length_copyNext (k : Nat) (survList : List Survivor) :
    (copyNext k survList).length = survList.length := by
  unfold copyNext
  cases survList[k + 1]? with
  | none => rfl
  | some next => exact List.length_set

/-- The copies after the first change nothing. -/
theorem iterate_copyNext (k n : Nat) (survList : List Survivor) :
    (copyNext k)^[n + 1] survList = copyNext k survList := by
  rw [Function.iterate_succ_apply]
  apply Function.iterate_fixed
  apply List.ext_getElem?
  intro j
  simp only [getElem?_copyNext, length_copyNext]
  -- the survivor that is copied is not the one that is overwritten
  split
  · rw [if_neg (by omega)]
  · rfl

theorem length_removeSurvivor (k : Nat) (survList : List Survivor) :
    (removeSurvivor k survList).length = survList.length - 1 := by
  unfold removeSurvivor
  rw [List.length_dropLast]
  cases survList.length - 1 - k with
  | zero => rfl
  | succ n => rw [iterate_copyNext, length_copyNext]

variable {survList l l' : List Survivor} {c c' : Cluster}

/-- The last survivor is gone, and the one behind the index is in two places. -/
theorem getElem?_removeSurvivor {k j : Nat} (hj : j + 1 < survList.length) :
    (removeSurvivor k survList)[j]?
      = if j = k ∧ k + 1 < survList.length then survList[k + 1]? else survList[j]? := by
  unfold removeSurvivor
  rw [List.getElem?_dropLast]
  cases hn : survList.length - 1 - k with
  | zero =>
    show (if j < survList.length - 1 then survList[j]? else none) = _
    rw [if_pos (by omega), if_neg (by omega)]
  | succ n =>
    rw [iterate_copyNext, length_copyNext, if_pos (by omega), getElem?_copyNext]

/-- A round is made while there are more than three survivors. -/
theorem clusterStep_eq_some_iff :
    clusterStep c = some c'
      ↔ nMinSurvivor < c.survList.length
        ∧ c' = ⟨removeSurvivor (jittersFrom c.survList 0 c.survList c.jitters).maxIndex c.survList,
          jittersFrom c.survList 0 c.survList c.jitters⟩ := by
  unfold clusterStep
  by_cases hlen : c.survList.length ≤ nMinSurvivor
  · simp only [hlen, or_true, if_true, not_lt.2 hlen, false_and, reduceCtorEq]
  · have hle := @jittersFrom_le c.survList c.survList 0 c.jitters
      (Or.inl ⟨rfl, fun hnil => hlen (by rw [hnil]; decide)⟩)
    have hnot : ¬ (jittersFrom c.survList 0 c.survList c.jitters).maxJitter
        < (jittersFrom c.survList 0 c.survList c.jitters).minJitter := by
      rw [Int64.lt_iff_toInt_lt]
      omega
    simp only [hnot, hlen, or_self, if_false, not_le.1 hlen, true_and, Option.some.injEq, eq_comm]

theorem clusterStep_eq_none_iff : clusterStep c = none ↔ c.survList.length ≤ nMinSurvivor := by
  rw [← not_iff_not, ← ne_eq, Option.ne_none_iff_exists']
  constructor
  · rintro ⟨c', h⟩
    exact not_le.2 (clusterStep_eq_some_iff.1 h).1
  · intro h
    exact ⟨_, clusterStep_eq_some_iff.2 ⟨not_le.1 h, rfl⟩⟩

/-! ## How many are left -/

theorem clusterStep_length (h : clusterStep c = some c') :
    nMinSurvivor < c.survList.length ∧ c'.survList.length + 1 = c.survList.length := by
  obtain ⟨hlen, rfl⟩ := clusterStep_eq_some_iff.1 h
  refine ⟨hlen, ?_⟩
  show (removeSurvivor _ c.survList).length + 1 = c.survList.length
  rw [length_removeSurvivor]
  omega

theorem cluster_ends (c : Cluster) : Ends clusterStep c := by
  refine ends_of_decreasing Nat.lt_wfRel.wf (fun c => c.survList.length) fun a b _ hab => ?_
  have hlen := clusterStep_length hab
  show b.survList.length < a.survList.length
  omega

/-- **The number of survivors in the end.** -/
theorem length_of_endsIn {e : Cluster} (h : EndsIn clusterStep c e) :
    e.survList.length = min c.survList.length nMinSurvivor := by
  have hend := clusterStep_eq_none_iff.1 h.2
  have hreached : min c.survList.length nMinSurvivor ≤ e.survList.length
      ∧ e.survList.length ≤ c.survList.length := by
    apply reaches_induction (I := fun a => min c.survList.length nMinSurvivor ≤ a.survList.length
      ∧ a.survList.length ≤ c.survList.length) ⟨min_le_left _ _, le_refl _⟩ _ h.1
    intro a b ha hab
    have hlen := clusterStep_length hab
    omega
  omega

/-! ## The outlier -/

/-- The sum of the squared differences to an offset. -/
def distSum (survList : List Survivor) (x : Int) : Int :=
  (survList.map fun s => (x - s.offset.toInt) * (x - s.offset.toInt)).sum

/-- The survivor at `r` is farthest from the others. -/
def Farthest (survList : List Survivor) (r : Nat) : Prop :=
  ∃ s, survList[r]? = some s ∧ ∀ t ∈ survList, distSum survList t.offset.toInt
    ≤ distSum survList s.offset.toInt

/-- What a round should do. -/
def RemovesOutlier (survList survList' : List Survivor) : Prop :=
  ∃ r, Farthest survList r ∧ survList' = survList.eraseIdx r

/-- The survivors behind the index are all the same. -/
def SameBehind (survList : List Survivor) (k : Nat) : Prop :=
  ∀ j < survList.length, k < j → survList[j]? = survList[k + 1]?

/-- The index a round ends with: that of the first survivor farthest from the others. If it is the
first of all, the index of the round before stays. -/
def roundIndex (survList : List Survivor) (previous : Nat) : Nat :=
  let r := survList.findIdx fun s =>
    ∀ t ∈ survList, distSum survList t.offset.toInt ≤ distSum survList s.offset.toInt
  if r = 0 then previous else r

/-- The index is right, and so is what the loop that removes a survivor does there. -/
def SoundRound (survList : List Survivor) (k : Nat) : Prop :=
  if k + 1 < survList.length then
    (Farthest survList 0 → Farthest survList k) ∧ SameBehind survList k
      ∨ survList[k]? = survList[k + 1]? ∧ Farthest survList (survList.length - 1)
  else Farthest survList 0 → Farthest survList (survList.length - 1)

theorem Farthest.congr {r r' : Nat} (h : Farthest survList r) (heq : survList[r]? = survList[r']?) :
    Farthest survList r' := by
  obtain ⟨s, hs, hmax⟩ := h
  exact ⟨s, heq ▸ hs, hmax⟩

theorem Farthest.lt {r : Nat} (h : Farthest survList r) : r < survList.length := by
  obtain ⟨s, hs, -⟩ := h
  exact (List.getElem?_eq_some_iff.1 hs).1

section Run

variable {α : Type} {l l' : List α}

/-- Neighbours that are the same all the way make a run. -/
theorem getElem?_eq_of_run {a b : Nat} (hab : a ≤ b) (h : ∀ j, a ≤ j → j < b → l[j]? = l[j + 1]?) :
    l[a]? = l[b]? := by
  induction b, hab using Nat.le_induction with
  | base => rfl
  | succ b hab ih =>
    rw [ih fun j haj hjb => h j haj (by omega)]
    exact h b hab (by omega)

theorem eq_eraseIdx_iff {r : Nat} (hr : r < l.length) (hlen : l'.length = l.length - 1) :
    l' = l.eraseIdx r ↔ ∀ j, j + 1 < l.length → l'[j]? = if j < r then l[j]? else l[j + 1]? := by
  constructor
  · rintro rfl j -
    exact List.getElem?_eraseIdx
  · intro h
    apply List.ext_getElem?
    intro j
    by_cases hj : j + 1 < l.length
    · rw [h j hj]
      exact List.getElem?_eraseIdx.symm
    · rw [List.getElem?_eq_none (by omega), List.getElem?_eq_none]
      rw [List.length_eraseIdx_of_lt hr]
      omega

end Run

section Removal

variable {survList : List Survivor} {k : Nat}

/-- With the index behind the last but one, the last is removed. -/
theorem removesOutlier_last_iff (hne : survList ≠ []) (hk : ¬ k + 1 < survList.length) :
    RemovesOutlier survList (removeSurvivor k survList)
      ↔ Farthest survList (survList.length - 1) := by
  have hpos := List.length_pos_iff.2 hne
  have hlen := length_removeSurvivor k survList
  have hget : ∀ j, j + 1 < survList.length → (removeSurvivor k survList)[j]? = survList[j]? := by
    intro j hj
    rw [getElem?_removeSurvivor hj, if_neg fun h => hk h.2]
  constructor
  · rintro ⟨r, hfar, heq⟩
    rw [eq_eraseIdx_iff hfar.lt hlen] at heq
    refine hfar.congr (getElem?_eq_of_run (by have := hfar.lt; omega) fun j hrj hj => ?_)
    rw [← hget j (by omega), heq j (by omega), if_neg (by omega)]
  · intro hfar
    refine ⟨survList.length - 1, hfar, (eq_eraseIdx_iff (by omega) hlen).2 fun j hj => ?_⟩
    rw [hget j hj, if_pos (by omega)]

/-- With the index in front of others, an outlier is removed if the others are all the same, or if
the last one is an outlier and the copy changes nothing. -/
theorem removesOutlier_iff (hk : k + 1 < survList.length) :
    RemovesOutlier survList (removeSurvivor k survList)
      ↔ Farthest survList k ∧ SameBehind survList k
        ∨ survList[k]? = survList[k + 1]? ∧ Farthest survList (survList.length - 1) := by
  have hlen := length_removeSurvivor k survList
  have hat : (removeSurvivor k survList)[k]? = survList[k + 1]? := by
    rw [getElem?_removeSurvivor hk, if_pos ⟨rfl, hk⟩]
  have hget : ∀ j, j + 1 < survList.length → j ≠ k →
      (removeSurvivor k survList)[j]? = survList[j]? := by
    intro j hj hjk
    rw [getElem?_removeSurvivor hj, if_neg fun h => hjk h.1]
  constructor
  · rintro ⟨r, hfar, heq⟩
    rw [eq_eraseIdx_iff hfar.lt hlen] at heq
    -- behind `r`, and not at `k`, neighbours are the same
    have hrun : ∀ j, r ≤ j → j + 1 < survList.length → j ≠ k → survList[j]? = survList[j + 1]? := by
      intro j hrj hj hjk
      rw [← hget j hj hjk, heq j hj, if_neg (by omega)]
    by_cases hrk : r ≤ k
    · -- `r` and `k` are in one run, and the survivors behind `k` are another
      refine Or.inl ⟨hfar.congr (getElem?_eq_of_run hrk fun j hrj hjk => ?_), fun j hj hkj => ?_⟩
      · exact hrun j hrj (by omega) (by omega)
      · refine (getElem?_eq_of_run hkj fun i hki hij => ?_).symm
        exact hrun i (by omega) (by omega) (by omega)
    · -- the place of `k` is before the removed one, and unchanged
      refine Or.inr ⟨?_,
        hfar.congr (getElem?_eq_of_run (by have := hfar.lt; omega) fun j hrj hj => ?_)⟩
      · rw [← hat, heq k hk, if_pos (by omega)]
      · exact hrun j hrj (by omega) (by omega)
  · rintro (⟨hfar, hsame⟩ | ⟨hnext, hfar⟩)
    · refine ⟨k, hfar, (eq_eraseIdx_iff (by omega) hlen).2 fun j hj => ?_⟩
      rcases lt_trichotomy j k with hjk | rfl | hkj
      · rw [hget j hj (by omega), if_pos hjk]
      · rw [hat, if_neg (lt_irrefl _)]
      · rw [hget j hj (by omega), if_neg (by omega), hsame j (by omega) hkj,
          hsame (j + 1) hj (by omega)]
    · refine ⟨survList.length - 1, hfar, (eq_eraseIdx_iff (by omega) hlen).2 fun j hj => ?_⟩
      rw [if_pos (by omega)]
      by_cases hjk : j = k
      · rw [hjk, hat, hnext]
      · exact hget j hj hjk

end Removal

/-! ## The sums -/

/-- The sums of the squared differences fit in 64 bits. -/
abbrev SumsFit (survList : List Survivor) : Prop :=
  ∀ s ∈ survList, Fits64 (distSum survList s.offset.toInt)

theorem distSum_nonneg (survList : List Survivor) (x : Int) : 0 ≤ distSum survList x := by
  apply List.sum_nonneg
  intro d hd
  obtain ⟨s, -, rfl⟩ := List.mem_map.1 hd
  exact mul_self_nonneg _

theorem distSum_cons (s : Survivor) (rest : List Survivor) (x : Int) :
    distSum (s :: rest) x = (x - s.offset.toInt) * (x - s.offset.toInt) + distSum rest x := rfl

theorem distSum_le_of_sublist (h : l.Sublist l') (x : Int) : distSum l x ≤ distSum l' x := by
  apply (h.map _).sum_le_sum
  intro d hd
  obtain ⟨s, -, rfl⟩ := List.mem_map.1 hd
  exact mul_self_nonneg _

theorem SumsFit.sublist (hfits : SumsFit l') (h : l.Sublist l') : SumsFit l := by
  intro s hs
  have hle := distSum_le_of_sublist h s.offset.toInt
  have hnonneg := distSum_nonneg l s.offset.toInt
  have hmax := hfits s (h.subset hs)
  omega

theorem SumsFit.perm (hfits : SumsFit l') (h : l.Perm l') : SumsFit l := by
  intro s hs
  have heq : distSum l s.offset.toInt = distSum l' s.offset.toInt := (h.map _).sum_eq
  rw [heq]
  exact hfits s (h.subset hs)

/-- A square that fits comes from a difference that fits. -/
theorem toInt_square {a b : Int64} (h : Fits64 ((a.toInt - b.toInt) * (a.toInt - b.toInt))) :
    ((a - b) * (a - b)).toInt = (a.toInt - b.toInt) * (a.toInt - b.toInt) := by
  have hdiff : Fits64 (a.toInt - b.toInt) := by
    unfold Fits64 at h ⊢
    constructor <;> nlinarith
  rw [toInt_mul_of_fits] <;> rw [toInt_sub_of_fits hdiff]
  exact h

/-- The inner loop computes the sum. -/
theorem toInt_phiFrom {si : Int64} {i j : Nat} {rest : List Survivor} {phi : Int64}
    (hphi : 0 ≤ phi.toInt) (hself : ∀ p s, rest[p]? = some s → j + p = i → s.offset = si)
    (hfits : Fits64 (phi.toInt + distSum rest si.toInt)) :
    (phiFrom si i j rest phi).toInt = phi.toInt + distSum rest si.toInt := by
  induction rest generalizing j phi with
  | nil => exact (Int.add_zero _).symm
  | cons s rest ih =>
    have hrest : ∀ p t, rest[p]? = some t → j + 1 + p = i → t.offset = si := by
      intro p t ht hp
      exact hself (p + 1) t ht (by omega)
    have hsquare := mul_self_nonneg (si.toInt - s.offset.toInt)
    have hnonneg := distSum_nonneg rest si.toInt
    rw [distSum_cons] at hfits ⊢
    rw [phiFrom]
    split
    · have hterm := @toInt_square si s.offset (by omega)
      have hadd : (phi + (si - s.offset) * (si - s.offset)).toInt
          = phi.toInt + (si.toInt - s.offset.toInt) * (si.toInt - s.offset.toInt) := by
        rw [toInt_add_of_fits, hterm]
        rw [hterm]
        omega
      rw [ih (by rw [hadd]; omega) hrest (by rw [hadd, add_assoc]; exact hfits), hadd, add_assoc]
    next hij =>
      -- the survivor itself, at distance zero
      have hsi : s.offset = si := hself 0 s rfl (by omega)
      rw [hsi, sub_self, mul_zero, zero_add] at hfits ⊢
      exact ih hphi hrest hfits

/-- What a round knows after the survivors it has seen: the largest sum, and the first place it is
at, which is the index unless it is the first of all. -/
structure Scanned (survList seen : List Survivor) (previous : Nat) (js : Jitters) : Prop where
  largest : ∀ t ∈ seen, distSum survList t.offset.toInt ≤ js.maxJitter.toInt
  found : ∃ r s, survList[r]? = some s ∧ js.maxJitter.toInt = distSum survList s.offset.toInt
    ∧ (∀ j < r, ∀ t, survList[j]? = some t → distSum survList t.offset.toInt < js.maxJitter.toInt)
    ∧ js.maxIndex = if r = 0 then previous else r

section Scan

variable {survList : List Survivor} (hfits : SumsFit survList)

include hfits

variable {s : Survivor}

theorem toInt_phi {i : Nat} (hs : survList[i]? = some s) :
    (phiFrom s.offset i 0 survList 0).toInt = distSum survList s.offset.toInt := by
  have hsum := hfits s (List.mem_of_getElem? hs)
  rw [toInt_phiFrom (le_refl 0) _ (by rw [Int64.toInt_zero, zero_add]; exact hsum),
    Int64.toInt_zero, zero_add]
  intro p t ht hp
  rw [zero_add] at hp
  rw [hp, hs] at ht
  cases ht
  rfl

theorem scanned_first (hs : survList[0]? = some s) (js : Jitters) :
    Scanned survList [s] js.maxIndex (js.visit 0 (phiFrom s.offset 0 0 survList 0)) := by
  have hphi := toInt_phi hfits hs
  constructor
  · intro t ht
    rw [List.mem_singleton.1 ht]
    exact hphi.ge
  · exact ⟨0, s, hs, hphi, fun j hj => absurd hj (Nat.not_lt_zero j), rfl⟩

variable {previous : Nat}

theorem Scanned.visit {seen rest : List Survivor} {js : Jitters}
    (h : Scanned survList seen previous js) (hseen : seen ≠ [])
    (hsplit : survList = seen ++ s :: rest) : Scanned survList (seen ++ [s]) previous
      (js.visit seen.length (phiFrom s.offset seen.length 0 survList 0)) := by
  have hs : survList[seen.length]? = some s := by
    rw [hsplit, List.getElem?_append_right (le_refl _), Nat.sub_self]
    rfl
  have hphi := toInt_phi hfits hs
  have hpos : seen.length ≠ 0 := fun h0 => hseen (List.length_eq_zero_iff.1 h0)
  generalize phiFrom s.offset seen.length 0 survList 0 = phi at hphi
  unfold Jitters.visit
  rw [if_neg hpos]
  simp only [gt_iff_lt, Int64.lt_iff_toInt_lt]
  by_cases hgt : js.maxJitter.toInt < phi.toInt
  · rw [if_pos hgt]
    refine ⟨fun t ht => ?_, seen.length, s, hs, hphi, fun j hj t ht => ?_, (if_neg hpos).symm⟩
    · show _ ≤ phi.toInt
      rcases List.mem_append.1 ht with ht | ht
      · exact (h.largest t ht).trans hgt.le
      · rw [List.mem_singleton.1 ht]
        exact hphi.ge
    · rw [hsplit, List.getElem?_append_left hj] at ht
      exact (h.largest t (List.mem_of_getElem? ht)).trans_lt hgt
  · -- the smallest sum is of no interest
    rw [if_neg hgt]
    have hlargest : ∀ t ∈ seen ++ [s], distSum survList t.offset.toInt ≤ js.maxJitter.toInt := by
      intro t ht
      rcases List.mem_append.1 ht with ht | ht
      · exact h.largest t ht
      · rw [List.mem_singleton.1 ht]
        omega
    split <;> exact ⟨hlargest, h.found⟩

theorem Scanned.run {seen rest : List Survivor} {js : Jitters}
    (h : Scanned survList seen previous js) (hseen : seen ≠ []) (hsplit : survList = seen ++ rest) :
    Scanned survList survList previous (jittersFrom survList seen.length rest js) := by
  induction rest generalizing seen js with
  | nil =>
    rw [List.append_nil] at hsplit
    exact hsplit ▸ h
  | cons s rest ih =>
    have hnext :=
      ih (h.visit hfits hseen hsplit) (by simp) (by rw [List.append_assoc]; exact hsplit)
    rw [List.length_append] at hnext
    exact hnext

/-- **The index of a round.** Where the first survivor is not the farthest, it is that of one that
is. -/
theorem maxIndex_jittersFrom (hne : survList ≠ []) (js : Jitters) :
    (jittersFrom survList 0 survList js).maxIndex = roundIndex survList js.maxIndex
      ∧ (Farthest survList 0 ∨ Farthest survList (roundIndex survList js.maxIndex)) := by
  have hscanned : Scanned survList survList js.maxIndex (jittersFrom survList 0 survList js) := by
    cases hcases : survList with
    | nil => exact absurd hcases hne
    | cons s rest =>
      rw [hcases] at hfits
      exact (scanned_first hfits rfl js).run hfits (List.cons_ne_nil s []) rfl
  obtain ⟨r, s, hr, hmax, hbefore, hindex⟩ := hscanned.found
  have hfar : Farthest survList r := ⟨s, hr, fun u hu => hmax ▸ hscanned.largest u hu⟩
  obtain ⟨hlt, hget⟩ := List.getElem?_eq_some_iff.1 hr
  have hfind : survList.findIdx (fun s => decide (∀ t ∈ survList,
      distSum survList t.offset.toInt ≤ distSum survList s.offset.toInt)) = r := by
    rw [List.findIdx_eq hlt, hget]
    refine ⟨decide_eq_true fun u hu => hmax ▸ hscanned.largest u hu, fun j hj => ?_⟩
    refine decide_eq_false fun hall => not_lt.2 (hall s (List.mem_of_getElem? hr)) ?_
    rw [← hmax]
    exact hbefore j hj _ (List.getElem?_eq_getElem (hj.trans hlt))
  have hround : roundIndex survList js.maxIndex = if r = 0 then js.maxIndex else r := by
    rw [roundIndex, hfind]
  rw [hround]
  refine ⟨hindex, ?_⟩
  split
  · next h0 => exact Or.inl (h0 ▸ hfar)
  · exact Or.inr hfar

end Scan

/-! ## The loop -/

/-- A round removes an outlier if it is sound. -/
theorem removesOutlier_iff_soundRound (hfits : SumsFit c.survList) (h : clusterStep c = some c') :
    RemovesOutlier c.survList c'.survList
      ↔ SoundRound c.survList (roundIndex c.survList c.jitters.maxIndex) := by
  obtain ⟨hlen, rfl⟩ := clusterStep_eq_some_iff.1 h
  have hne : c.survList ≠ [] := List.ne_nil_of_length_pos (Nat.zero_lt_of_lt hlen)
  obtain ⟨heq, hindex⟩ := maxIndex_jittersFrom hfits hne c.jitters
  simp only [heq]
  generalize roundIndex c.survList c.jitters.maxIndex = k at hindex
  unfold SoundRound
  split
  next hk =>
    have hstale : (Farthest c.survList 0 → Farthest c.survList k) ↔ Farthest c.survList k :=
      ⟨fun himp => hindex.elim himp id, fun hfar _ => hfar⟩
    rw [removesOutlier_iff hk, hstale]
  next hk =>
    rw [removesOutlier_last_iff hne hk]
    constructor
    · exact fun hfar _ => hfar
    · intro himp
      rcases hindex with hfirst | hfar
      · exact himp hfirst
      · -- an index that was set in this round is in the list
        have hlast : k = c.survList.length - 1 := by
          have := hfar.lt
          omega
        exact hlast ▸ hfar

/-- Every round of the loop removes an outlier. -/
def RemovesOutliers (survList : List Survivor) : Prop :=
  ∀ c c', Reaches clusterStep (clusterStart survList) c → clusterStep c = some c' →
    RemovesOutlier c.survList c'.survList

def SoundRounds (survList : List Survivor) : Prop :=
  ∀ c c', Reaches clusterStep (clusterStart survList) c → clusterStep c = some c' →
    SoundRound c.survList (roundIndex c.survList c.jitters.maxIndex)

theorem RemovesOutlier.sublist (h : RemovesOutlier l l') : l'.Sublist l := by
  obtain ⟨r, -, rfl⟩ := h
  exact List.eraseIdx_sublist l r

/-- While outliers are removed, what is left is in the order of the weights. -/
theorem sublist_of_reaches
    (h : ∀ c c', Reaches clusterStep (clusterStart survList) c →
      c.survList.Sublist (sortSurvivors survList) →
      clusterStep c = some c' → RemovesOutlier c.survList c'.survList)
    (hc : Reaches clusterStep (clusterStart survList) c) :
    c.survList.Sublist (sortSurvivors survList) := by
  apply reached_induction (I := fun c => c.survList.Sublist (sortSurvivors survList))
    (List.Sublist.refl _) _ hc
  intro a b ha hsub hab
  exact (h a b ha hsub hab).sublist.trans hsub

theorem RemovesOutliers.sublist (h : RemovesOutliers survList)
    (hc : Reaches clusterStep (clusterStart survList) c) :
    c.survList.Sublist (sortSurvivors survList) :=
  sublist_of_reaches (fun a b ha _ hab => h a b ha hab) hc

theorem removesOutliers_iff (hfits : SumsFit survList) :
    RemovesOutliers survList ↔ SoundRounds survList := by
  have hsorted : SumsFit (sortSurvivors survList) := hfits.perm (perm_selectionSort _)
  constructor
  · intro h c c' hc hcc'
    exact (removesOutlier_iff_soundRound (hsorted.sublist (h.sublist hc)) hcc').1 (h c c' hc hcc')
  · intro h
    -- the sums of a round fit because outliers have been removed before it
    have hround : ∀ c c', Reaches clusterStep (clusterStart survList) c →
        c.survList.Sublist (sortSurvivors survList) → clusterStep c = some c' →
        RemovesOutlier c.survList c'.survList := by
      intro c c' hc hsub hcc'
      exact (removesOutlier_iff_soundRound (hsorted.sublist hsub) hcc').2 (h c c' hc hcc')
    intro c c' hc hcc'
    exact hround c c' hc (sublist_of_reaches hround hc) hcc'

/-- **When the clustering removes outliers only.** -/
theorem cluster_outliers_iff (survList : List Survivor) (hfits : SumsFit survList) :
    ∃ e, EndsIn clusterStep (clusterStart survList) e
      ∧ e.survList.length = min survList.length nMinSurvivor
      ∧ (survList.length ≤ nMinSurvivor → e.survList = sortSurvivors survList)
      ∧ (RemovesOutliers survList ↔ SoundRounds survList)
      ∧ (RemovesOutliers survList → e.survList.Sublist (sortSurvivors survList)) := by
  have hlen : (sortSurvivors survList).length = survList.length := (perm_selectionSort _).length_eq
  obtain ⟨e, he⟩ := cluster_ends (clusterStart survList)
  refine ⟨e, he, ?_, ?_, removesOutliers_iff hfits, fun h => h.sublist he.1⟩
  · rw [length_of_endsIn he]
    exact congrArg (min · nMinSurvivor) hlen
  · intro hle
    have hnone : clusterStep (clusterStart survList) = none :=
      clusterStep_eq_none_iff.2 (hlen.trans_le hle)
    rw [← (endsIn_of_none hnone).1 he]
    rfl

/-- Three survivors together and two far away, behind the others. -/
def farBehind : List Survivor :=
  [⟨1, 0, 10, 10⟩, ⟨1, 1, 11, 11⟩, ⟨1, 2, 12, 12⟩, ⟨1, 50, 13, 13⟩, ⟨1, 100, 14, 14⟩]

theorem cluster_outliers_behind : SumsFit farBehind ∧ RemovesOutliers farBehind := by
  have hfits : SumsFit farBehind := by decide
  obtain ⟨e, -, -, -, hiff, -⟩ := cluster_outliers_iff farBehind hfits
  refine ⟨hfits, hiff.2 fun c c' hc hcc' => ?_⟩
  have hfirst : clusterStep (clusterStart farBehind)
      = some ⟨farBehind.take 4, ⟨31905, 9705, 4, 3⟩⟩ := by decide
  have hsecond : clusterStep ⟨farBehind.take 4, ⟨31905, 9705, 4, 3⟩⟩
      = some ⟨farBehind.take 3, ⟨7205, 2309, 3, 2⟩⟩ := by decide
  rcases hc.of_step hfirst with rfl | hc
  · cases hfirst.symm.trans hcc'
    exact fun _ => ⟨⟨1, 100, 14, 14⟩, rfl, by decide⟩
  · rcases hc.of_step hsecond with rfl | hc
    · cases hsecond.symm.trans hcc'
      exact fun _ => ⟨⟨1, 50, 13, 13⟩, rfl, by decide⟩
    · rcases hc.of_none rfl with rfl
      cases hcc'

/-- The second of four survivors is far away. -/
def farSecond : List Survivor := [⟨1, 0, 10, 10⟩, ⟨1, 100, 11, 11⟩, ⟨1, 1, 12, 12⟩, ⟨1, 2, 13, 13⟩]

/-- The fourth of five survivors is far away, and then the first. -/
def farFirst : List Survivor :=
  [⟨1, 60, 10, 10⟩, ⟨1, 0, 11, 11⟩, ⟨1, 1, 12, 12⟩, ⟨1, 200, 13, 13⟩, ⟨1, 2, 14, 14⟩]

/-- In the first list the third survivor is in two places in the end, and the last one is lost. In
the second list the index of the first round removes the last survivor in the second round, and the
outlier stays. -/
theorem cluster_not_outliers :
    (SumsFit farSecond
      ∧ EndsIn clusterStep (clusterStart farSecond)
        ⟨[⟨1, 0, 10, 10⟩, ⟨1, 1, 12, 12⟩, ⟨1, 1, 12, 12⟩], ⟨29405, 9609, 1, 3⟩⟩
      ∧ ¬ RemovesOutliers farSecond)
    ∧ SumsFit farFirst
      ∧ EndsIn clusterStep (clusterStart farFirst) ⟨farFirst.take 3, ⟨10445, 3369, 3, 3⟩⟩ := by
  have hstep : clusterStep (clusterStart farSecond)
      = some ⟨[⟨1, 0, 10, 10⟩, ⟨1, 1, 12, 12⟩, ⟨1, 1, 12, 12⟩], ⟨29405, 9609, 1, 3⟩⟩ := by decide
  have hfirst : clusterStep (clusterStart farFirst)
      = some ⟨farFirst.eraseIdx 3, ⟨138405, 30045, 3, 0⟩⟩ := by decide
  have hsecond : clusterStep ⟨farFirst.eraseIdx 3, ⟨138405, 30045, 3, 0⟩⟩
      = some ⟨farFirst.take 3, ⟨10445, 3369, 3, 3⟩⟩ := by decide
  refine ⟨⟨by decide, ?_, ?_⟩, by decide, ?_⟩
  · rw [endsIn_step_iff hstep, endsIn_of_none (by decide)]
  · intro h
    exact absurd (h _ _ (Reaches.refl _) hstep).sublist (by decide)
  · rw [endsIn_step_iff hfirst, endsIn_step_iff hsecond, endsIn_of_none (by decide)]

end Qot.Ntp
