import Mathlib.Order.Lattice
import Mathlib.Algebra.Order.Ring.Int
import Mathlib.Algebra.BigOperators.Group.List.Basic

/-!
# Sweep — running over a sorted list until a sum is reached

A sweep goes through a list with a running sum of weights, counts the marked elements it passes, and
stops at the first element where the sum reaches what is needed. It is how the intersection of
intervals is found: over the end points in ascending order, with a weight of one where an interval
begins and of minus one where it ends, and over the same list backwards for the other end.

* `sweep_none`, `sweep_some` — what is counted, and where the sweep stops;
* `sweep_within` — over a sorted list, a sweep stops among the elements of an initial part whose
  weights make up the sum. The initial part is given by a predicate that is closed downwards in the
  order of the list, so that the lemma serves both directions.
-/

namespace Sweep

variable {α β : Type}

/-- From the sum `c` and the count `d` on: the count, and the element at which the sum is
reached. -/
def sweep (weight : α → Int) (mark : α → Bool) (need : Int) : List α → Int → Nat → Nat × Option α
  | [], _, d => (d, none)
  | p :: ps, c, d =>
    let c := c + weight p
    let d := if mark p then d + 1 else d
    if c ≥ need then (d, some p) else sweep weight mark need ps c d

variable {weight : α → Int} {mark : α → Bool} {need : Int}

theorem le_sweep (ps : List α) (c : Int) (d : Nat) : d ≤ (sweep weight mark need ps c d).1 := by
  induction ps generalizing c d with
  | nil => exact le_refl d
  | cons p ps ih =>
    simp only [sweep]
    have hcount : d ≤ if mark p then d + 1 else d := by split <;> omega
    split
    · exact hcount
    · exact le_trans hcount (ih _ _)

theorem sweep_none {ps : List α} {c : Int} {d : Nat}
    (h : (sweep weight mark need ps c d).2 = none) :
    (sweep weight mark need ps c d).1 = d + ps.countP mark := by
  induction ps generalizing c d with
  | nil => simp [sweep]
  | cons p ps ih =>
    simp only [sweep] at h ⊢
    -- reaching the sum would have given an element
    split at h
    · cases h
    next hless =>
      rw [if_neg hless, ih h, List.countP_cons]
      split <;> omega

/-- The sweep stops at an element that adds to the sum, and has counted up to it. -/
theorem sweep_some {ps : List α} {c : Int} {d : Nat} {p : α} (hc : c < need)
    (h : (sweep weight mark need ps c d).2 = some p) :
    ∃ pre post, ps = pre ++ p :: post ∧ 0 < weight p
      ∧ (sweep weight mark need ps c d).1 = d + (pre ++ [p]).countP mark := by
  induction ps generalizing c d with
  | nil => cases h
  | cons q ps ih =>
    simp only [sweep] at h ⊢
    split at h
    next hreached =>
      -- the sum was below `need` before this element, so its weight is positive
      cases h
      refine ⟨[], ps, rfl, by omega, ?_⟩
      rw [if_pos hreached, List.nil_append, List.countP_singleton]
      split <;> rfl
    next hless =>
      obtain ⟨pre, post, rfl, hweight, hcount⟩ := ih (by omega) h
      refine ⟨q :: pre, post, rfl, hweight, ?_⟩
      rw [if_neg hless, hcount, List.cons_append, List.countP_cons]
      split <;> omega

/-- Once a part of the list has made up the sum, the sweep has stopped there. -/
theorem sweep_prefix {part rest : List α} {c : Int} {d : Nat} (hc : c < need)
    (hsum : need ≤ c + (part.map weight).sum) :
    ∃ p ∈ part, (sweep weight mark need (part ++ rest) c d).2 = some p := by
  induction part generalizing c d with
  | nil => simp only [List.map_nil, List.sum_nil] at hsum; omega
  | cons q part ih =>
    simp only [List.map_cons, List.sum_cons] at hsum
    simp only [List.cons_append, sweep]
    split
    · exact ⟨q, List.mem_cons_self, rfl⟩
    · obtain ⟨p, hp, hstop⟩ := ih (c := c + weight q) (d := if mark q then d + 1 else d) (by omega)
        (by omega)
      exact ⟨p, List.mem_cons_of_mem _ hp, hstop⟩

section Sorted

variable {r : α → α → Prop} {within : α → Prop} [DecidablePred within]
  (hclosed : ∀ p q, r p q → within q → within p)

include hclosed

/-- What is closed downwards comes first. -/
theorem filter_append_of_closed {ps : List α} (hsorted : ps.Pairwise r) :
    ∃ rest, ps = ps.filter (fun p => decide (within p)) ++ rest := by
  induction ps with
  | nil => exact ⟨[], rfl⟩
  | cons p ps ih =>
    obtain ⟨hhead, htail⟩ := List.pairwise_cons.1 hsorted
    by_cases hp : within p
    · obtain ⟨rest, hrest⟩ := ih htail
      refine ⟨rest, ?_⟩
      rw [List.filter_cons_of_pos (by simpa using hp), List.cons_append, ← hrest]
    · -- after the first that is not within, none is
      have hnone : ps.filter (fun q => decide (within q)) = [] := by
        rw [List.filter_eq_nil_iff]
        intro q hq hwithin
        exact hp (hclosed p q (hhead q hq) (by simpa using hwithin))
      refine ⟨p :: ps, ?_⟩
      rw [List.filter_cons_of_neg (by simpa using hp), hnone, List.nil_append]

/-- **The sweep stops within** what makes up the sum. -/
theorem sweep_within {ps : List α} (hsorted : ps.Pairwise r) {c : Int} {d : Nat} (hc : c < need)
    (hsum : need ≤ c + ((ps.filter fun p => decide (within p)).map weight).sum) :
    ∃ p, within p ∧ (sweep weight mark need ps c d).2 = some p := by
  obtain ⟨rest, hrest⟩ := filter_append_of_closed hclosed hsorted
  obtain ⟨p, hp, hstop⟩ : ∃ p ∈ ps.filter fun p => decide (within p),
      (sweep weight mark need (ps.filter (fun p => decide (within p)) ++ rest) c d).2 = some p :=
    sweep_prefix hc hsum
  rw [← hrest] at hstop
  exact ⟨p, by simpa using (List.mem_filter.1 hp).2, hstop⟩

end Sorted

/-- The marked elements before `p` in a strictly sorted list. -/
theorem countP_before {r : α → α → Prop} [DecidableRel r] (hirrefl : ∀ p, ¬ r p p)
    (hasymm : ∀ p q, r p q → ¬ r q p) {pre post : List α} {p : α}
    (hsorted : (pre ++ p :: post).Pairwise r) :
    (pre ++ p :: post).countP (fun q => mark q && decide (r q p)) = pre.countP mark := by
  obtain ⟨-, htail, hcross⟩ := List.pairwise_append.1 hsorted
  obtain ⟨hpost, -⟩ := List.pairwise_cons.1 htail
  have hpre : pre.countP (fun q => mark q && decide (r q p)) = pre.countP mark := by
    apply List.countP_congr
    intro q hq
    simp [hcross q hq p List.mem_cons_self]
  have hrest : (p :: post).countP (fun q => mark q && decide (r q p)) = 0 := by
    rw [List.countP_eq_zero]
    intro q hq
    rcases List.mem_cons.1 hq with rfl | hq
    · simp [hirrefl]
    · simp [hasymm p q (hpost q hq)]
  rw [List.countP_append, hpre, hrest, Nat.add_zero]

/-- A sweep over other elements of the same weights and marks stops at the same place. -/
theorem sweep_map {weight' : β → Int} {mark' : β → Bool} {g : α → β}
    (hweight : ∀ p, weight' (g p) = weight p) (hmark : ∀ p, mark' (g p) = mark p) (ps : List α)
    (c : Int) (d : Nat) :
    sweep weight' mark' need (ps.map g) c d
      = ((sweep weight mark need ps c d).1, (sweep weight mark need ps c d).2.map g) := by
  induction ps generalizing c d with
  | nil => rfl
  | cons p ps ih =>
    simp only [List.map_cons, sweep, hweight, hmark]
    split
    · rfl
    · exact ih _ _

end Sweep
