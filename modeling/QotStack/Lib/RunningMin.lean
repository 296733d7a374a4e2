import Mathlib.Data.Prod.Lex
import Mathlib.Order.Bounds.Basic
import Mathlib.Order.Lattice

/-!
# RunningMin — the least pair of a list, found in one pass

Programs pick the least element under two criteria by a loop that keeps the best pair so far, and
replaces it when the first criterion is smaller, or equal with a smaller second one. `keepLess` is
that comparison. It is `min` in the lexicographic order (`toLex_keepLess`), so the loop ends with
the least of its starting value and everything it has seen, in whatever order
(`isLeast_foldl_keepLess`).
-/

namespace RunningMin

variable {α β ν : Type _} [LinearOrder α] [LinearOrder β] [LinearOrder ν]

/-- One round of the loop. -/
def keepLess (best x : α × ν) : α × ν :=
  if x.1 < best.1 then x
  else if x.1 = best.1 ∧ x.2 < best.2 then (best.1, x.2)
  else best

theorem toLex_keepLess (best x : α × ν) : toLex (keepLess best x) = min (toLex best) (toLex x) := by
  unfold keepLess
  split
  · next hlt => exact (min_eq_right (Prod.Lex.toLex_le_toLex.mpr (Or.inl hlt))).symm
  · next hge =>
    split
    · next heq =>
      rw [show (best.1, x.2) = x from Prod.ext heq.1.symm rfl]
      exact (min_eq_right (Prod.Lex.toLex_le_toLex.mpr (Or.inr ⟨heq.1, heq.2.le⟩))).symm
    · next hne =>
      refine (min_eq_left (Prod.Lex.toLex_le_toLex.mpr ?_)).symm
      rcases (not_lt.mp hge).lt_or_eq with hlt | heq
      · exact Or.inl hlt
      · exact Or.inr ⟨heq, not_lt.mp fun h => hne ⟨heq.symm, h⟩⟩

theorem isLeast_foldl_min (b : β) (l : List β) : IsLeast { x | x = b ∨ x ∈ l } (l.foldl min b) := by
  induction l generalizing b with
  | nil =>
    refine ⟨Or.inl rfl, ?_⟩
    rintro x (rfl | hx)
    · exact le_rfl
    · exact absurd hx (by simp)
  | cons a l ih =>
    obtain ⟨hmem, hle⟩ := ih (min b a)
    constructor
    · rcases hmem with heq | hmem
      · rw [List.foldl_cons, heq]
        rcases le_total b a with h | h
        · exact Or.inl (min_eq_left h)
        · rw [min_eq_right h]
          exact Or.inr List.mem_cons_self
      · exact Or.inr (List.mem_cons_of_mem a hmem)
    · -- the new starting value is below both the old one and the head
      have hstart : l.foldl min (min b a) ≤ min b a := hle (Or.inl rfl)
      rintro x (rfl | hx)
      · exact hstart.trans (min_le_left _ _)
      · rcases List.mem_cons.mp hx with rfl | hx
        · exact hstart.trans (min_le_right _ _)
        · exact hle (Or.inr hx)

/-- **The loop finds the least pair.** -/
theorem isLeast_foldl_keepLess (b : α × ν) (l : List (α × ν)) :
    IsLeast { x : α ×ₗ ν | x = toLex b ∨ x ∈ l.map toLex } (toLex (l.foldl keepLess b)) := by
  have hfold : toLex (l.foldl keepLess b) = (l.map toLex).foldl min (toLex b) := by
    induction l generalizing b with
    | nil => rfl
    | cons x l ih => rw [List.foldl_cons, ih, toLex_keepLess, List.map_cons, List.foldl_cons]
  rw [hfold]
  exact isLeast_foldl_min _ _

end RunningMin
