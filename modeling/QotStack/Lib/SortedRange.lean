import Mathlib.Order.Lattice
import QotStack.Lib.OrderedInsert

/-!
# SortedRange — insertion at the upper bound, and inclusion of sorted ranges

Algorithms on sorted ranges of a linear order. `insertUpper` puts an element after those that are
not greater (`insert` at `upper_bound`), `eraseAll` removes, and `includes` walks two ranges side by
side and tells whether the first has every element of the second. What they are for holds on ranges
that are sorted: `pairwise_insertAll_iff` and `includes_iff`.
-/

namespace SortedRange

variable {α : Type _} [LinearOrder α]

def insertUpper (x : α) (l : List α) : List α := OrderedInsert.insertBefore (fun y => x < y) x l

/-- Insert one element after the other. -/
def insertAll (xs l : List α) : List α := xs.foldl (fun l x => insertUpper x l) l

/-- Remove all that are equal to one of `xs`, one value after the other (`erase` of `remove`). -/
def eraseAll (xs l : List α) : List α := xs.foldl (fun l x => l.filter (· ≠ x)) l

def includes : List α → List α → Bool
  | _, [] => true
  | [], _ :: _ => false
  | a :: as, b :: bs =>
    if b < a then false else if a < b then includes as (b :: bs) else includes as bs

variable {l : List α}

@[simp] theorem mem_insertUpper {x y : α} : y ∈ insertUpper x l ↔ y = x ∨ y ∈ l :=
  OrderedInsert.mem_insertBefore _ _

/-- Behind the upper bound everything is greater. -/
theorem lt_of_mem_dropWhile {x y : α} (hl : l.Pairwise (· < ·))
    (hy : y ∈ l.dropWhile fun y => !decide (x < y)) : x < y := by
  induction l with
  | nil => cases hy
  | cons a l ih =>
    obtain ⟨ha, hl⟩ := List.pairwise_cons.mp hl
    by_cases hx : x < a
    · rw [List.dropWhile_cons_of_neg (by simpa using hx)] at hy
      rcases List.mem_cons.mp hy with rfl | hy
      · exact hx
      · exact lt_trans hx (ha y hy)
    · rw [List.dropWhile_cons_of_pos (by simpa using hx)] at hy
      exact ih hl hy

/-- A strictly sorted range stays so exactly if the element is new. -/
theorem pairwise_insertUpper_iff {x : α} :
    (insertUpper x l).Pairwise (· < ·) ↔ l.Pairwise (· < ·) ∧ x ∉ l := by
  constructor
  · intro h
    have hnodup : (x :: l).Nodup :=
      (OrderedInsert.insertBefore_perm _ _ l).nodup_iff.mp (h.imp fun hlt => ne_of_lt hlt)
    exact ⟨((OrderedInsert.pairwise_insertBefore_iff _ _).mp h).1, (List.nodup_cons.mp hnodup).1⟩
  · rintro ⟨hl, hx⟩
    refine (OrderedInsert.pairwise_insertBefore_iff _ _).mpr ⟨hl, fun y hy => ?_, fun y hy => ?_⟩
    · have hle : ¬ x < y := by simpa using List.mem_takeWhile_imp hy
      have hne : y ≠ x := fun h => hx (h ▸ List.takeWhile_subset _ hy)
      exact lt_of_le_of_ne (not_lt.mp hle) hne
    · exact lt_of_mem_dropWhile hl hy

theorem insertAll_perm (xs l : List α) : (insertAll xs l).Perm (xs ++ l) := by
  induction xs generalizing l with
  | nil => rfl
  | cons x xs ih =>
    have hx : (insertUpper x l).Perm (x :: l) := OrderedInsert.insertBefore_perm _ _ l
    calc
      (insertAll xs (insertUpper x l)).Perm (xs ++ insertUpper x l) := ih _
      List.Perm _ (xs ++ x :: l) := hx.append_left xs
      List.Perm _ (x :: xs ++ l) := List.perm_middle

theorem mem_insertAll {xs : List α} {y : α} : y ∈ insertAll xs l ↔ y ∈ xs ∨ y ∈ l :=
  (insertAll_perm xs l).mem_iff.trans List.mem_append

theorem eraseAll_eq (xs l : List α) : eraseAll xs l = l.filter (· ∉ xs) := by
  induction xs generalizing l with
  | nil => exact (List.filter_eq_self.mpr fun y _ => by simp).symm
  | cons x xs ih =>
    rw [eraseAll, List.foldl_cons, ← eraseAll, ih, List.filter_filter]
    refine List.filter_congr fun y _ => ?_
    simp [Bool.and_comm]

theorem pairwise_insertAll_iff {xs : List α} :
    (insertAll xs l).Pairwise (· < ·) ↔ l.Pairwise (· < ·) ∧ xs.Nodup ∧ ∀ x ∈ xs, x ∉ l := by
  induction xs generalizing l with
  | nil => simp [insertAll]
  | cons x xs ih =>
    rw [insertAll, List.foldl_cons, ← insertAll, ih, pairwise_insertUpper_iff, List.nodup_cons,
      List.forall_mem_cons]
    simp only [mem_insertUpper, not_or]
    constructor
    · rintro ⟨⟨hl, hx⟩, hnodup, hxs⟩
      exact ⟨hl, ⟨fun hmem => (hxs x hmem).1 rfl, hnodup⟩, hx, fun y hy => (hxs y hy).2⟩
    · rintro ⟨hl, ⟨hnot, hnodup⟩, hx, hxs⟩
      exact ⟨⟨hl, hx⟩, hnodup, fun y hy => ⟨fun h => hnot (h ▸ hy), hxs y hy⟩⟩

/-- **`includes` decides inclusion**, if the first range is sorted and the second strictly so. -/
theorem includes_iff {as bs : List α} (has : as.Pairwise (· ≤ ·)) (hbs : bs.Pairwise (· < ·)) :
    includes as bs = true ↔ ∀ b ∈ bs, b ∈ as := by
  induction as generalizing bs with
  | nil =>
    cases bs with
    | nil => simp [includes]
    | cons b bs => exact ⟨fun h => (nomatch h), fun h => (nomatch h b List.mem_cons_self)⟩
  | cons a as ih =>
    obtain ⟨ha, has⟩ := List.pairwise_cons.mp has
    cases bs with
    | nil => simp [includes]
    | cons b bs =>
      obtain ⟨hb, hbs'⟩ := List.pairwise_cons.mp hbs
      -- what is greater than the head is looked for behind it
      have hbehind : ∀ x, a < x → (x ∈ a :: as ↔ x ∈ as) := fun x hx =>
        ⟨fun h => (List.mem_cons.mp h).resolve_left (ne_of_gt hx), List.mem_cons_of_mem a⟩
      rw [includes]
      split
      · next hlt =>
        refine ⟨fun h => (nomatch h), fun h => ?_⟩
        rcases List.mem_cons.mp (h b List.mem_cons_self) with rfl | hmem
        · exact absurd hlt (lt_irrefl b)
        · exact absurd (ha b hmem) (not_le.mpr hlt)
      · next hnlt =>
        split
        · next hlt =>
          rw [ih has hbs]
          refine forall₂_congr fun x hx => (hbehind x ?_).symm
          rcases List.mem_cons.mp hx with rfl | hx
          · exact hlt
          · exact lt_trans hlt (hb x hx)
        · next hngt =>
          have heq : a = b := le_antisymm (not_lt.mp hnlt) (not_lt.mp hngt)
          subst heq
          rw [ih has hbs', List.forall_mem_cons]
          refine ⟨fun h => ⟨List.mem_cons_self, fun x hx => ?_⟩, fun h x hx => ?_⟩
          · exact List.mem_cons_of_mem a (h x hx)
          · exact (hbehind x (hb x hx)).mp (h.2 x hx)

end SortedRange
