import Mathlib.Data.List.TakeWhile
import Mathlib.Order.Lattice

/-!
# OrderedInsert — insertion before the first element that stops it

An intrusive list or an in-order traversal is extended by walking from the front and linking the
new element before the first one at which a test succeeds. `insertBefore` is that walk,
`insertBefore_eq` splits its result at the point of insertion, and `pairwise_insertBefore_iff`
says exactly when a relation between earlier and later elements survives it. A walk that stops only
at a larger key keeps elements in the order of their keys and, among equal keys, of their arrival
(`pairwise_before_insertBefore`).
-/

namespace OrderedInsert

variable {α : Type _} (stop : α → Bool) (x : α)

/-- Link `x` before the first element at which `stop` succeeds, or at the end. -/
def insertBefore : List α → List α
  | [] => [x]
  | y :: ys => if stop y then x :: y :: ys else y :: insertBefore ys

theorem insertBefore_eq (l : List α) :
    insertBefore stop x l
      = l.takeWhile (fun y => !stop y) ++ x :: l.dropWhile (fun y => !stop y) := by
  induction l with
  | nil => rfl
  | cons y ys ih =>
    cases h : stop y with
    | true => simp [insertBefore, h]
    | false => simp [insertBefore, h, ih]

variable {l : List α}

/-- The walk only asks the elements it meets. -/
theorem insertBefore_congr {stop stop' : α → Bool} (h : ∀ y ∈ l, stop y = stop' y) :
    insertBefore stop x l = insertBefore stop' x l := by
  induction l with
  | nil => rfl
  | cons y ys ih =>
    simp only [List.forall_mem_cons] at h
    simp [insertBefore, h.1, ih h.2]

theorem insertBefore_perm (l : List α) : (insertBefore stop x l).Perm (x :: l) := by
  rw [insertBefore_eq]
  refine List.perm_middle.trans ?_
  rw [List.takeWhile_append_dropWhile]

@[simp] theorem mem_insertBefore {y : α} : y ∈ insertBefore stop x l ↔ y = x ∨ y ∈ l := by
  rw [(insertBefore_perm stop x l).mem_iff, List.mem_cons]

theorem map_insertBefore {β : Type _} (f : α → β) (stop : β → Bool) (x : α) (l : List α) :
    (insertBefore (fun y => stop (f y)) x l).map f = insertBefore stop (f x) (l.map f) := by
  induction l with
  | nil => rfl
  | cons y ys ih =>
    cases h : stop (f y) with
    | true => simp [insertBefore, h]
    | false => simp [insertBefore, h, ih]

theorem insertBefore_append_of_stop (l : List α) {y : α} {r : List α} (h : stop y = true) :
    insertBefore stop x (l ++ y :: r) = insertBefore stop x l ++ y :: r := by
  induction l with
  | nil => simp [insertBefore, h]
  | cons z zs ih => cases hz : stop z <;> simp [insertBefore, hz, ih]

theorem insertBefore_append_of_not_stop (r : List α) (h : ∀ y ∈ l, stop y = false) :
    insertBefore stop x (l ++ r) = l ++ insertBefore stop x r := by
  induction l with
  | nil => rfl
  | cons z zs ih =>
    simp only [List.forall_mem_cons] at h
    simp [insertBefore, h.1, ih h.2]

theorem find?_insertBefore {p : α → Bool} (hx : p x = false) (l : List α) :
    (insertBefore stop x l).find? p = l.find? p := by
  induction l with
  | nil => simp [insertBefore, hx]
  | cons y ys ih =>
    cases h : stop y with
    | true => simp [insertBefore, h, hx]
    | false => simp [insertBefore, h, List.find?_cons, ih]

/-- An element is found after its insertion if nothing was before. -/
theorem find?_insertBefore_self {p : α → Bool} (hx : p x = true) (hl : l.find? p = none) :
    (insertBefore stop x l).find? p = some x := by
  have hbefore : (l.takeWhile fun y => !stop y).find? p = none := by
    rw [List.find?_eq_none]
    intro y hy
    exact List.find?_eq_none.mp hl y (List.takeWhile_subset _ hy)
  rw [insertBefore_eq, List.find?_append, hbefore, List.find?_cons_of_pos hx]
  rfl

/-- **Order survives exactly when the element fits its place**: after everything it was walked
past, before everything it was linked in front of. -/
theorem pairwise_insertBefore_iff {R : α → α → Prop} :
    (insertBefore stop x l).Pairwise R ↔
      l.Pairwise R ∧ (∀ y ∈ l.takeWhile (fun y => !stop y), R y x)
        ∧ ∀ y ∈ l.dropWhile (fun y => !stop y), R x y := by
  have hl : l.Pairwise R ↔
      (l.takeWhile (fun y => !stop y) ++ l.dropWhile (fun y => !stop y)).Pairwise R := by
    rw [List.takeWhile_append_dropWhile]
  rw [insertBefore_eq, hl, List.pairwise_append, List.pairwise_append, List.pairwise_cons]
  simp only [List.mem_cons]
  constructor
  · rintro ⟨hpre, ⟨hx, hpost⟩, hcross⟩
    exact ⟨⟨hpre, hpost, fun a ha b hb => hcross a ha b (Or.inr hb)⟩,
      fun a ha => hcross a ha x (Or.inl rfl), hx⟩
  · rintro ⟨⟨hpre, hpost, hcross⟩, hbefore, hafter⟩
    refine ⟨hpre, ⟨hafter, hpost⟩, ?_⟩
    rintro a ha b (rfl | hb)
    · exact hbefore a ha
    · exact hcross a ha b hb

/-! ## Keys and ages -/

section Ages

variable {κ : Type _} [LinearOrder κ] (key : α → κ) (age : α → Nat)

/-- Ordered by key and, among equal keys, by age. -/
def Before (a b : α) : Prop := key a < key b ∨ (key a = key b ∧ age a < age b)

variable {key age}

/-- **Insertion behind the equals is stable**: a walk that stops only at larger keys puts the
youngest element behind every element with its key. -/
theorem pairwise_before_insertBefore {stop : α → Bool} {x : α} {l : List α}
    (hstop : ∀ y, stop y = true ↔ key x < key y) (h : l.Pairwise (Before key age))
    (hage : ∀ y ∈ l, age y < age x) : (insertBefore stop x l).Pairwise (Before key age) := by
  rw [pairwise_insertBefore_iff]
  refine ⟨h, fun y hy => ?_, fun y hy => ?_⟩
  · have hpassed : ¬ key x < key y := by
      rw [← hstop]
      simpa using List.mem_takeWhile_imp hy
    rcases lt_or_eq_of_le (not_lt.mp hpassed) with hlt | heq
    · exact Or.inl hlt
    · exact Or.inr ⟨heq, hage y (List.takeWhile_subset _ hy)⟩
  · -- the walk stopped at the first larger key, and keys do not get smaller from there
    have hsorted : (l.dropWhile fun y => !stop y).Pairwise (Before key age) :=
      h.sublist (List.dropWhile_sublist _)
    have hfirst := List.head?_dropWhile_not (fun y : α => !stop y) l
    cases hdrop : l.dropWhile fun y => !stop y with
    | nil => simp [hdrop] at hy
    | cons f rest =>
      have hlater : key x < key f := by
        rw [← hstop]
        simpa [hdrop] using hfirst
      rw [hdrop] at hy hsorted
      rcases List.mem_cons.mp hy with rfl | hy
      · exact Or.inl hlater
      · rcases (List.pairwise_cons.mp hsorted).1 y hy with hlt | ⟨heq, -⟩
        · exact Or.inl (hlater.trans hlt)
        · exact Or.inl (heq ▸ hlater)

end Ages

end OrderedInsert
