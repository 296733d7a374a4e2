import Mathlib.Order.Lattice
import Mathlib.Data.List.Perm.Basic

/-!
# SelectionSort — sorting in place by a key

The sort of two nested loops: the inner one looks for the first least key from a position on, and
the outer one exchanges the element it finds with the one at the position. The list is what is left
from the position on.

* `perm_selectionSort`, `pairwise_selectionSort` — the result has the elements of the list, with
  ascending keys;
* `selectionSort_map` — how the elements come to lie depends on the order of the keys only, also
  among equal keys.
-/

namespace SelectionSort

variable {α β κ : Type} [LinearOrder κ] (key : α → κ)

/-- The inner loop, from position `j` on: the position of the least key. -/
def scanMin : κ → Nat → Nat → List α → Nat
  | _, iMin, _, [] => iMin
  | minD, iMin, j, x :: xs =>
    if minD > key x then scanMin (key x) j (j + 1) xs else scanMin minD iMin (j + 1) xs

def minIndex (x : α) (rest : List α) : Nat := scanMin key (key x) 0 1 rest

/-- Exchange the first element with the one at position `k`. -/
def exchange (x : α) (rest : List α) : Nat → α × List α
  | 0 => (x, rest)
  | k + 1 => (rest.getD k x, rest.set k x)

/-- The outer loop, for `n` positions. -/
def sortFrom : Nat → List α → List α
  | 0, l => l
  | _ + 1, [] => []
  | n + 1, x :: rest =>
    let exchanged := exchange x rest (minIndex key x rest)
    exchanged.1 :: sortFrom n exchanged.2

def selectionSort (l : List α) : List α := sortFrom key l.length l

/-! ## A round -/

variable {key}

/-- The loop holds the position of the least key among the elements `seen`. -/
theorem scanMin_spec {minD : κ} {iMin : Nat} {y : α} (seen xs : List α)
    (hat : (seen ++ xs)[iMin]? = some y) (hkey : key y = minD) (hleast : ∀ z ∈ seen, minD ≤ key z) :
    ∃ y', (seen ++ xs)[scanMin key minD iMin seen.length xs]? = some y'
      ∧ ∀ z ∈ seen ++ xs, key y' ≤ key z := by
  induction xs generalizing seen minD iMin y with
  | nil =>
    refine ⟨y, hat, ?_⟩
    intro z hz
    rw [hkey]
    exact hleast z (by simpa using hz)
  | cons x xs ih =>
    have hsplit : seen ++ x :: xs = (seen ++ [x]) ++ xs := by simp
    have hlength : seen.length + 1 = (seen ++ [x]).length := by simp
    unfold scanMin
    rw [hsplit] at hat ⊢
    rw [hlength]
    split
    next hless =>
      -- a new least key, at the position of `x`
      refine ih (seen ++ [x]) (y := x) (by simp) rfl ?_
      intro z hz
      rcases List.mem_append.1 hz with hz | hz
      · exact le_trans (le_of_lt hless) (hleast z hz)
      · rw [List.mem_singleton.1 hz]
    next hnot =>
      refine ih (seen ++ [x]) hat hkey ?_
      intro z hz
      rcases List.mem_append.1 hz with hz | hz
      · exact hleast z hz
      · rw [List.mem_singleton.1 hz]
        exact le_of_not_gt hnot

variable (key) in
theorem minIndex_spec (x : α) (rest : List α) :
    ∃ y, (x :: rest)[minIndex key x rest]? = some y ∧ ∀ z ∈ x :: rest, key y ≤ key z := by
  refine scanMin_spec [x] rest (y := x) rfl rfl ?_
  intro z hz
  rw [List.mem_singleton.1 hz]

theorem perm_cons_set {x y : α} {rest : List α} {k : Nat} (h : rest[k]? = some y) :
    (y :: rest.set k x).Perm (x :: rest) := by
  induction rest generalizing k with
  | nil => cases h
  | cons z rest ih =>
    cases k with
    | zero =>
      cases h
      exact List.Perm.swap x y rest
    | succ k =>
      have hrest : (y :: rest.set k x).Perm (x :: rest) := ih h
      calc y :: z :: rest.set k x
          |>.Perm (z :: y :: rest.set k x) := List.Perm.swap z y _
        _ |>.Perm (z :: x :: rest) := hrest.cons z
        _ |>.Perm (x :: z :: rest) := List.Perm.swap x z rest

theorem exchange_spec {x y : α} {rest : List α} {k : Nat} (h : (x :: rest)[k]? = some y) :
    (exchange x rest k).1 = y
      ∧ ((exchange x rest k).1 :: (exchange x rest k).2).Perm (x :: rest) := by
  cases k with
  | zero =>
    cases h
    exact ⟨rfl, List.Perm.refl _⟩
  | succ k =>
    have hget : rest[k]? = some y := h
    have hd : rest.getD k x = y := by rw [List.getD_eq_getElem?_getD, hget]; rfl
    refine ⟨hd, ?_⟩
    show (rest.getD k x :: rest.set k x).Perm (x :: rest)
    rw [hd]
    exact perm_cons_set hget

variable (key) in
/-- **A round** puts a least element first, and keeps the elements. -/
theorem round_spec (x : α) (rest : List α) :
    ((exchange x rest (minIndex key x rest)).1 :: (exchange x rest (minIndex key x rest)).2).Perm
        (x :: rest)
      ∧ ∀ z ∈ (exchange x rest (minIndex key x rest)).2,
        key (exchange x rest (minIndex key x rest)).1 ≤ key z := by
  obtain ⟨y, hat, hleast⟩ := minIndex_spec key x rest
  obtain ⟨hfirst, hperm⟩ := exchange_spec hat
  refine ⟨hperm, ?_⟩
  intro z hz
  rw [hfirst]
  exact hleast z (hperm.subset (List.mem_cons_of_mem _ hz))

/-! ## The sort -/

theorem perm_sortFrom (n : Nat) (l : List α) : (sortFrom key n l).Perm l := by
  induction n generalizing l with
  | zero => exact List.Perm.refl l
  | succ n ih =>
    cases l with
    | nil => exact List.Perm.refl []
    | cons x rest => exact ((ih _).cons _).trans (round_spec key x rest).1

theorem perm_selectionSort (l : List α) : (selectionSort key l).Perm l := perm_sortFrom _ l

theorem pairwise_sortFrom {n : Nat} {l : List α} (hn : l.length ≤ n) :
    (sortFrom key n l).Pairwise (fun a b => key a ≤ key b) := by
  induction n generalizing l with
  | zero =>
    obtain rfl : l = [] := List.length_eq_zero_iff.1 (by omega)
    exact List.Pairwise.nil
  | succ n ih =>
    cases l with
    | nil => exact List.Pairwise.nil
    | cons x rest =>
      obtain ⟨hperm, hleast⟩ := round_spec key x rest
      have hlength := hperm.length_eq
      simp only [List.length_cons] at hlength hn
      refine List.Pairwise.cons ?_ (ih (by omega))
      intro z hz
      exact hleast z ((perm_sortFrom _ _).subset hz)

theorem pairwise_selectionSort (l : List α) :
    (selectionSort key l).Pairwise (fun a b => key a ≤ key b) :=
  pairwise_sortFrom (le_refl _)

/-! ## Another key in the same order -/

section Map

variable {key' : β → κ} {g : α → β}

theorem scanMin_map {a : α} {iMin j : Nat} {xs : List α}
    (h : ∀ x ∈ a :: xs, ∀ y ∈ a :: xs, key' (g x) < key' (g y) ↔ key x < key y) :
    scanMin key' (key' (g a)) iMin j (xs.map g) = scanMin key (key a) iMin j xs := by
  induction xs generalizing a iMin j with
  | nil => rfl
  | cons x xs ih =>
    have hhead := h x (by simp) a (by simp)
    simp only [List.map_cons, scanMin, gt_iff_lt, hhead]
    split
    · exact ih fun u hu v hv => h u (List.mem_cons_of_mem _ hu) v (List.mem_cons_of_mem _ hv)
    · refine ih fun u hu v hv => h u ?_ v ?_
      · exact List.mem_cons.2 ((List.mem_cons.1 hu).imp_right (List.mem_cons_of_mem _))
      · exact List.mem_cons.2 ((List.mem_cons.1 hv).imp_right (List.mem_cons_of_mem _))

theorem exchange_map (x : α) (rest : List α) (k : Nat) :
    exchange (g x) (rest.map g) k = ((g (exchange x rest k).1), (exchange x rest k).2.map g) := by
  cases k with
  | zero => rfl
  | succ k =>
    simp only [exchange, List.getD_eq_getElem?_getD, List.getElem?_map, List.map_set,
      Option.getD_map]

theorem sortFrom_map (n : Nat) {l : List α}
    (h : ∀ x ∈ l, ∀ y ∈ l, key' (g x) < key' (g y) ↔ key x < key y) :
    sortFrom key' n (l.map g) = (sortFrom key n l).map g := by
  induction n generalizing l with
  | zero => rfl
  | succ n ih =>
    cases l with
    | nil => rfl
    | cons x rest =>
      have hindex : minIndex key' (g x) (rest.map g) = minIndex key x rest := scanMin_map h
      have hperm := (round_spec key x rest).1
      simp only [List.map_cons, sortFrom, hindex, exchange_map]
      rw [ih fun u hu v hv => h u (hperm.subset (List.mem_cons_of_mem _ hu)) v
        (hperm.subset (List.mem_cons_of_mem _ hv))]

theorem selectionSort_map {l : List α}
    (h : ∀ x ∈ l, ∀ y ∈ l, key' (g x) < key' (g y) ↔ key x < key y) :
    selectionSort key' (l.map g) = (selectionSort key l).map g := by
  unfold selectionSort
  rw [List.length_map]
  exact sortFrom_map _ h

end Map

end SelectionSort
