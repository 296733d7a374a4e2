import Mathlib.Data.List.Nodup
import Mathlib.Data.Tree.Basic
import QotStack.Lib.OrderedInsert

/-!
# SearchTree — intrusive search trees, walked by hand

A C program that keeps its records in a tree writes the walks itself: to find a key it compares and
goes left or right, to insert a record it walks down the same way, links it at the leaf it reaches,
and gives up on an equal key. Rebalancing and unlinking are left to a library, of which it only
matters what they do to the traversal from left to right (`Primitives`).

* `find_eq` — in a search tree the walk finds what a search of the traversal finds;
* `insert_eq_none_iff` — the insertion gives up exactly on a key that is found;
* `inorder_insert` — otherwise it puts the record where it belongs in the traversal;
* `put` — the variant that takes the place of a record with an equal key;
* `inorder_link` — the variant that walks past records with an equal key.

So that a tree may be replaced by its traversal, whatever its shape.
-/

namespace SearchTree

open OrderedInsert

variable {α κ : Type _}

/-- The records from left to right. -/
def inorder : BinaryTree α → List α
  | .nil => []
  | .node v l r => inorder l ++ v :: inorder r

/-- Records rewritten in place. -/
theorem inorder_map {β : Type _} (f : α → β) (t : BinaryTree α) :
    inorder (t.map f) = (inorder t).map f := by
  induction t with
  | nil => rfl
  | node v l r ihl ihr => simp [BinaryTree.map, inorder, ihl, ihr]

/-- A tree with a given traversal. -/
def ofList : List α → BinaryTree α
  | [] => .nil
  | x :: xs => .node x .nil (ofList xs)

theorem inorder_ofList (l : List α) : inorder (ofList l) = l := by
  induction l with
  | nil => rfl
  | cons x xs ih => simp [ofList, inorder, ih]

section Walks

variable [Ord κ] (key : α → κ)

/-- What is left of a node is smaller, what is right of it is larger. -/
def IsSearchTree : BinaryTree α → Prop
  | .nil => True
  | .node v l r => IsSearchTree l ∧ IsSearchTree r
    ∧ (∀ y ∈ inorder l, compare (key y) (key v) = .lt)
    ∧ ∀ y ∈ inorder r, compare (key v) (key y) = .lt

def find (k : κ) : BinaryTree α → Option α
  | .nil => none
  | .node v l r =>
    match compare k (key v) with
    | .lt => find k l
    | .gt => find k r
    | .eq => some v

/-- Link a record at the leaf the walk reaches. -/
def insert (x : α) : BinaryTree α → Option (BinaryTree α)
  | .nil => some (.node x .nil .nil)
  | .node v l r =>
    match compare (key x) (key v) with
    | .lt => (insert x l).map fun l' => .node v l' r
    | .gt => (insert x r).map fun r' => .node v l r'
    | .eq => none

/-- Link a record at the leaf the walk reaches, or put it in the place of one with its key, which is
returned. -/
def put (x : α) : BinaryTree α → Option α × BinaryTree α
  | .nil => (none, .node x .nil .nil)
  | .node v l r =>
    match compare (key x) (key v) with
    | .lt => ((put x l).1, .node v (put x l).2 r)
    | .gt => ((put x r).1, .node v l (put x r).2)
    | .eq => (some v, .node x l r)

variable {key} {x : α} {t t' : BinaryTree α} {f : α → α}

/-- Without an equal key it is an insertion. -/
theorem put_of_insert (h : insert key x t = some t') : put key x t = (none, t') := by
  fun_induction insert key x t generalizing t' with
  | case1 =>
    cases h
    rfl
  | case2 v l r hcmp ih =>
    obtain ⟨l', hl', rfl⟩ := Option.map_eq_some_iff.mp h
    simp only [put, hcmp, ih hl']
  | case3 v l r hcmp ih =>
    obtain ⟨r', hr', rfl⟩ := Option.map_eq_some_iff.mp h
    simp only [put, hcmp, ih hr']
  | case4 => cases h

/-- Records rewritten in place are found under the keys they keep. -/
theorem find_map (hf : ∀ y, key (f y) = key y) (k : κ) :
    find key k (t.map f) = (find key k t).map f := by
  induction t with
  | nil => rfl
  | node v l r ihl ihr =>
    simp only [BinaryTree.map, find, hf]
    cases compare k (key v) with
    | lt => exact ihl
    | gt => exact ihr
    | eq => rfl

/-- Both walks take the same path. -/
theorem insert_eq_none_iff : insert key x t = none ↔ ∃ v, find key (key x) t = some v := by
  induction t with
  | nil => simp [insert, find]
  | node v l r ihl ihr =>
    simp only [insert, find]
    cases compare (key x) (key v) with
    | lt => simpa using ihl
    | gt => simpa using ihr
    | eq => simp

/-- Where the walk does not go to the left, the key is not there. -/
theorem IsSearchTree.ne_left {k : κ} {v : α} {l r : BinaryTree α}
    (h : IsSearchTree key (.node v l r))
    (hcmp : compare k (key v) ≠ .lt) : ∀ y ∈ inorder l, key y ≠ k := by
  rintro y hy rfl
  exact hcmp (h.2.2.1 y hy)

variable [Std.TransOrd κ]

theorem isSearchTree_iff :
    IsSearchTree key t ↔ (inorder t).Pairwise fun x y => compare (key x) (key y) = .lt := by
  induction t with
  | nil => simp [IsSearchTree, inorder]
  | node v l r ihl ihr =>
    simp only [IsSearchTree, inorder, List.pairwise_append, List.pairwise_cons, List.mem_cons, ihl,
      ihr]
    constructor
    · rintro ⟨hl, hr, hbelow, habove⟩
      refine ⟨hl, ⟨habove, hr⟩, ?_⟩
      rintro a ha b (rfl | hb)
      · exact hbelow a ha
      · exact Std.TransCmp.lt_trans (hbelow a ha) (habove b hb)
    · rintro ⟨hl, ⟨habove, hr⟩, hcross⟩
      exact ⟨hl, hr, fun y hy => hcross y hy v (Or.inl rfl), habove⟩

theorem inorder_insert (h : IsSearchTree key t) (hins : insert key x t = some t') :
    inorder t' = insertBefore (fun y => compare (key x) (key y) = .lt) x (inorder t) := by
  fun_induction insert key x t generalizing t' with
  | case1 =>
    cases hins
    rfl
  | case2 v l r hcmp ih =>
    obtain ⟨l', hl', rfl⟩ := Option.map_eq_some_iff.mp hins
    simp only [inorder]
    rw [ih h.1 hl', insertBefore_append_of_stop _ _ _ (by simpa using hcmp)]
  | case3 v l r hcmp ih =>
    obtain ⟨hl, hr, hbelow, -⟩ := h
    obtain ⟨r', hr', rfl⟩ := Option.map_eq_some_iff.mp hins
    simp only [inorder]
    have hpast : ∀ y ∈ inorder l ++ [v], ¬ compare (key x) (key y) = .lt := by
      intro y hy hlt
      rcases List.mem_append.mp hy with hy | hy
      · -- `y < v < x`
        have hyx := Std.TransCmp.lt_trans (hbelow y hy) (Std.OrientedCmp.gt_iff_lt.mp hcmp)
        rw [Std.OrientedCmp.gt_iff_lt.mpr hyx] at hlt
        cases hlt
      · rw [List.mem_singleton.mp hy, hcmp] at hlt
        cases hlt
    rw [ih hr hr', List.append_cons, List.append_cons (inorder l) v (inorder r),
      insertBefore_append_of_not_stop _ _ _ (by simpa using hpast)]
  | case4 => cases hins

theorem IsSearchTree.insert (h : IsSearchTree key t) (hins : SearchTree.insert key x t = some t') :
    IsSearchTree key t' := by
  fun_induction SearchTree.insert key x t generalizing t' with
  | case1 =>
    cases hins
    simp [IsSearchTree, inorder]
  | case2 v l r hcmp ih =>
    obtain ⟨hl, hr, hbelow, habove⟩ := h
    obtain ⟨l', hl', rfl⟩ := Option.map_eq_some_iff.mp hins
    refine ⟨ih hl hl', hr, fun y hy => ?_, habove⟩
    rw [inorder_insert hl hl', mem_insertBefore] at hy
    rcases hy with rfl | hy
    · exact hcmp
    · exact hbelow y hy
  | case3 v l r hcmp ih =>
    obtain ⟨hl, hr, hbelow, habove⟩ := h
    obtain ⟨r', hr', rfl⟩ := Option.map_eq_some_iff.mp hins
    refine ⟨hl, ih hr hr', hbelow, fun y hy => ?_⟩
    rw [inorder_insert hr hr', mem_insertBefore] at hy
    rcases hy with rfl | hy
    · exact Std.OrientedCmp.gt_iff_lt.mp hcmp
    · exact habove y hy
  | case4 => cases hins

/-- Nor is it to the right if the walk does not go there. -/
theorem IsSearchTree.ne_right {k : κ} {v : α} {l r : BinaryTree α}
    (h : IsSearchTree key (.node v l r)) (hcmp : compare k (key v) ≠ .gt) :
    ∀ y ∈ inorder r, key y ≠ k := by
  rintro y hy rfl
  exact hcmp (Std.OrientedCmp.gt_iff_lt.mpr (h.2.2.2 y hy))

/-- The order does not depend on the shape, and survives that records go. -/
theorem IsSearchTree.of_sublist (h : IsSearchTree key t) (hsub : (inorder t').Sublist (inorder t)) :
    IsSearchTree key t' :=
  isSearchTree_iff.mpr ((isSearchTree_iff.mp h).sublist hsub)

theorem IsSearchTree.map (h : IsSearchTree key t) (hf : ∀ y, key (f y) = key y) :
    IsSearchTree key (t.map f) := by
  rw [isSearchTree_iff] at h ⊢
  rw [inorder_map, List.pairwise_map]
  simpa only [hf] using h

variable [Std.LawfulEqOrd κ]

/-- Different records have different keys. -/
theorem IsSearchTree.key_inj (h : IsSearchTree key t) : ((inorder t).map key).Nodup := by
  rw [List.Nodup, List.pairwise_map]
  refine (isSearchTree_iff.mp h).imp fun hlt heq => ?_
  rw [heq] at hlt
  simp at hlt

variable [DecidableEq κ]

theorem find_eq (h : IsSearchTree key t) (k : κ) :
    find key k t = (inorder t).find? fun y => key y = k := by
  have hnone : ∀ l : BinaryTree α, (∀ y ∈ inorder l, key y ≠ k) →
      (inorder l).find? (fun y => decide (key y = k)) = none :=
    fun l hne => List.find?_eq_none.mpr (by simpa using hne)
  fun_induction find key k t with
  | case1 => rfl
  | case2 v l r hcmp ih =>
    have hv : key v ≠ k := fun heq => by simp [heq] at hcmp
    simp [inorder, ih h.1, hv, hnone r (h.ne_right (by simp [hcmp]))]
  | case3 v l r hcmp ih =>
    have hv : key v ≠ k := fun heq => by simp [heq] at hcmp
    simp [inorder, ih h.2.1, hv, hnone l (h.ne_left (by simp [hcmp]))]
  | case4 v l r hcmp =>
    have hv : key v = k := (Std.LawfulEqCmp.compare_eq_iff_eq.mp hcmp).symm
    simp [inorder, hv, hnone l (h.ne_left (by simp [hcmp]))]

theorem find_some (h : IsSearchTree key t) {k : κ} {v : α} (hfind : find key k t = some v) :
    v ∈ inorder t ∧ key v = k := by
  rw [find_eq h] at hfind
  exact ⟨List.mem_of_find?_eq_some hfind, by simpa using List.find?_some hfind⟩

theorem find_key (h : IsSearchTree key t) {v : α} (hv : v ∈ inorder t) :
    find key (key v) t = some v := by
  rw [find_eq h]
  cases hfind : (inorder t).find? fun y => key y = key v with
  | none =>
    have hall := List.find?_eq_none.mp hfind v hv
    simp at hall
  | some w =>
    have hw : key w = key v := by simpa using List.find?_some hfind
    rw [List.inj_on_of_nodup_map h.key_inj (List.mem_of_find?_eq_some hfind) hv hw]

theorem map_eq_self (h : ∀ y ∈ inorder t, f y = y) : t.map f = t := by
  induction t with
  | nil => rfl
  | node v l r ihl ihr =>
    simp only [inorder, List.mem_append, List.mem_cons] at h
    simp only [BinaryTree.map]
    rw [h v (Or.inr (Or.inl rfl)), ihl fun y hy => h y (Or.inl hy),
      ihr fun y hy => h y (Or.inr (Or.inr hy))]

/-- With an equal key it rewrites the record in place. -/
theorem put_of_find {v : α} (h : IsSearchTree key t) (hfind : find key (key x) t = some v) :
    put key x t = (some v, t.map fun y => if key y = key x then x else y) := by
  have hmap : ∀ l : BinaryTree α, (∀ y ∈ inorder l, key y ≠ key x) →
      l.map (fun y => if key y = key x then x else y) = l :=
    fun l hne => map_eq_self fun y hy => if_neg (hne y hy)
  fun_induction find key (key x) t with
  | case1 => cases hfind
  | case2 w l r hcmp ih =>
    have hw : key w ≠ key x := fun heq => by simp [heq] at hcmp
    simp only [put, hcmp, BinaryTree.map]
    rw [ih h.1 hfind, hmap r (h.ne_right (by simp [hcmp])), if_neg hw]
  | case3 w l r hcmp ih =>
    have hw : key w ≠ key x := fun heq => by simp [heq] at hcmp
    simp only [put, hcmp, BinaryTree.map]
    rw [ih h.2.1 hfind, hmap l (h.ne_left (by simp [hcmp])), if_neg hw]
  | case4 w l r hcmp =>
    have hw : key w = key x := (Std.LawfulEqCmp.compare_eq_iff_eq.mp hcmp).symm
    simp only [put, hcmp, BinaryTree.map]
    rw [hmap l (h.ne_left (by simp [hcmp])), hmap r (h.ne_right (by simp [hcmp])), if_pos hw, hfind]

/-- A record that is inserted is found under its key, whatever becomes of the shape. -/
theorem find_of_insert {t'' : BinaryTree α} (h : IsSearchTree key t)
    (hins : insert key x t = some t') (hshape : inorder t'' = inorder t') (k : κ) :
    find key k t'' = if k = key x then some x else find key k t := by
  have h' : IsSearchTree key t'' := (h.insert hins).of_sublist (hshape ▸ List.Sublist.refl _)
  split
  · next heq =>
    subst heq
    refine find_key h' ?_
    rw [hshape, inorder_insert h hins, mem_insertBefore]
    exact Or.inl rfl
  · next hne =>
    rw [find_eq h', find_eq h, hshape, inorder_insert h hins]
    exact find?_insertBefore _ _ (by simpa using fun heq => hne heq.symm) _

end Walks

/-! ## Walks that end at a leaf -/

/-- Link a record at the leaf reached by going left wherever `left` says so. Equal keys are no
reason to give up. -/
def link (left : α → Bool) (x : α) : BinaryTree α → BinaryTree α
  | .nil => .node x .nil .nil
  | .node v l r => if left v then .node v (link left x l) r else .node v l (link left x r)

/-- In a tree through which the test changes only once the record is put where it changes. -/
theorem inorder_link {left : α → Bool} {x : α} {t : BinaryTree α}
    (h : (inorder t).Pairwise fun y z => left y = true → left z = true) :
    inorder (link left x t) = insertBefore left x (inorder t) := by
  induction t with
  | nil => rfl
  | node v l r ihl ihr =>
    obtain ⟨hl, hvr, hcross⟩ := List.pairwise_append.mp h
    obtain ⟨-, hr⟩ := List.pairwise_cons.mp hvr
    cases hv : left v with
    | true =>
      simp only [link, hv, if_true, inorder]
      rw [ihl hl, insertBefore_append_of_stop _ _ _ hv]
    | false =>
      simp only [link, hv, Bool.false_eq_true, if_false, inorder]
      -- left of a node that is passed every node is passed
      have hpast : ∀ y ∈ inorder l ++ [v], left y = false := by
        intro y hy
        rcases List.mem_append.mp hy with hy | hy
        · cases hy' : left y with
          | false => rfl
          | true => exact (hcross y hy v List.mem_cons_self hy').symm.trans hv
        · rw [List.mem_singleton.mp hy, hv]
      rw [ihr hr, List.append_cons, List.append_cons (inorder l) v (inorder r),
        insertBefore_append_of_not_stop _ _ _ hpast]

/-- The node farthest to the left. -/
def leftmost : BinaryTree α → Option α
  | .nil => none
  | .node v l _ => (leftmost l).or (some v)

theorem leftmost_eq (t : BinaryTree α) : leftmost t = (inorder t).head? := by
  induction t with
  | nil => rfl
  | node v l r ihl _ =>
    simp only [leftmost, inorder, List.head?_append, ihl, List.head?_cons]

/-! ## Iteration -/

/-- The record after the one with a key. -/
def next [DecidableEq κ] (key : α → κ) (k : κ) (t : BinaryTree α) : Option α :=
  ((inorder t).dropWhile fun y => key y ≠ k).tail.head?

theorem next_of_getElem? [DecidableEq κ] {key : α → κ} {t : BinaryTree α}
    (h : ((inorder t).map key).Nodup) {i : Nat} {x : α} (hx : (inorder t)[i]? = some x) :
    next key (key x) t = (inorder t)[i + 1]? := by
  obtain ⟨front, back, hsplit, hlen⟩ :
      ∃ front back, inorder t = front ++ x :: back ∧ front.length = i := by
    obtain ⟨hi, rfl⟩ := List.getElem?_eq_some_iff.mp hx
    exact ⟨(inorder t).take i, (inorder t).drop (i + 1), by simp,
      List.length_take_of_le (le_of_lt hi)⟩
  rw [hsplit, List.map_append, List.map_cons, List.nodup_append] at h
  have hbefore : ∀ y ∈ front, decide (key y ≠ key x) = true := by
    intro y hy
    exact decide_eq_true (h.2.2 _ (List.mem_map_of_mem hy) _ List.mem_cons_self)
  rw [next, hsplit, List.dropWhile_append_of_pos hbefore, List.dropWhile_cons_of_neg (by simp),
    List.tail_cons, ← hlen, List.getElem?_append_right (Nat.le_succ _)]
  simp [List.head?_eq_getElem?]

/-! ## What is left to the library -/

/-- The primitives that move nodes about, by what they do to the traversal: rebalancing after an
insertion, and unlinking the record with a key. -/
structure Primitives [DecidableEq κ] (key : α → κ) where
  insertColor : BinaryTree α → BinaryTree α
  erase : κ → BinaryTree α → BinaryTree α
  inorder_insertColor : ∀ t, inorder (insertColor t) = inorder t
  inorder_erase : ∀ k t, inorder (erase k t) = (inorder t).filter fun y => key y ≠ k

namespace Primitives

variable [Ord κ] [Std.TransOrd κ] [DecidableEq κ] {key : α → κ} (rb : Primitives key)
  {t t' : BinaryTree α}

theorem isSearchTree_insert {x : α} (h : IsSearchTree key t)
    (hins : insert key x t = some t') : IsSearchTree key (rb.insertColor t') :=
  (h.insert hins).of_sublist (rb.inorder_insertColor t' ▸ List.Sublist.refl _)

theorem isSearchTree_erase (h : IsSearchTree key t) (k : κ) : IsSearchTree key (rb.erase k t) :=
  h.of_sublist (rb.inorder_erase k t ▸ List.filter_sublist)

theorem mem_insert {x y : α} (h : IsSearchTree key t) (hins : insert key x t = some t') :
    y ∈ inorder (rb.insertColor t') ↔ y = x ∨ y ∈ inorder t := by
  rw [rb.inorder_insertColor, inorder_insert h hins, mem_insertBefore]

variable [Std.LawfulEqOrd κ]

/-- An insertion adds one entry to the map the tree stands for. -/
theorem find_insert {x : α} (h : IsSearchTree key t) (hins : insert key x t = some t')
    (k : κ) : find key k (rb.insertColor t') = if k = key x then some x else find key k t :=
  find_of_insert h hins (rb.inorder_insertColor t') k

/-- Unlinking a record takes its entry out. -/
theorem find_erase (h : IsSearchTree key t) (k k' : κ) :
    find key k' (rb.erase k t) = if k' = k then none else find key k' t := by
  rw [find_eq (rb.isSearchTree_erase h k), find_eq h, rb.inorder_erase, List.find?_filter]
  split
  · next heq =>
    subst heq
    simp
  · next hne =>
    congr 1
    funext y
    by_cases hy : key y = k'
    · simp [hy, hne]
    · simp [hy]

end Primitives

/-- Primitives that do not balance. -/
def Primitives.plain [DecidableEq κ] (key : α → κ) : Primitives key where
  insertColor t := t
  erase k t := ofList ((inorder t).filter fun y => key y ≠ k)
  inorder_insertColor _ := rfl
  inorder_erase _ _ := inorder_ofList _

end SearchTree
