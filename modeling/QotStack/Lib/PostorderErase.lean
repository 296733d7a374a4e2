import QotStack.Lib.RedBlack

/-!
# PostorderErase — erasing a red-black tree while walking it

A loop walks a tree in postorder and erases every node it meets. It looks up the node after the
present one before it erases that one, so that it does not depend on a node that is gone; but the
erasure moves nodes about, and the node to go on with may no longer be the first one of the tree
that is left.

* `first_erase_ne` — what is before that node once, is left behind for good;
* `eraseAll_perm` — whatever happens, every node is erased once or left;
* `eraseAll_eq_nil_iff` — nothing is left exactly if no erasure puts a node in front of the one the
  loop goes on with.
-/

namespace RedBlack

namespace Tree

variable {α : Type _} [DecidableEq α]

/-! ## A walk in postorder -/

/-- The node a walk in postorder begins with: down to the left, and to the right where there is
nothing on the left. -/
def first : Tree α → Option α
  | nil => none
  | node _ l v r => (first l).or ((first r).or (some v))

/-- The node after `x`. The root of a subtree has none in it, and is followed by the first node of
its right sibling, or by its parent. -/
def next (x : α) : Tree α → Option α
  | nil => none
  | node _ l v r =>
    if v = x then none
    else if x ∈ inorder l then (next x l).or ((first r).or (some v))
    else (next x r).or (some v)

/-- The loop: look up the node after the present one, erase the present one, go on. -/
def eraseAllFrom : Nat → Tree α → Option α → List α × Tree α
  | fuel + 1, t, some x =>
    let rest := eraseAllFrom fuel (erase x t) (next x t)
    (x :: rest.1, rest.2)
  | _, t, _ => ([], t)

/-- There are as many turns as nodes at most. -/
def eraseAll (t : Tree α) : List α × Tree α := eraseAllFrom (inorder t).length t (first t)

/-- At every turn the node that was looked up is the first one of what the erasure leaves. -/
def UndisturbedFrom : Nat → Tree α → Option α → Prop
  | fuel + 1, t, some x => next x t = first (erase x t)
      ∧ UndisturbedFrom fuel (erase x t) (next x t)
  | _, _, _ => True

def Undisturbed (t : Tree α) : Prop := UndisturbedFrom (inorder t).length t (first t)

section First

omit [DecidableEq α]

theorem first_eq_none {t : Tree α} : first t = none ↔ t = nil := by
  cases t <;> simp [first]

variable {l : Tree α}

theorem first_of_left {c : Color} {r : Tree α} {v : α} (hl : l ≠ nil) :
    first (node c l v r) = first l := by
  obtain ⟨a, ha⟩ := Option.ne_none_iff_exists'.mp fun h => hl (first_eq_none.mp h)
  simp [first, ha]

theorem first_mem {t : Tree α} {x : α} (h : first t = some x) : x ∈ inorder t := by
  induction t with
  | nil => cases h
  | node c l v r ihl ihr =>
    simp only [first, Option.or_eq_some_iff, Option.some.injEq] at h
    simp only [inorder, List.mem_append, List.mem_cons]
    rcases h with hl | ⟨-, hr | ⟨-, hv⟩⟩
    · exact Or.inl (ihl hl)
    · exact Or.inr (Or.inr (ihr hr))
    · exact Or.inr (Or.inl hv.symm)

theorem first_eraseFixBlackL (c : Color) (hl : l ≠ nil) (v : α) (r : Tree α) :
    first (eraseFixBlackL c l v r).1 = first l := by
  unfold eraseFixBlackL
  split
  · exact first_of_left hl
  · split
    · rw [first_of_left (by simp), first_of_left hl]
    · split
      · rw [first_of_left (by simp), first_of_left hl]
      · exact first_of_left hl

/-- On the way to the first node every repair on the right is passed by. -/
theorem first_joinL (c : Color) {l : Tree α × Bool} (hl : l.1 ≠ nil) (v : α) (r : Tree α) :
    first (joinL c l v r).1 = first l.1 := by
  unfold joinL
  split
  · unfold eraseFixL
    split
    · next rl rv rr =>
      have hbelow : (eraseFixBlackL .red l.1 v rl).1 ≠ nil := by
        intro hnil
        have hfirst := first_eraseFixBlackL .red hl v rl
        rw [hnil] at hfirst
        exact hl (first_eq_none.mp hfirst.symm)
      rw [first_of_left hbelow, first_eraseFixBlackL .red hl]
    · exact first_eraseFixBlackL c hl v r
  · exact first_of_left hl

/-- A repair after a loss on the left leaves something of the sibling on the right. -/
theorem eraseFixL_right (c : Color) (l : Tree α) (v : α) {r : Tree α} {m : Nat}
    (hr : Balanced r (m + 1)) : ∃ c' l' w r', (eraseFixL c l v r).1 = node c' l' w r' ∧ r' ≠ nil
      ∧ inorder r' ⊆ inorder r := by
  rcases r with _ | ⟨_ | _, rl, rv, rr⟩
  · exact absurd rfl hr.ne_nil
  · refine ⟨c, _, rv, rr, rfl, hr.2.1.ne_nil, ?_⟩
    exact List.subset_append_of_subset_right _ (List.subset_cons_self _ _)
  · simp only [eraseFixL, eraseFixBlackL]
    split
    · next hred =>
      refine ⟨c, _, rv, rr.paint .black, rfl, ?_, ?_⟩
      · rintro hnil
        rcases rr with _ | ⟨_ | _, a, x, b⟩
        · cases hred
        · cases hnil
        · cases hnil
      · rw [inorder_paint]
        exact List.subset_append_of_subset_right _ (List.subset_cons_self _ _)
    · split
      · next _ a x b =>
        refine ⟨c, _, x, _, rfl, by simp, ?_⟩
        intro y hy
        simp only [inorder, List.mem_append, List.mem_cons] at hy ⊢
        tauto
      · exact ⟨_, l, v, _, rfl, by simp, List.Subset.refl _⟩

theorem first_joinR (c : Color) {m : Nat} (hl : Balanced l m) (hne : l ≠ nil) (v : α)
    {r : Tree α × Bool} {rc : Color} (hr : Leaves rc m r) :
    ∃ a ∈ inorder l, first (joinR c l v r).1 = some a := by
  obtain ⟨a, ha⟩ := Option.ne_none_iff_exists'.mp fun h => hne (first_eq_none.mp h)
  unfold joinR
  split
  · next hshort =>
    obtain ⟨-, m', rfl, -⟩ := hr.short hshort
    obtain ⟨c', l', w, r', heq, hr', hsub⟩ := eraseFixL_right c r.1.mirror v hl.mirror
    have hleft : r'.mirror ≠ nil := by
      intro hnil
      apply hr'
      rw [← mirror_mirror r', hnil]
      rfl
    have hfirst : first (eraseFixR c l v r.1).1 = first r'.mirror := by
      simp only [eraseFixR, heq, mirror]
      exact first_of_left hleft
    obtain ⟨b, hb⟩ := Option.ne_none_iff_exists'.mp fun h => hleft (first_eq_none.mp h)
    refine ⟨b, ?_, hfirst.trans hb⟩
    have hmem : b ∈ inorder r' := by simpa using first_mem hb
    simpa using hsub hmem
  · exact ⟨a, first_mem ha, (first_of_left hne).trans ha⟩

end First

variable {x y : α} {t : Tree α} {n : Nat} {pos : Option α}

theorem next_mem (h : next x t = some y) : y ∈ inorder t := by
  fun_induction next x t with
  | case1 => cases h
  | case2 => cases h
  | case3 c l v r _ _ ih =>
    simp only [Option.or_eq_some_iff, Option.some.injEq] at h
    simp only [inorder, List.mem_append, List.mem_cons]
    rcases h with hl | ⟨-, hr | ⟨-, hv⟩⟩
    · exact Or.inl (ih hl)
    · exact Or.inr (Or.inr (first_mem hr))
    · exact Or.inr (Or.inl hv.symm)
  | case4 c l v r _ _ ih =>
    simp only [Option.or_eq_some_iff, Option.some.injEq] at h
    simp only [inorder, List.mem_append, List.mem_cons]
    rcases h with hr | ⟨-, hv⟩
    · exact Or.inr (Or.inr (ih hr))
    · exact Or.inr (Or.inl hv.symm)

/-- Where the node after `x` is: `x` is in the left subtree, and if it is its root, then it is
followed by a node outside; or it is in the right one. -/
theorem next_cases {c : Color} {l r : Tree α} {v : α} (hx : x ∈ inorder (node c l v r))
    (h : next x (node c l v r) = some y) : x ≠ v ∧
      ((x ∈ inorder l ∧ (next x l = some y ∨ next x l = none ∧ y ∈ v :: inorder r))
        ∨ (x ∉ inorder l ∧ x ∈ inorder r ∧ (next x r = some y ∨ y = v))) := by
  simp only [inorder, List.mem_append, List.mem_cons] at hx ⊢
  simp only [next] at h
  split at h
  · cases h
  · next hne =>
    refine ⟨Ne.symm hne, ?_⟩
    split at h
    · next hl =>
      refine Or.inl ⟨hl, ?_⟩
      simp only [Option.or_eq_some_iff, Option.some.injEq] at h
      rcases h with hnext | ⟨hnone, hr | ⟨-, rfl⟩⟩
      · exact Or.inl hnext
      · exact Or.inr ⟨hnone, Or.inr (first_mem hr)⟩
      · exact Or.inr ⟨hnone, Or.inl rfl⟩
    · next hl =>
      refine Or.inr ⟨hl, (hx.resolve_left hl).resolve_left (Ne.symm hne), ?_⟩
      simp only [Option.or_eq_some_iff, Option.some.injEq] at h
      rcases h with hnext | ⟨-, rfl⟩
      · exact Or.inl hnext
      · exact Or.inr rfl

theorem next_ne (hnodup : (inorder t).Nodup) (hx : x ∈ inorder t) (h : next x t = some y) :
    y ≠ x := by
  induction t with
  | nil => cases hx
  | node c l v r ihl ihr =>
    obtain ⟨hl, hr, hdisj⟩ := List.nodup_append.mp hnodup
    obtain ⟨hxv, ⟨hxl, hnext | ⟨-, hy⟩⟩ | ⟨-, hxr, hnext | rfl⟩⟩ := next_cases hx h
    · exact ihl hl hxl hnext
    · exact (hdisj x hxl y hy).symm
    · exact ihr (List.nodup_cons.mp hr).2 hxr hnext
    · exact hxv.symm

theorem mem_erase (hnodup : (inorder t).Nodup) (hx : x ∈ inorder t) :
    y ∈ inorder (erase x t) ↔ y ∈ inorder t ∧ y ≠ x := by
  have hperm := erase_perm hx
  have hx' : x ∉ inorder (erase x t) := (List.nodup_cons.mp (hperm.nodup_iff.mpr hnodup)).1
  rw [← hperm.mem_iff, List.mem_cons]
  constructor
  · intro hy
    exact ⟨Or.inr hy, fun heq => hx' (heq ▸ hy)⟩
  · rintro ⟨rfl | hy, hne⟩
    · exact absurd rfl hne
    · exact hy

theorem erase_ne_nil (hx : x ∈ inorder t) (hfirst : first t ≠ some x) : erase x t ≠ nil := by
  intro hnil
  have hperm := erase_perm hx
  rw [hnil] at hperm
  -- a tree with one node begins with it
  obtain ⟨a, ha⟩ := Option.ne_none_iff_exists'.mp fun h =>
    List.ne_nil_of_mem hx (inorder_eq_nil.mpr (first_eq_none.mp h))
  have hmem := hperm.mem_iff.mpr (first_mem ha)
  rw [List.mem_singleton.mp hmem] at ha
  exact hfirst ha

/-- What the walk has left behind once, it leaves behind for good: if `x` is not the first node,
then the node after it is not the first one of what the erasure of `x` leaves. -/
theorem first_erase_ne (h : Balanced t n) (hnodup : (inorder t).Nodup) (hx : x ∈ inorder t)
    (hfirst : first t ≠ some x) (hnext : next x t = some y) : first (erase x t) ≠ some y := by
  induction t generalizing n with
  | nil => cases hx
  | node c l v r ihl ihr =>
    obtain ⟨hl, hr, hdisj⟩ := List.nodup_append.mp hnodup
    obtain ⟨m, -, hbl, hbr, hb⟩ := balanced_node_iff.mp h
    obtain ⟨hxv, ⟨hxl, hcase⟩ | ⟨hxl, hxr, hcase⟩⟩ := next_cases hx hnext
    · -- the first node is that of the left subtree, before and after
      have hne : l ≠ nil := by
        rintro rfl
        cases hxl
      rw [first_of_left hne] at hfirst
      have hrest : erase x l ≠ nil := erase_ne_nil hxl hfirst
      have herase : first (erase x (node c l v r)) = first (erase x l) := by
        simp only [erase, del, if_neg hxv.symm, if_pos hxl]
        exact first_joinL c hrest v r
      rw [herase]
      rcases hcase with hsame | ⟨-, hy⟩
      · exact ihl hbl hl hxl hfirst hsame
      · intro hfirst'
        have hyl := ((mem_erase hl hxl).mp (first_mem hfirst')).1
        exact hdisj y hyl y hy rfl
    · -- the first node is one of the left subtree, which is not empty
      have hne : l ≠ nil := by
        rintro rfl
        cases hbl
        rcases hbr.zero with rfl | ⟨w, rfl⟩
        · cases hxr
        · rw [List.mem_singleton.mp hxr] at hfirst
          exact hfirst rfl
      have herase : first (erase x (node c l v r)) = first (joinR c l v (del x r)).1 := by
        simp only [erase, del, if_neg hxv.symm, if_neg hxl]
      obtain ⟨a, ha, hfirst'⟩ := first_joinR c hbl hne v (leaves_del x hbr)
      rw [herase, hfirst']
      intro heq
      rw [Option.some.inj heq] at ha
      rcases hcase with hsame | rfl
      · exact hdisj y ha y (List.mem_cons_of_mem _ (next_mem hsame)) rfl
      · exact hdisj y ha y List.mem_cons_self rfl

/-! ## The loop -/

theorem length_erase (hx : x ∈ inorder t) : (inorder t).length = (inorder (erase x t)).length + 1 :=
  (erase_perm hx).length_eq.symm

/-- A node to go on with, in the tree. -/
def AtNode (t : Tree α) (pos : Option α) : Prop := ∀ x, pos = some x → x ∈ inorder t

theorem AtNode.next {x : α} {t : Tree α} (hnodup : (inorder t).Nodup) (hx : x ∈ inorder t) :
    AtNode (erase x t) (next x t) := by
  intro y hy
  exact (mem_erase hnodup hx).mpr ⟨next_mem hy, next_ne hnodup hx hy⟩

theorem nodup_erase (hnodup : (inorder t).Nodup) (hx : x ∈ inorder t) :
    (inorder (erase x t)).Nodup :=
  (List.nodup_cons.mp ((erase_perm hx).nodup_iff.mpr hnodup)).2

/-- The loop erases what it meets and leaves the rest. -/
theorem eraseAllFrom_perm (fuel : Nat) (hnodup : (inorder t).Nodup) (hpos : AtNode t pos) :
    ((eraseAllFrom fuel t pos).1 ++ inorder (eraseAllFrom fuel t pos).2).Perm
      (inorder t) := by
  fun_induction eraseAllFrom fuel t pos with
  | case1 fuel t x rest ih =>
    have hx := hpos x rfl
    refine List.Perm.trans ?_ (erase_perm hx)
    exact (ih (nodup_erase hnodup hx) (AtNode.next hnodup hx)).cons x
  | case2 => exact List.Perm.refl _

/-- More turns than nodes make no difference. -/
theorem eraseAllFrom_of_le {fuel : Nat} (hnodup : (inorder t).Nodup) (hpos : AtNode t pos)
    (hfuel : (inorder t).length ≤ fuel) :
    eraseAllFrom fuel t pos = eraseAllFrom (inorder t).length t pos := by
  induction fuel generalizing t pos with
  | zero => rw [Nat.le_zero.mp hfuel]
  | succ fuel ih =>
    cases pos with
    | none => cases (inorder t).length <;> rfl
    | some x =>
      have hx := hpos x rfl
      have hlength := length_erase hx
      rw [hlength]
      simp only [eraseAllFrom]
      rw [ih (nodup_erase hnodup hx) (AtNode.next hnodup hx) (by omega)]

theorem eraseAllFrom_ne_nil {fuel : Nat} (h : Balanced t n) (hnodup : (inorder t).Nodup)
    (hpos : AtNode t pos) (hfirst : first t ≠ pos) : (eraseAllFrom fuel t pos).2 ≠ nil := by
  induction fuel generalizing t n pos with
  | zero =>
    rintro rfl
    cases pos with
    | none => exact hfirst rfl
    | some x => cases hpos x rfl
  | succ fuel ih =>
    cases pos with
    | none => exact fun hnil => hfirst (first_eq_none.mpr hnil)
    | some x =>
      have hx := hpos x rfl
      obtain ⟨m, hm⟩ := h.erase x
      refine ih hm (nodup_erase hnodup hx) (AtNode.next hnodup hx) ?_
      cases hnext : next x t with
      | none => exact fun hnil => erase_ne_nil hx hfirst (first_eq_none.mp hnil)
      | some y => exact first_erase_ne h hnodup hx hfirst hnext

theorem eraseAllFrom_eq_nil_iff {fuel : Nat} (h : Balanced t n) (hnodup : (inorder t).Nodup)
    (hfuel : (inorder t).length ≤ fuel) :
    (eraseAllFrom fuel t (first t)).2 = nil ↔ UndisturbedFrom fuel t (first t) := by
  induction fuel generalizing t n with
  | zero =>
    have hnil := inorder_eq_nil.mp (List.eq_nil_of_length_eq_zero (Nat.le_zero.mp hfuel))
    exact iff_of_true hnil trivial
  | succ fuel ih =>
    cases hfirst : first t with
    | none => exact iff_of_true (first_eq_none.mp hfirst) trivial
    | some x =>
      have hx := first_mem hfirst
      have hnodup' := nodup_erase hnodup hx
      have hlength := length_erase hx
      obtain ⟨m, hm⟩ := h.erase x
      simp only [eraseAllFrom, UndisturbedFrom]
      by_cases hkept : next x t = first (erase x t)
      · rw [hkept]
        simp only [true_and]
        exact ih hm hnodup' (by omega)
      · refine iff_of_false ?_ fun hu => hkept hu.1
        exact eraseAllFrom_ne_nil hm hnodup' (AtNode.next hnodup hx) (Ne.symm hkept)

/-- **The loop empties the tree exactly if no erasure puts a node in front of the one it goes on
with.** -/
theorem eraseAll_eq_nil_iff (h : Balanced t n) (hnodup : (inorder t).Nodup) :
    (eraseAll t).2 = nil ↔ Undisturbed t :=
  eraseAllFrom_eq_nil_iff h hnodup le_rfl

theorem eraseAll_perm (hnodup : (inorder t).Nodup) :
    ((eraseAll t).1 ++ inorder (eraseAll t).2).Perm (inorder t) :=
  eraseAllFrom_perm _ hnodup fun _ => first_mem

end Tree

end RedBlack
