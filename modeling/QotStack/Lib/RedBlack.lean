import Mathlib.Data.List.Nodup
import Mathlib.Data.List.Perm.Basic
import QotStack.Lib.SearchTree

/-!
# RedBlack — red-black trees with their rotations

Where only the order of the records matters, a balanced tree may be replaced by its traversal
(`SearchTree`). Where a program holds on to a node while the tree is rebalanced around it, the shape
matters. Here are the standard insertion and erasure with every recolouring and rotation, the cases
numbered as they usually are.

* `Balanced.insert`, `Balanced.erase` — the tree stays balanced;
* `inorder_ins`, `erase_perm` — what is inserted is there, what is erased is gone, and nothing else
  changes in the traversal from left to right.

Nodes are told apart by what they hold.
-/

namespace RedBlack

inductive Color where
  | red
  | black
  deriving DecidableEq, Repr

/-- The black height of a node of this colour, above subtrees of black height `n`. -/
def Color.height : Color → Nat → Nat
  | .red, n => n
  | .black, n => n + 1

inductive Tree (α : Type _) where
  | nil
  | node (c : Color) (l : Tree α) (v : α) (r : Tree α)
  deriving DecidableEq, Repr

namespace Tree

variable {α κ : Type _}

def inorder : Tree α → List α
  | nil => []
  | node _ l v r => inorder l ++ v :: inorder r

/-- Leaves count as black. -/
def isRed : Tree α → Bool
  | node .red _ _ _ => true
  | node .black _ _ _ => false
  | nil => false

def paint (c : Color) : Tree α → Tree α
  | nil => nil
  | node _ l v r => node c l v r

def mirror : Tree α → Tree α
  | nil => nil
  | node c l v r => node c (mirror r) v (mirror l)

/-- The tree without its colours. -/
def plain : Tree α → BinaryTree α
  | nil => .nil
  | node _ l v r => .node v (plain l) (plain r)

/-- Red nodes have black children, and every path to a leaf passes `n` black nodes. -/
def Balanced : Tree α → Nat → Prop
  | nil, n => n = 0
  | node .red l _ r, n => Balanced l n ∧ Balanced r n ∧ l.isRed = false ∧ r.isRed = false
  | node .black _ _ _, 0 => False
  | node .black l _ r, n + 1 => Balanced l n ∧ Balanced r n

@[simp] theorem inorder_paint (c : Color) (t : Tree α) : inorder (paint c t) = inorder t := by
  cases t <;> rfl

@[simp] theorem inorder_mirror (t : Tree α) : inorder (mirror t) = (inorder t).reverse := by
  induction t with
  | nil => rfl
  | node c l v r ihl ihr => simp [mirror, inorder, ihl, ihr]

@[simp] theorem isRed_mirror (t : Tree α) : (mirror t).isRed = t.isRed := by
  rcases t with _ | ⟨_ | _, l, v, r⟩ <;> rfl

@[simp] theorem mirror_mirror (t : Tree α) : mirror (mirror t) = t := by
  induction t with
  | nil => rfl
  | node c l v r ihl ihr => simp [mirror, ihl, ihr]

theorem inorder_plain (t : Tree α) : SearchTree.inorder t.plain = inorder t := by
  induction t with
  | nil => rfl
  | node c l v r ihl ihr => simp [plain, inorder, SearchTree.inorder, ihl, ihr]

variable {t l r t' : Tree α} {n m : Nat} {v : α} {key : α → κ} {c : Color}

theorem inorder_eq_nil : inorder t = [] ↔ t = nil := by
  cases t <;> simp [inorder]

theorem Balanced.mirror (h : Balanced t n) : Balanced t.mirror n := by
  induction t generalizing n with
  | nil => exact h
  | node c l v r ihl ihr =>
    cases c with
    | red => exact ⟨ihr h.2.1, ihl h.1, by simpa using h.2.2.2, by simpa using h.2.2.1⟩
    | black =>
      cases n with
      | zero => exact h.elim
      | succ m => exact ⟨ihr h.2, ihl h.1⟩

theorem Balanced.of_black (h : Balanced (node .black l v r) n) :
    ∃ m, n = m + 1 ∧ Balanced l m ∧ Balanced r m := by
  cases n with
  | zero => exact h.elim
  | succ m => exact ⟨m, rfl, h⟩

theorem Balanced.ne_nil (h : Balanced t (n + 1)) : t ≠ nil := by
  rintro rfl
  cases h

theorem Balanced.eq_nil (h : Balanced t 0) (hblack : t.isRed = false) : t = nil := by
  rcases t with _ | ⟨_ | _, l, v, r⟩
  · rfl
  · cases hblack
  · exact h.elim

/-- A tree of height zero is at most a red leaf. -/
theorem Balanced.zero (h : Balanced t 0) : t = nil ∨ ∃ v, t = node .red nil v nil := by
  rcases t with _ | ⟨_ | _, l, v, r⟩
  · exact Or.inl rfl
  · obtain ⟨hl, hr, hlb, hrb⟩ := h
    exact Or.inr ⟨v, by rw [hl.eq_nil hlb, hr.eq_nil hrb]⟩
  · exact h.elim

/-! ## Insertion -/

/-- On the left of `v` a red node may have got a red child. If its sibling is red too, both turn
black and `v` red; otherwise one or two rotations put things right. -/
def insertFixL (c : Color) (l : Tree α) (v : α) (r : Tree α) : Tree α :=
  match c, l with
  | .black, node .red ll lv lr =>
    if ll.isRed || lr.isRed then
      -- case 1: the uncle is red
      if r.isRed then node .red (node .black ll lv lr) v (r.paint .black)
      else
        match lr with
        -- case 2: rotate left at the parent, which leads to case 3
        | node .red a x b => node .black (node .red ll lv a) x (node .red b v r)
        -- case 3: rotate right at the grandparent
        | _ => node .black ll lv (node .red lr v r)
    else node c l v r
  | _, _ => node c l v r

/-- The mirror image. -/
def insertFixR (c : Color) (l : Tree α) (v : α) (r : Tree α) : Tree α :=
  mirror (insertFixL c (mirror r) v (mirror l))

/-- Walk down, link a red leaf, and set right on the way up what it breaks. An equal key ends the
walk. -/
def ins [Ord κ] (key : α → κ) (x : α) : Tree α → Option (Tree α)
  | nil => some (node .red nil x nil)
  | node c l v r =>
    match compare (key x) (key v) with
    | .lt => (ins key x l).map fun l' => insertFixL c l' v r
    | .gt => (ins key x r).map fun r' => insertFixR c l v r'
    | .eq => none

/-- The root is black. -/
def insert [Ord κ] (key : α → κ) (x : α) (t : Tree α) : Option (Tree α) :=
  (ins key x t).map (paint .black)

theorem inorder_insertFixL (c : Color) (l : Tree α) (v : α) (r : Tree α) :
    inorder (insertFixL c l v r) = inorder l ++ v :: inorder r := by
  unfold insertFixL
  split
  · split
    · split
      · simp [inorder]
      · split <;> simp [inorder]
    · rfl
  · rfl

theorem inorder_insertFixR (c : Color) (l : Tree α) (v : α) (r : Tree α) :
    inorder (insertFixR c l v r) = inorder l ++ v :: inorder r := by
  simp [insertFixR, inorder_insertFixL]

/-- Rotations do not show from left to right: the insertion is that of a plain search tree. -/
theorem inorder_ins [Ord κ] {x : α} (h : ins key x t = some t') :
    ∃ b, SearchTree.insert key x t.plain = some b ∧ SearchTree.inorder b = inorder t' := by
  fun_induction ins key x t generalizing t' with
  | case1 =>
    cases h
    exact ⟨_, rfl, rfl⟩
  | case2 c l v r hcmp ih =>
    obtain ⟨l', hl', rfl⟩ := Option.map_eq_some_iff.mp h
    obtain ⟨b, hb, hinorder⟩ := ih hl'
    refine ⟨.node v b r.plain, by simp [plain, SearchTree.insert, hcmp, hb], ?_⟩
    rw [inorder_insertFixL, SearchTree.inorder, hinorder, inorder_plain]
  | case3 c l v r hcmp ih =>
    obtain ⟨r', hr', rfl⟩ := Option.map_eq_some_iff.mp h
    obtain ⟨b, hb, hinorder⟩ := ih hr'
    refine ⟨.node v l.plain b, by simp [plain, SearchTree.insert, hcmp, hb], ?_⟩
    rw [inorder_insertFixR, SearchTree.inorder, hinorder, inorder_plain]
  | case4 => cases h

/-- Balanced, but for a root that may be red with one red child. -/
def Almost : Tree α → Nat → Prop
  | node .red l _ r, n => Balanced l n ∧ Balanced r n ∧ (l.isRed = false ∨ r.isRed = false)
  | t, n => Balanced t n

theorem Balanced.almost (h : Balanced t n) : Almost t n := by
  rcases t with _ | ⟨_ | _, l, v, r⟩
  · exact h
  · exact ⟨h.1, h.2.1, Or.inl h.2.2.1⟩
  · exact h

theorem Almost.mirror (h : Almost t n) : Almost t.mirror n := by
  rcases t with _ | ⟨_ | _, l, v, r⟩
  · exact h
  · refine ⟨h.2.1.mirror, h.1.mirror, ?_⟩
    simpa [or_comm] using h.2.2
  · exact Balanced.mirror h

/-- A black node repairs its left child. -/
theorem Almost.insertFixL {l r : Tree α} {n : Nat} (hl : Almost l n) (v : α) (hr : Balanced r n) :
    Balanced (insertFixL .black l v r) (n + 1) := by
  rcases l with _ | ⟨_ | _, ll, lv, lr⟩
  · exact ⟨hl, hr⟩
  · obtain ⟨hll, hlr, hone⟩ := hl
    simp only [Tree.insertFixL]
    split
    · next hred =>
      split
      · next huncle =>
        -- the uncle is a node, and red
        rcases r with _ | ⟨_ | _, rl, rv, rr⟩
        · cases huncle
        · exact ⟨⟨hll, hlr⟩, ⟨hr.1, hr.2.1⟩, rfl, rfl⟩
        · cases huncle
      · next huncle =>
        have hblack : r.isRed = false := by simpa using huncle
        split
        · next a x b =>
          have hllb : ll.isRed = false := hone.resolve_right (by simp [isRed])
          exact ⟨⟨hll, hlr.1, hllb, hlr.2.2.1⟩, hlr.2.1, hr, hlr.2.2.2, hblack⟩
        · next hlrb =>
          have hlrb' : lr.isRed = false := by
            rcases lr with _ | ⟨_ | _, a, x, b⟩
            · rfl
            · exact absurd rfl (hlrb a x b)
            · rfl
          exact ⟨hll, hlr, hr, hlrb', hblack⟩
    · next hnone =>
      simp only [Bool.or_eq_true, not_or, Bool.not_eq_true] at hnone
      exact ⟨⟨hll, hlr, hnone.1, hnone.2⟩, hr⟩
  · exact ⟨hl, hr⟩

theorem Almost.insertFixR {l r : Tree α} {n : Nat} (hl : Balanced l n) (v : α) (hr : Almost r n) :
    Balanced (insertFixR .black l v r) (n + 1) :=
  (hr.mirror.insertFixL v hl.mirror).mirror

/-- The insertion repairs everything but perhaps the root, and a black root needs no repair. -/
theorem Balanced.ins [Ord κ] {x : α} (h : Balanced t n) (hins : ins key x t = some t') :
    Almost t' n ∧ (t.isRed = false → Balanced t' n) := by
  fun_induction Tree.ins key x t generalizing t' n with
  | case1 =>
    cases hins
    have hleaf : Balanced (node .red nil x nil) n := ⟨h, h, rfl, rfl⟩
    exact ⟨hleaf.almost, fun _ => hleaf⟩
  | case2 c l v r _ ih =>
    obtain ⟨l', hl', rfl⟩ := Option.map_eq_some_iff.mp hins
    cases c with
    | red =>
      obtain ⟨hl, hr, hlb, hrb⟩ := h
      exact ⟨⟨(ih hl hl').2 hlb, hr, Or.inr hrb⟩, fun hb => nomatch hb⟩
    | black =>
      obtain ⟨m, rfl, hl, hr⟩ := h.of_black
      have hfixed := (ih hl hl').1.insertFixL v hr
      exact ⟨hfixed.almost, fun _ => hfixed⟩
  | case3 c l v r _ ih =>
    obtain ⟨r', hr', rfl⟩ := Option.map_eq_some_iff.mp hins
    cases c with
    | red =>
      obtain ⟨hl, hr, hlb, hrb⟩ := h
      rw [show Tree.insertFixR .red l v r' = node .red l v r' by
        simp [Tree.insertFixR, Tree.insertFixL, Tree.mirror]]
      exact ⟨⟨hl, (ih hr hr').2 hrb, Or.inl hlb⟩, fun hb => nomatch hb⟩
    | black =>
      obtain ⟨m, rfl, hl, hr⟩ := h.of_black
      have hfixed := Almost.insertFixR hl v (ih hr hr').1
      exact ⟨hfixed.almost, fun _ => hfixed⟩
  | case4 => cases hins

theorem Balanced.insert [Ord κ] {x : α} (h : Balanced t n) (hins : insert key x t = some t') :
    ∃ m, Balanced t' m := by
  obtain ⟨t₁, ht₁, rfl⟩ := Option.map_eq_some_iff.mp hins
  have halmost := (h.ins ht₁).1
  rcases t₁ with _ | ⟨_ | _, l, v, r⟩
  · exact ⟨n, halmost⟩
  · exact ⟨n + 1, halmost.1, halmost.2.1⟩
  · exact ⟨n, halmost⟩

/-- Balanced and in order. -/
structure Sound [Ord κ] (key : α → κ) (t : Tree α) : Prop where
  balanced : ∃ n, Balanced t n
  ordered : SearchTree.IsSearchTree key t.plain

theorem sound_nil [Ord κ] (key : α → κ) : Sound key (nil : Tree α) :=
  ⟨⟨0, rfl⟩, trivial⟩

namespace Sound

variable [Ord κ] [Std.TransOrd κ] {key : α → κ} {t : Tree α}

theorem insert {x : α} {t' : Tree α} (h : Sound key t) (hins : insert key x t = some t') :
    Sound key t' := by
  obtain ⟨n, hn⟩ := h.balanced
  refine ⟨hn.insert hins, ?_⟩
  obtain ⟨t₁, ht₁, rfl⟩ := Option.map_eq_some_iff.mp hins
  obtain ⟨b, hb, hinorder⟩ := inorder_ins ht₁
  apply (h.ordered.insert hb).of_sublist
  rw [inorder_plain, inorder_paint, hinorder]

/-- Insertions that give up leave the tree as it is. -/
theorem foldl_insert (h : Sound key t) (xs : List α) :
    Sound key (xs.foldl (fun t x => (Tree.insert key x t).getD t) t) := by
  induction xs generalizing t with
  | nil => exact h
  | cons x xs ih =>
    apply ih
    show Sound key ((Tree.insert key x t).getD t)
    cases hins : Tree.insert key x t with
    | none => exact h
    | some t' => exact h.insert hins

theorem nodup [Std.LawfulEqOrd κ] (h : Sound key t) : (inorder t).Nodup := by
  have hkeys := h.ordered.key_inj
  rw [inorder_plain] at hkeys
  exact hkeys.of_map

end Sound

/-! ## Erasure -/

/-- The subtree on the left of `v` has lost a black node, and its sibling is black. The result says
whether the whole is one black node short now. -/
def eraseFixBlackL (c : Color) (l : Tree α) (v : α) : Tree α → Tree α × Bool
  | nil => (node c l v nil, false)
  | node _ rl rv rr =>
    -- case 4: rotate left at the parent
    if rr.isRed then (node c (node .black l v rl) rv (rr.paint .black), false)
    else
      match rl with
      -- case 3: rotate right at the sibling, which leads to case 4
      | node .red a x b => (node c (node .black l v a) x (node .black b rv rr), false)
      -- case 2: the sibling turns red, and the loss moves up unless the parent can turn black
      | _ => (node .black l v (node .red rl rv rr), c = .black)

def eraseFixL (c : Color) (l : Tree α) (v : α) : Tree α → Tree α × Bool
  -- case 1: the sibling is red; rotate left at the parent
  | node .red rl rv rr =>
    let below := eraseFixBlackL .red l v rl
    (node c below.1 rv rr, below.2)
  | r => eraseFixBlackL c l v r

/-- The mirror image. -/
def eraseFixR (c : Color) (l : Tree α) (v : α) (r : Tree α) : Tree α × Bool :=
  let image := eraseFixL c (mirror r) v (mirror l)
  (image.1.mirror, image.2)

/-- Put back a left subtree that may be short. -/
def joinL (c : Color) (l : Tree α × Bool) (v : α) (r : Tree α) : Tree α × Bool :=
  if l.2 then eraseFixL c l.1 v r else (node c l.1 v r, false)

def joinR (c : Color) (l : Tree α) (v : α) (r : Tree α × Bool) : Tree α × Bool :=
  if r.2 then eraseFixR c l v r.1 else (node c l v r.1, false)

/-- The leftmost node of a tree, and what is left when its right child takes its place. -/
def popMin (c : Color) : Tree α → α → Tree α → α × (Tree α × Bool)
  | nil, v, nil => (v, nil, c = .black)
  | nil, v, node _ a x b => (v, node .black a x b, false)
  | node lc ll lv lr, v, r =>
    let rest := popMin lc ll lv lr
    (rest.1, joinL c rest.2 v r)

/-- Take the root out: its only child takes its place and colour, or its successor does. -/
def eraseRoot (c : Color) : Tree α → Tree α → Tree α × Bool
  | nil, nil => (nil, c = .black)
  | nil, node _ a x b => (node c a x b, false)
  | node _ a x b, nil => (node c a x b, false)
  | l, node rc rl rv rr =>
    let rest := popMin rc rl rv rr
    joinR c l rest.1 rest.2

def del [DecidableEq α] (x : α) : Tree α → Tree α × Bool
  | nil => (nil, false)
  | node c l v r =>
    if v = x then eraseRoot c l r
    else if x ∈ inorder l then joinL c (del x l) v r
    else joinR c l v (del x r)

def erase [DecidableEq α] (x : α) (t : Tree α) : Tree α := (del x t).1

/-! ### What is erased -/

theorem inorder_eraseFixBlackL (c : Color) (l : Tree α) (v : α) (r : Tree α) :
    inorder (eraseFixBlackL c l v r).1 = inorder l ++ v :: inorder r := by
  unfold eraseFixBlackL
  split
  · rfl
  · split
    · simp [inorder]
    · split <;> simp [inorder]

theorem inorder_eraseFixL (c : Color) (l : Tree α) (v : α) (r : Tree α) :
    inorder (eraseFixL c l v r).1 = inorder l ++ v :: inorder r := by
  unfold eraseFixL
  split
  · simp [inorder, inorder_eraseFixBlackL]
  · exact inorder_eraseFixBlackL c l v _

theorem inorder_joinL (c : Color) (l : Tree α × Bool) (v : α) (r : Tree α) :
    inorder (joinL c l v r).1 = inorder l.1 ++ v :: inorder r := by
  unfold joinL
  split
  · exact inorder_eraseFixL c l.1 v r
  · rfl

theorem joinR_eq (c : Color) (l : Tree α) (v : α) (r : Tree α × Bool) :
    joinR c l v r = ((joinL c (r.1.mirror, r.2) v l.mirror).1.mirror,
      (joinL c (r.1.mirror, r.2) v l.mirror).2) := by
  unfold joinR joinL
  split
  · rfl
  · simp [mirror]

theorem inorder_joinR (c : Color) (l : Tree α) (v : α) (r : Tree α × Bool) :
    inorder (joinR c l v r).1 = inorder l ++ v :: inorder r.1 := by
  simp [joinR_eq, inorder_joinL]

theorem inorder_popMin (c : Color) (l : Tree α) (v : α) (r : Tree α) :
    (popMin c l v r).1 :: inorder (popMin c l v r).2.1 = inorder l ++ v :: inorder r := by
  induction l generalizing c v r with
  | nil => cases r <;> rfl
  | node lc ll lv lr ihl _ =>
    simp only [popMin, inorder_joinL]
    rw [← List.cons_append, ihl]
    rfl

theorem inorder_eraseRoot (c : Color) (l r : Tree α) :
    inorder (eraseRoot c l r).1 = inorder l ++ inorder r := by
  rcases l with _ | ⟨lc, ll, lv, lr⟩ <;> rcases r with _ | ⟨rc, rl, rv, rr⟩
  · rfl
  · rfl
  · simp [eraseRoot, inorder]
  · simp only [eraseRoot, inorder_joinR, inorder_popMin]
    rfl

theorem erase_perm [DecidableEq α] {x : α} (hx : x ∈ inorder t) :
    (x :: inorder (erase x t)).Perm (inorder t) := by
  unfold erase
  induction t with
  | nil => cases hx
  | node c l v r ihl ihr =>
    simp only [del]
    split
    · next heq =>
      subst heq
      rw [inorder_eraseRoot]
      exact List.perm_middle.symm
    · next hne =>
      split
      · next hl =>
        rw [inorder_joinL]
        exact (ihl hl).append_right _
      · next hl =>
        have hr : x ∈ inorder r := by
          rcases List.mem_append.mp hx with h | h
          · exact absurd h hl
          · exact (List.mem_cons.mp h).resolve_left (Ne.symm hne)
        rw [inorder_joinR, ← List.cons_append]
        refine List.perm_middle.symm.trans ?_
        refine List.Perm.append_left _ ?_
        exact (List.Perm.swap v x _).trans ((ihr hr).cons v)

/-! ### What stays balanced -/

theorem balanced_node_iff :
    Balanced (node c l v r) n ↔ ∃ m, n = c.height m ∧ Balanced l m ∧ Balanced r m
      ∧ (c = .red → l.isRed = false ∧ r.isRed = false) := by
  cases c with
  | red =>
    constructor
    · rintro ⟨hl, hr, hlb, hrb⟩
      exact ⟨n, rfl, hl, hr, fun _ => ⟨hlb, hrb⟩⟩
    · rintro ⟨m, rfl, hl, hr, hb⟩
      exact ⟨hl, hr, (hb rfl).1, (hb rfl).2⟩
  | black =>
    constructor
    · intro h
      obtain ⟨m, rfl, hl, hr⟩ := h.of_black
      exact ⟨m, rfl, hl, hr, fun hc => nomatch hc⟩
    · rintro ⟨m, rfl, hl, hr, -⟩
      exact ⟨hl, hr⟩

/-- What is left of a tree of black height `n` whose root was of colour `c`. Only a black root can
leave it short. -/
structure Leaves (c : Color) (n : Nat) (rest : Tree α × Bool) : Prop where
  whole : rest.2 = false → Balanced rest.1 n ∧ (c = .black → rest.1.isRed = false)
  short : rest.2 = true → c = .black ∧ ∃ m, n = m + 1 ∧ Balanced rest.1 m

theorem Leaves.of_whole (h : Balanced t n) (hc : c = .black → t.isRed = false) :
    Leaves c n (t, false) :=
  ⟨fun _ => ⟨h, hc⟩, fun hs => nomatch hs⟩

theorem Leaves.of_short (h : Balanced t n) : Leaves .black (n + 1) (t, true) :=
  ⟨fun hs => (nomatch hs), fun _ => ⟨rfl, n, rfl, h⟩⟩

theorem Leaves.mirror {short : Bool} (h : Leaves c n (t, short)) :
    Leaves c n (t.mirror, short) := by
  refine ⟨fun hs => ?_, fun hs => ?_⟩
  · obtain ⟨hbal, hblack⟩ := h.whole hs
    exact ⟨hbal.mirror, by simpa using hblack⟩
  · obtain ⟨hc, m, hm, hbal⟩ := h.short hs
    exact ⟨hc, m, hm, hbal.mirror⟩

theorem isRed_node : c = .black → (node c l v r).isRed = false := by
  rintro rfl
  rfl

theorem Balanced.paint_black (h : Balanced t n) (hred : t.isRed = true) :
    Balanced (t.paint .black) (n + 1) := by
  rcases t with _ | ⟨_ | _, l, v, r⟩
  · cases hred
  · exact ⟨h.1, h.2.1⟩
  · cases hred

theorem isRed_paint_black (t : Tree α) : (t.paint .black).isRed = false := by
  cases t <;> rfl

theorem leaves_eraseFixBlackL (hl : Balanced l m) (v : α) (hr : Balanced r (m + 1))
    (hrb : r.isRed = false) : Leaves c (c.height (m + 1)) (eraseFixBlackL c l v r) := by
  rcases r with _ | ⟨_ | _, rl, rv, rr⟩
  · exact absurd rfl hr.ne_nil
  · cases hrb
  · obtain ⟨hrl, hrr⟩ := hr
    simp only [eraseFixBlackL]
    split
    · next hred =>
      refine Leaves.of_whole ?_ isRed_node
      exact balanced_node_iff.mpr ⟨m + 1, rfl, ⟨hl, hrl⟩, hrr.paint_black hred,
        fun _ => ⟨rfl, isRed_paint_black rr⟩⟩
    · next hrrb =>
      rw [Bool.not_eq_true] at hrrb
      split
      · next a x b =>
        refine Leaves.of_whole ?_ isRed_node
        exact balanced_node_iff.mpr ⟨m + 1, rfl, ⟨hl, hrl.1⟩, ⟨hrl.2.1, hrr⟩, fun _ => ⟨rfl, rfl⟩⟩
      · next hrlb =>
        have hrlb' : rl.isRed = false := by
          rcases rl with _ | ⟨_ | _, a, x, b⟩
          · rfl
          · exact absurd rfl (hrlb a x b)
          · rfl
        have hnode : Balanced (node .black l v (node .red rl rv rr)) (m + 1) :=
          ⟨hl, hrl, hrr, hrlb', hrrb⟩
        cases c with
        | red => exact Leaves.of_whole hnode fun _ => rfl
        | black => exact Leaves.of_short hnode

theorem leaves_eraseFixL (hl : Balanced l m) (v : α) (hr : Balanced r (m + 1))
    (hrb : c = .red → r.isRed = false) : Leaves c (c.height (m + 1)) (eraseFixL c l v r) := by
  rcases r with _ | ⟨_ | _, rl, rv, rr⟩
  · exact absurd rfl hr.ne_nil
  · cases c with
    | red => cases hrb rfl
    | black =>
      obtain ⟨hrl, hrr, hrlb, -⟩ := hr
      have hbelow := leaves_eraseFixBlackL (c := .red) hl v hrl hrlb
      have hshort : (eraseFixBlackL .red l v rl).2 = false := by
        by_contra hs
        cases (hbelow.short (by simpa using hs)).1
      simp only [eraseFixL, hshort]
      exact Leaves.of_whole ⟨(hbelow.whole hshort).1, hrr⟩ fun _ => rfl
  · exact leaves_eraseFixBlackL hl v hr rfl

/-- The colour of a root as the sibling sees it. -/
def color : Tree α → Color
  | nil => .black
  | node c _ _ _ => c

theorem color_eq_black : t.color = .black ↔ t.isRed = false := by
  rcases t with _ | ⟨_ | _, l, v, r⟩ <;> simp [color, isRed]

theorem leaves_joinL {rest : Tree α × Bool} (hn : n = c.height m) (hr : Balanced r m)
    (hb : c = .red → l.isRed = false ∧ r.isRed = false) (hrest : Leaves l.color m rest) :
    Leaves c n (joinL c rest v r) := by
  subst hn
  unfold joinL
  split
  · next hs =>
    obtain ⟨-, m', rfl, hbal⟩ := hrest.short hs
    exact leaves_eraseFixL hbal v hr fun hc => (hb hc).2
  · next hs =>
    obtain ⟨hbal, hblack⟩ := hrest.whole (by simpa using hs)
    refine Leaves.of_whole ?_ isRed_node
    exact balanced_node_iff.mpr ⟨m, rfl, hbal, hr,
      fun hc => ⟨hblack (color_eq_black.mpr (hb hc).1), (hb hc).2⟩⟩

theorem leaves_joinR {rest : Tree α × Bool} (hn : n = c.height m) (hl : Balanced l m)
    (hb : c = .red → l.isRed = false ∧ r.isRed = false) (hrest : Leaves r.color m rest) :
    Leaves c n (joinR c l v rest) := by
  rw [joinR_eq]
  refine (leaves_joinL (l := r) hn hl.mirror (fun hc => ?_) hrest.mirror).mirror
  exact ⟨(hb hc).2, by simpa using (hb hc).1⟩

/-- A node without children leaves nothing behind. -/
theorem leaves_nil (hn : n = c.height 0) : Leaves c n ((nil : Tree α), decide (c = .black)) := by
  subst hn
  cases c with
  | red => exact Leaves.of_whole rfl fun _ => rfl
  | black => exact Leaves.of_short rfl

theorem leaves_popMin (h : Balanced (node c l v r) n) : Leaves c n (popMin c l v r).2 := by
  induction l generalizing c v r n with
  | nil =>
    obtain ⟨m, hn, hl, hr, hb⟩ := balanced_node_iff.mp h
    cases hl
    rcases hr.zero with rfl | ⟨x, rfl⟩
    · exact leaves_nil hn
    · cases c with
      | red => cases (hb rfl).2
      | black =>
        subst hn
        exact Leaves.of_whole ⟨rfl, rfl⟩ fun _ => rfl
  | node lc ll lv lr ihl _ =>
    obtain ⟨m, hn, hl, hr, hb⟩ := balanced_node_iff.mp h
    exact leaves_joinL hn hr hb (ihl hl)

theorem leaves_eraseRoot (h : Balanced (node c l v r) n) : Leaves c n (eraseRoot c l r) := by
  obtain ⟨m, hn, hl, hr, hb⟩ := balanced_node_iff.mp h
  rcases l with _ | ⟨lc, ll, lv, lr⟩ <;> rcases r with _ | ⟨rc, rl, rv, rr⟩
  · cases hl
    exact leaves_nil hn
  · cases hl
    refine Leaves.of_whole ?_ isRed_node
    rcases hr.zero with hnil | ⟨x, hleaf⟩
    · cases hnil
    · cases hleaf
      exact balanced_node_iff.mpr ⟨0, hn, rfl, rfl, fun _ => ⟨rfl, rfl⟩⟩
  · cases hr
    refine Leaves.of_whole ?_ isRed_node
    rcases hl.zero with hnil | ⟨x, hleaf⟩
    · cases hnil
    · cases hleaf
      exact balanced_node_iff.mpr ⟨0, hn, rfl, rfl, fun _ => ⟨rfl, rfl⟩⟩
  · exact leaves_joinR hn hl hb (leaves_popMin hr)

variable [DecidableEq α]

theorem leaves_del (x : α) (h : Balanced t n) : Leaves t.color n (del x t) := by
  induction t generalizing n with
  | nil => exact Leaves.of_whole h fun _ => rfl
  | node c l v r ihl ihr =>
    obtain ⟨m, hn, hl, hr, hb⟩ := balanced_node_iff.mp h
    simp only [del]
    split
    · exact leaves_eraseRoot h
    · split
      · exact leaves_joinL hn hr hb (ihl hl)
      · exact leaves_joinR hn hl hb (ihr hr)

theorem Balanced.erase {t : Tree α} {n : Nat} (h : Balanced t n) (x : α) :
    ∃ m, Balanced (erase x t) m := by
  have hrest := leaves_del x h
  unfold Tree.erase
  cases hshort : (del x t).2 with
  | false => exact ⟨n, (hrest.whole hshort).1⟩
  | true =>
    obtain ⟨-, m, -, hbal⟩ := hrest.short hshort
    exact ⟨m, hbal⟩

end Tree

end RedBlack
