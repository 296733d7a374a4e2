import Mathlib.Data.Set.Basic
import QotStack.Lib.MachineInt
import QotStack.Lib.SearchTree
import QotStack.User.Connection

/-!
# QotStack — from an open file to its connection

Both devices of the core, `/dev/qotusr` and `/dev/qotadm`, keep the connections of their open files
in a tree, by the address of the `struct file`, with the same functions in both (`qot_user_chdev.c`
and `qot_admin_chdev.c`). A call on a file looks its connection up.

What the tree is for is a map from open files to their connections. Addresses are compared through
their difference, which counts structures and is kept in an `int`: two files `2 ^ 31` or more
structures apart may compare the wrong way round, or as equal. And an open of the administrator's
device that a signal interrupts fails, but leaves its connection behind. `connections_found_by_file`
says that between files that are not as far apart nothing else goes wrong.
-/

namespace Qot

open SearchTree MachineInt

/-! ## Files -/

/-- The places of the kernel's `struct file`s: their addresses are a whole number of sizes apart. -/
structure FileSlab where
  size : Nat
  offset : Nat
  pos : 0 < size

structure File (slab : FileSlab) where
  addr : UInt64
  aligned : addr.toNat % slab.size = slab.offset
  deriving DecidableEq

namespace File

variable {slab : FileSlab}

/-- `f - g`, a difference of pointers. -/
def sub (f g : File slab) : Int := ((f.addr.toNat : Int) - g.addr.toNat) / slab.size

/-- The difference in an `int`. -/
def result (f g : File slab) : Int32 := Int32.ofInt (f.sub g)

/-- The difference fits. -/
def Near (f g : File slab) : Prop := (f.sub g).natAbs < 2147483648

/-- The number of the place. -/
def index (f : File slab) : Nat := f.addr.toNat / slab.size

end File

/-! ## The tree -/

/-- A connection in the tree. No connection is ever freed, so an address is not used twice. -/
structure ConNode (slab : FileSlab) where
  addr : Nat
  fileobject : File slab
  deriving DecidableEq

abbrev ConRoot (slab : FileSlab) := BinaryTree (ConNode slab)

/-- The kernel's rbtree, which goes by the node it is given. -/
abbrev ConRbtree (slab : FileSlab) := Primitives (@ConNode.addr slab)

namespace ConRoot

variable {slab : FileSlab}

def conSearch (f : File slab) : ConRoot slab → Option (ConNode slab)
  | .nil => none
  | .node con left right =>
    let result := f.result con.fileobject
    if result < 0 then conSearch f left
    else if result > 0 then conSearch f right
    else some con

/-- The walk of `con_insert`: a connection whose file compares as equal is replaced, and
returned. -/
def conWalk (con : ConNode slab) : ConRoot slab → Option (ConNode slab) × ConRoot slab
  | .nil => (none, .node con .nil .nil)
  | .node tmp left right =>
    let result := con.fileobject.result tmp.fileobject
    if result < 0 then ((conWalk con left).1, .node tmp (conWalk con left).2 right)
    else if result > 0 then ((conWalk con right).1, .node tmp left (conWalk con right).2)
    else (some tmp, .node con left right)

def conInsert (rb : ConRbtree slab) (root : ConRoot slab) (con : ConNode slab) :
    Option (ConNode slab) × ConRoot slab :=
  match conWalk con root with
  | (none, root) => (none, rb.insertColor root)
  | (some tmp, root) => (some tmp, root)

end ConRoot

/-! ## The devices -/

/-- The connections of a device: the tree, and the flag and the events of each. -/
structure Chdev (slab : FileSlab) where
  root : ConRoot slab
  heap : Nat → Con
  /-- The next address. -/
  allocated : Nat

def enomem : Int := 12

def erestartsys : Int := 512

namespace Chdev

variable {slab : FileSlab}

def empty : Chdev slab := ⟨.nil, fun _ => Con.new, 0⟩

/-- Free the events of a connection. -/
def conFree (s : Chdev slab) (con : ConNode slab) : Chdev slab :=
  { s with heap := Function.update s.heap con.addr { s.heap con.addr with eventList := [] } }

/-- Allocate a connection and insert it. -/
def openInsert (rb : ConRbtree slab) (s : Chdev slab) (f : File slab) : ConNode slab × Chdev slab :=
  let con : ConNode slab := ⟨s.allocated, f⟩
  let (replaced, root) := s.root.conInsert rb con
  let s : Chdev slab := ⟨root, Function.update s.heap con.addr Con.new, s.allocated + 1⟩
  (con, match replaced with
    | none => s
    | some tmp => s.conFree tmp)

/-- Find the connection of a file. -/
def conSearch (s : Chdev slab) (f : File slab) : Option (ConNode slab) := s.root.conSearch f

def ioctlClose (rb : ConRbtree slab) (s : Chdev slab) (f : File slab) : Int × Chdev slab :=
  match s.conSearch f with
  | none => (-enomem, s)
  | some con => (0, { s with root := rb.erase con.addr s.root }.conFree con)

/-- Open the user's device, where `kzalloc` is the answer for the connection. -/
def qotUserChdevIoctlOpen (rb : ConRbtree slab) (s : Chdev slab) (f : File slab) (kzalloc : Bool)
    (timelines : List (QotTimeline × Bool)) : Int × Chdev slab :=
  if kzalloc then
    let (con, s) := s.openInsert rb f
    (0, { s with
      heap := Function.update s.heap con.addr ((s.heap con.addr).openEnumerate timelines) })
  else (-enomem, s)

/-- What happens at one clock while the administrator's device is opened. -/
structure ClockEntry where
  name : CName
  kzalloc : Bool
  /-- `down_interruptible` is interrupted. -/
  signal : Bool

/-- The loop over the clocks. -/
def adminEnumerate (con : Con) : List ClockEntry → Int × Con
  | [] => (0, { con with eventFlag := true })
  | clk :: rest =>
    if clk.kzalloc then
      if clk.signal then (-erestartsys, con)
      else adminEnumerate (con.listAddTail ⟨.qotEventClockCreate, Utimepoint.zero, clk.name⟩) rest
    else adminEnumerate con rest

/-- Open the administrator's device. Without a clock `qot_clock_first` faults. -/
def qotAdminChdevIoctlOpen (rb : ConRbtree slab) (s : Chdev slab) (f : File slab) (kzalloc : Bool)
    (clocks : List ClockEntry) : Option (Int × Chdev slab) :=
  if kzalloc then
    let (con, s) := s.openInsert rb f
    if clocks = [] then none
    else
      let (result, opened) := adminEnumerate (s.heap con.addr) clocks
      some (result, { s with heap := Function.update s.heap con.addr opened })
  else some (-enomem, s)

def qotUserChdevIoctlClose (rb : ConRbtree slab) (s : Chdev slab) (f : File slab) :
    Int × Chdev slab :=
  s.ioctlClose rb f

def qotAdminChdevIoctlClose (rb : ConRbtree slab) (s : Chdev slab) (f : File slab) :
    Int × Chdev slab :=
  s.ioctlClose rb f

end Chdev

/-! ## What the tree is for -/

/-- A device, and the connection of every file that was opened with success and not closed since. -/
structure Tracked (slab : FileSlab) where
  dev : Chdev slab
  own : File slab → Option (ConNode slab)

inductive UserFileOp (slab : FileSlab) where
  | open (f : File slab) (kzalloc : Bool) (timelines : List (QotTimeline × Bool))
  | close (f : File slab)

inductive AdminFileOp (slab : FileSlab) where
  | open (f : File slab) (kzalloc : Bool) (clocks : List Chdev.ClockEntry)
  | close (f : File slab)

def UserFileOp.file {slab : FileSlab} : UserFileOp slab → File slab
  | .open f _ _ | .close f => f

def AdminFileOp.file {slab : FileSlab} : AdminFileOp slab → File slab
  | .open f _ _ | .close f => f

namespace Tracked

variable {slab : FileSlab}

def start : Tracked slab := ⟨Chdev.empty, fun _ => none⟩

/-- An open is noted if it succeeds. -/
def opened (s : Tracked slab) (f : File slab) (outcome : Int × Chdev slab) : Tracked slab :=
  ⟨outcome.2, if outcome.1 = 0 then Function.update s.own f (some ⟨s.dev.allocated, f⟩) else s.own⟩

def closed (s : Tracked slab) (f : File slab) (outcome : Int × Chdev slab) : Tracked slab :=
  ⟨outcome.2, Function.update s.own f none⟩

def userStep (rb : ConRbtree slab) (s : Tracked slab) : UserFileOp slab → Option (Tracked slab)
  | .open f kzalloc timelines =>
    some (s.opened f (s.dev.qotUserChdevIoctlOpen rb f kzalloc timelines))
  | .close f => some (s.closed f (s.dev.qotUserChdevIoctlClose rb f))

def adminStep (rb : ConRbtree slab) (s : Tracked slab) : AdminFileOp slab → Option (Tracked slab)
  | .open f kzalloc clocks =>
    (s.dev.qotAdminChdevIoctlOpen rb f kzalloc clocks).map fun outcome => s.opened f outcome
  | .close f => some (s.closed f (s.dev.qotAdminChdevIoctlClose rb f))

/-- A file leads to its own connection, and to none if it is not open. -/
def FoundByFile (files : Set (File slab)) (s : Tracked slab) : Prop :=
  ∀ f ∈ files, s.dev.conSearch f = s.own f

end Tracked

/-! ## An insertion, however files compare -/

section Insertion

variable {slab : FileSlab} (con : ConNode slab) (t : ConRoot slab)

/-- The connection is added, and the one it replaces is taken out. -/
theorem conWalk_perm :
    ((t.conWalk con).1.toList ++ inorder (t.conWalk con).2).Perm (con :: inorder t) := by
  induction t with
  | nil => exact List.Perm.refl _
  | node tmp l r ihl ihr =>
    refine List.perm_iff_count.mpr fun c => ?_
    have hl := ihl.count_eq c
    have hr := ihr.count_eq c
    simp only [ConRoot.conWalk, inorder, List.count_append, List.count_cons] at hl hr ⊢
    split
    · simp only [inorder, List.count_append, List.count_cons]
      omega
    · split
      · simp only [inorder, List.count_append, List.count_cons]
        omega
      · simp only [inorder, Option.toList_some, List.count_append, List.count_cons, List.count_nil]
        omega

theorem mem_conWalk : con ∈ inorder (t.conWalk con).2 := by
  induction t with
  | nil => exact List.mem_singleton.mpr rfl
  | node tmp l r ihl ihr =>
    simp only [ConRoot.conWalk]
    split
    · simp [inorder, ihl]
    · split
      · simp [inorder, ihr]
      · simp [inorder]

theorem inorder_conInsert (rb : ConRbtree slab) :
    inorder (t.conInsert rb con).2 = inorder (t.conWalk con).2 := by
  rcases hwalk : t.conWalk con with ⟨_ | tmp, root⟩
  · simp [ConRoot.conInsert, hwalk, rb.inorder_insertColor]
  · simp [ConRoot.conInsert, hwalk]

end Insertion

/-! ## Near files compare by their places -/

section Compare

variable {slab : FileSlab} {f g : File slab}

theorem addr_eq (f : File slab) : f.addr.toNat = slab.size * f.index + slab.offset := by
  rw [← f.aligned]
  exact (Nat.div_add_mod f.addr.toNat slab.size).symm

theorem sub_eq (f g : File slab) : f.sub g = (f.index : Int) - g.index := by
  have hdiff : (f.addr.toNat : Int) - g.addr.toNat
      = slab.size * ((f.index : Int) - g.index) := by
    rw [addr_eq f, addr_eq g]
    push_cast
    ring
  have hpos : (slab.size : Int) ≠ 0 := by
    have h := slab.pos
    omega
  rw [File.sub, hdiff, Int.mul_ediv_cancel_left _ hpos]

theorem index_inj (h : f.index = g.index) : f = g := by
  have haddr : f.addr = g.addr := UInt64.toNat_inj.mp (by rw [addr_eq f, addr_eq g, h])
  cases f
  cases g
  cases haddr
  rfl

theorem toInt_result (h : f.Near g) : (f.result g).toInt = (f.index : Int) - g.index := by
  have hnear : (f.sub g).natAbs < 2147483648 := h
  have hsize : Int32.size = 4294967296 := rfl
  rw [File.result, Int32.toInt_ofInt, ← sub_eq]
  exact Int.bmod_eq_of_le (by omega) (by omega)

theorem result_lt_iff (h : f.Near g) : f.result g < 0 ↔ f.index < g.index := by
  rw [Int32.lt_iff_toInt_lt, toInt_result h, Int32.toInt_zero]
  omega

theorem result_gt_iff (h : f.Near g) : f.result g > 0 ↔ g.index < f.index := by
  rw [gt_iff_lt, Int32.lt_iff_toInt_lt, toInt_result h, Int32.toInt_zero]
  omega

/-- The place of a connection's file. -/
def ConNode.key (con : ConNode slab) : Nat := con.fileobject.index

theorem search_eq_find {t : ConRoot slab} (h : ∀ con ∈ inorder t, f.Near con.fileobject) :
    t.conSearch f = find ConNode.key f.index t := by
  induction t with
  | nil => rfl
  | node con l r ihl ihr =>
    simp only [inorder, List.mem_append, List.mem_cons] at h
    have hcon := h con (Or.inr (Or.inl rfl))
    simp only [ConRoot.conSearch, find, result_lt_iff hcon, result_gt_iff hcon]
    rw [ihl fun c hc => h c (Or.inl hc), ihr fun c hc => h c (Or.inr (Or.inr hc))]
    rw [ConNode.key, Nat.compare_eq_ite_lt]
    split <;> [skip; split] <;> rfl

theorem walk_eq_put {con : ConNode slab} {t : ConRoot slab}
    (h : ∀ tmp ∈ inorder t, con.fileobject.Near tmp.fileobject) :
    t.conWalk con = put ConNode.key con t := by
  induction t with
  | nil => rfl
  | node tmp l r ihl ihr =>
    simp only [inorder, List.mem_append, List.mem_cons] at h
    have htmp := h tmp (Or.inr (Or.inl rfl))
    simp only [ConRoot.conWalk, put, result_lt_iff htmp, result_gt_iff htmp]
    rw [ihl fun c hc => h c (Or.inl hc), ihr fun c hc => h c (Or.inr (Or.inr hc))]
    rw [ConNode.key, ConNode.key, Nat.compare_eq_ite_lt]
    split <;> [skip; split] <;> rfl

end Compare

/-! ## Opening and closing -/

section Order

variable {slab : FileSlab} {files : Set (File slab)} {root : ConRoot slab} {allocated : Nat}
  {own : File slab → Option (ConNode slab)} {f : File slab}

/-- The tree is in the order of the places of its files, which are among `files`, and stands for
`own`. -/
structure Ordered (files : Set (File slab)) (root : ConRoot slab) (allocated : Nat)
    (own : File slab → Option (ConNode slab)) : Prop where
  tree : IsSearchTree ConNode.key root
  mem_files : ∀ con ∈ inorder root, con.fileobject ∈ files
  fresh : ∀ con ∈ inorder root, con.addr < allocated
  addr_inj : ∀ con ∈ inorder root, ∀ con' ∈ inorder root, con.addr = con'.addr → con = con'
  found : ∀ f ∈ files, find ConNode.key f.index root = own f

theorem ordered_nil : Ordered files .nil allocated fun _ => none where
  tree := trivial
  mem_files _ h := nomatch h
  fresh _ h := nomatch h
  addr_inj _ h := nomatch h
  found _ _ := rfl

variable (rb : ConRbtree slab) {con : ConNode slab}

/-- The node that is unlinked is the connection of the file. -/
theorem Ordered.erase (h : Ordered files root allocated own) (hf : f ∈ files)
    (hcon : own f = some con) :
    Ordered files (rb.erase con.addr root) allocated (Function.update own f none) := by
  have hsub : (inorder (rb.erase con.addr root)).Sublist (inorder root) :=
    rb.inorder_erase con.addr root ▸ List.filter_sublist
  have htree := h.tree.of_sublist hsub
  obtain ⟨hin, hkey⟩ := find_some h.tree ((h.found f hf).trans hcon)
  refine ⟨htree, fun c hc => h.mem_files c (hsub.subset hc), fun c hc => h.fresh c (hsub.subset hc),
    fun c hc c' hc' => h.addr_inj c (hsub.subset hc) c' (hsub.subset hc'), fun g hg => ?_⟩
  rw [Function.update_apply]
  split
  · next heq =>
    subst heq
    cases hfind : find ConNode.key g.index (rb.erase con.addr root) with
    | none => rfl
    | some c =>
      -- only `con` has its file, and it is gone
      obtain ⟨hc, hckey⟩ := find_some htree hfind
      have hold : find ConNode.key c.key root = some c := find_key h.tree (hsub.subset hc)
      rw [hckey, h.found g hg, hcon] at hold
      cases hold
      rw [rb.inorder_erase] at hc
      simp at hc
  · next hne =>
    rw [← h.found g hg]
    cases hfind : find ConNode.key g.index root with
    | none =>
      refine Option.eq_none_iff_forall_ne_some.mpr fun c hc => ?_
      obtain ⟨hc, hckey⟩ := find_some htree hc
      rw [← hckey, find_key h.tree (hsub.subset hc)] at hfind
      cases hfind
    | some c =>
      obtain ⟨hc, hckey⟩ := find_some h.tree hfind
      have haddr : c.addr ≠ con.addr := fun heq => by
        rw [h.addr_inj c hc con hin heq, hkey] at hckey
        exact hne (index_inj hckey.symm)
      rw [← hckey]
      refine find_key htree ?_
      rw [rb.inorder_erase]
      exact List.mem_filter.mpr ⟨hc, decide_eq_true haddr⟩

/-- The new connection is in the tree, with its file to find it by, and the others stay. -/
structure Inserted (root root' : ConRoot slab) (con : ConNode slab) : Prop where
  mem : ∀ c ∈ inorder root', c = con ∨ c ∈ inorder root
  tree : IsSearchTree ConNode.key root'
  find_eq : ∀ g : File slab, find ConNode.key g.index root'
    = if g = con.fileobject then some con else find ConNode.key g.index root

/-- The connection is linked at a leaf. -/
theorem inserted_insertColor {root' : ConRoot slab} (htree : IsSearchTree ConNode.key root)
    (hins : insert ConNode.key con root = some root') :
    Inserted root (rb.insertColor root') con := by
  have hshape := rb.inorder_insertColor root'
  refine ⟨fun c hc => ?_, (htree.insert hins).of_sublist (hshape ▸ List.Sublist.refl _),
    fun g => ?_⟩
  · rw [hshape, inorder_insert htree hins, OrderedInsert.mem_insertBefore] at hc
    exact hc
  · rw [find_of_insert htree hins hshape]
    exact if_congr ⟨index_inj, fun heq => heq ▸ rfl⟩ rfl rfl

/-- The connection takes the place of the one its file had. -/
theorem inserted_map {v : ConNode slab} (htree : IsSearchTree ConNode.key root)
    (hfind : find ConNode.key con.key root = some v) :
    Inserted root (root.map fun y => if y.key = con.key then con else y) con := by
  have hsame : ∀ y : ConNode slab, ConNode.key (if y.key = con.key then con else y)
      = y.key := fun y => by
    split
    · next hy => exact hy.symm
    · rfl
  refine ⟨fun c hc => ?_, htree.map hsame, fun g => ?_⟩
  · rw [inorder_map] at hc
    obtain ⟨y, hy, rfl⟩ := List.mem_map.mp hc
    split
    · exact Or.inl rfl
    · exact Or.inr hy
  · rw [find_map hsame]
    split
    · next hg =>
      have hfind' : find ConNode.key g.index root = some v := hg ▸ hfind
      rw [hfind', Option.map_some, if_pos (find_some htree hfind).2]
    · next hg =>
      cases hother : find ConNode.key g.index root with
      | none => rfl
      | some w =>
        have hw : w.key ≠ con.key := (find_some htree hother).2 ▸ fun heq => hg (index_inj heq)
        rw [Option.map_some, if_neg hw]

variable (hnear : ∀ f ∈ files, ∀ g ∈ files, f.Near g)
include hnear

section
variable (h : Ordered files root allocated own)
include h

theorem Ordered.search (hf : f ∈ files) : root.conSearch f = own f := by
  rw [← h.found f hf]
  exact search_eq_find fun con hcon => hnear f hf _ (h.mem_files con hcon)

theorem Ordered.inserted (hf : f ∈ files) :
    Inserted root (root.conInsert rb ⟨allocated, f⟩).2 ⟨allocated, f⟩ := by
  have hwalk : root.conWalk ⟨allocated, f⟩ = put ConNode.key ⟨allocated, f⟩ root :=
    walk_eq_put fun tmp htmp => hnear f hf _ (h.mem_files tmp htmp)
  cases hfind : find ConNode.key f.index root with
  | none =>
    have hins : insert ConNode.key ⟨allocated, f⟩ root ≠ none := fun hnone => by
      obtain ⟨v, hv⟩ := insert_eq_none_iff.mp hnone
      cases hfind.symm.trans hv
    obtain ⟨root', hins⟩ := Option.ne_none_iff_exists'.mp hins
    rw [ConRoot.conInsert, hwalk, put_of_insert hins]
    exact inserted_insertColor rb h.tree hins
  | some v =>
    have hput := put_of_find (x := (⟨allocated, f⟩ : ConNode slab)) h.tree hfind
    rw [ConRoot.conInsert, hwalk, hput]
    exact inserted_map h.tree hfind

theorem Ordered.conInsert (hf : f ∈ files) :
    Ordered files (root.conInsert rb ⟨allocated, f⟩).2 (allocated + 1)
      (Function.update own f (some ⟨allocated, f⟩)) := by
  obtain ⟨hmem, htree, hfind⟩ := h.inserted rb hnear hf
  refine ⟨htree, fun con hcon => ?_, fun con hcon => ?_, fun con hcon con' hcon' haddr => ?_,
    fun g hg => ?_⟩
  · rcases hmem con hcon with rfl | hold
    · exact hf
    · exact h.mem_files con hold
  · rcases hmem con hcon with rfl | hold
    · exact Nat.lt_succ_self allocated
    · exact Nat.lt_succ_of_lt (h.fresh con hold)
  · rcases hmem con hcon with rfl | hold <;> rcases hmem con' hcon' with rfl | hold'
    · rfl
    · exact absurd haddr (Nat.ne_of_gt (h.fresh con' hold'))
    · exact absurd haddr (Nat.ne_of_lt (h.fresh con hold))
    · exact h.addr_inj con hold con' hold' haddr
  · rw [hfind g, h.found g hg, Function.update_apply]

end

end Order

/-! ## Runs -/

namespace Chdev

variable {slab : FileSlab} (rb : ConRbtree slab) (s : Chdev slab) (f : File slab)

theorem openInsert_eq :
    (s.openInsert rb f).1 = ⟨s.allocated, f⟩
      ∧ (s.openInsert rb f).2.root = (s.root.conInsert rb ⟨s.allocated, f⟩).2
      ∧ (s.openInsert rb f).2.allocated = s.allocated + 1 := by
  rcases hinsert : s.root.conInsert rb ⟨s.allocated, f⟩ with ⟨replaced, root⟩
  simp only [openInsert, hinsert]
  cases replaced <;> exact ⟨trivial, rfl, rfl⟩

/-- The loop over the clocks succeeds exactly if no signal stops it. -/
theorem adminEnumerate_eq_zero_iff (con : Con) (clocks : List ClockEntry) :
    (adminEnumerate con clocks).1 = 0
      ↔ ∀ clk ∈ clocks, clk.kzalloc = true → clk.signal = false := by
  induction clocks generalizing con with
  | nil => simp [adminEnumerate]
  | cons clk rest ih =>
    rw [adminEnumerate, List.forall_mem_cons]
    cases clk.kzalloc with
    | false => simpa using ih con
    | true =>
      cases clk.signal with
      | false => simpa using ih _
      | true => simp [erestartsys]

/-- With a clock the open returns, and the connection is in the tree whatever the result. -/
theorem adminOpen_of_clocks {clocks : List ClockEntry} (hclocks : clocks ≠ []) :
    ∃ result heap, s.qotAdminChdevIoctlOpen rb f true clocks
        = some (result, { (s.openInsert rb f).2 with heap := heap })
      ∧ (result = 0 ↔ ∀ clk ∈ clocks, clk.kzalloc = true → clk.signal = false) := by
  have hzero := adminEnumerate_eq_zero_iff
    ((s.openInsert rb f).2.heap (s.openInsert rb f).1.addr) clocks
  simp only [qotAdminChdevIoctlOpen, if_neg hclocks, if_true]
  exact ⟨_, _, rfl, hzero⟩

end Chdev

namespace Tracked

variable {slab : FileSlab}

/-- The tree of the device stands for the files that are open. -/
def Sorted (files : Set (File slab)) (s : Tracked slab) : Prop :=
  Ordered files s.dev.root s.dev.allocated s.own

/-- The call returns, and after it every file leads to its own connection. -/
def FoundAfter {ω : Type} (step : Tracked slab → ω → Option (Tracked slab))
    (files : Set (File slab))
    (s : Tracked slab) (op : ω) : Prop :=
  ∃ s', step s op = some s' ∧ FoundByFile files s'

/-- An open of the administrator's device meets a clock, and no signal. -/
def AdminSafe : AdminFileOp slab → Prop
  | .open _ kzalloc clocks => kzalloc = true →
    clocks ≠ [] ∧ ∀ clk ∈ clocks, clk.kzalloc = true → clk.signal = false
  | .close _ => True

section Steps

variable {files : Set (File slab)} {s : Tracked slab} (rb : ConRbtree slab)
  (hnear : ∀ f ∈ files, ∀ g ∈ files, f.Near g)
include hnear

namespace Sorted
variable (h : Sorted files s)
include h

theorem foundByFile : FoundByFile files s :=
  fun _ hf => h.search hnear hf

theorem close {f : File slab} (hf : f ∈ files) :
    Sorted files (s.closed f (s.dev.ioctlClose rb f)) := by
  have hsearch : s.dev.conSearch f = s.own f := h.foundByFile hnear f hf
  unfold Chdev.ioctlClose
  cases hown : s.own f with
  | none =>
    rw [hsearch, hown]
    show Ordered files s.dev.root s.dev.allocated (Function.update s.own f none)
    rw [← hown, Function.update_eq_self]
    exact h
  | some con =>
    rw [hsearch, hown]
    exact Ordered.erase rb h hf hown

theorem openInsert {f : File slab} (hf : f ∈ files) :
    Ordered files (s.dev.openInsert rb f).2.root (s.dev.openInsert rb f).2.allocated
      (Function.update s.own f (some ⟨s.dev.allocated, f⟩)) := by
  obtain ⟨-, hroot, hallocated⟩ := s.dev.openInsert_eq rb f
  rw [hroot, hallocated]
  exact Ordered.conInsert rb hnear h hf

theorem userStep {op : UserFileOp slab} (hop : op.file ∈ files) :
    ∃ s', s.userStep rb op = some s' ∧ Sorted files s' := by
  cases op with
  | «open» f kzalloc timelines =>
    cases kzalloc with
    | false => exact ⟨_, rfl, h⟩
    | true => exact ⟨_, rfl, h.openInsert rb hnear hop⟩
  | close f => exact ⟨_, rfl, h.close rb hnear hop⟩

theorem adminStep {op : AdminFileOp slab} (hop : op.file ∈ files)
    (hsafe : AdminSafe op) : ∃ s', s.adminStep rb op = some s' ∧ Sorted files s' := by
  cases op with
  | «open» f kzalloc clocks =>
    cases kzalloc with
    | false => exact ⟨_, rfl, h⟩
    | true =>
      obtain ⟨hclocks, hsignal⟩ := hsafe rfl
      obtain ⟨result, heap, hopen, hzero⟩ := s.dev.adminOpen_of_clocks rb f hclocks
      rw [hzero.mpr hsignal] at hopen
      refine ⟨_, congrArg (Option.map fun outcome => s.opened f outcome) hopen, ?_⟩
      exact h.openInsert rb hnear hop
  | close f => exact ⟨_, rfl, h.close rb hnear hop⟩

/-- Without a clock the open does not return, and after a signal a file that is not open has a
connection. -/
theorem adminSafe_of_found {op : AdminFileOp slab} (hop : op.file ∈ files)
    (hfound : FoundAfter (Tracked.adminStep rb) files s op) : AdminSafe op := by
  cases op with
  | close f => trivial
  | «open» f kzalloc clocks =>
    rintro rfl
    obtain ⟨s', hstep, hfound⟩ := hfound
    have hclocks : clocks ≠ [] := by
      rintro rfl
      cases hstep
    refine ⟨hclocks, ?_⟩
    obtain ⟨result, heap, hopen, hzero⟩ := s.dev.adminOpen_of_clocks rb f hclocks
    refine hzero.mp (by_contra fun hresult => ?_)
    have hs' := (congrArg (Option.map fun outcome => s.opened f outcome) hopen).symm.trans hstep
    cases hs'
    -- the tree leads to the new connection, and nobody has it
    have hnew := (h.openInsert rb hnear hop).search hnear hop
    rw [Function.update_self] at hnew
    have hold : s.own f = some ⟨s.dev.allocated, f⟩ := by
      have hf := hfound f hop
      simp only [opened, if_neg hresult] at hf
      exact hf.symm.trans hnew
    have hmem := (find_some h.tree ((h.found f hop).trans hold)).1
    exact absurd (h.fresh _ hmem) (Nat.lt_irrefl _)

theorem user_run {ops : List (UserFileOp slab)} (hops : ∀ op ∈ ops, op.file ∈ files) :
    Runs.AllSteps (Tracked.userStep rb) (FoundAfter (Tracked.userStep rb) files) s ops := by
  induction ops generalizing s with
  | nil => trivial
  | cons op ops ih =>
    obtain ⟨hop, hops⟩ := List.forall_mem_cons.mp hops
    obtain ⟨s', hstep, hs'⟩ := h.userStep rb hnear hop
    exact Runs.allSteps_cons s' hstep ⟨s', hstep, hs'.foundByFile hnear⟩ (ih hs' hops)

theorem admin_run_iff {ops : List (AdminFileOp slab)} (hops : ∀ op ∈ ops, op.file ∈ files) :
    Runs.AllSteps (Tracked.adminStep rb) (FoundAfter (Tracked.adminStep rb) files) s ops
      ↔ ∀ op ∈ ops, AdminSafe op := by
  induction ops generalizing s with
  | nil => simp [Runs.AllSteps]
  | cons op ops ih =>
    obtain ⟨hop, hops⟩ := List.forall_mem_cons.mp hops
    rw [List.forall_mem_cons]
    constructor
    · rintro ⟨hfound, hrest⟩
      have hsafe := h.adminSafe_of_found rb hnear hop hfound
      obtain ⟨s', hstep, hs'⟩ := h.adminStep rb hnear hop hsafe
      exact ⟨hsafe, (ih hs' hops).mp (hrest s' hstep)⟩
    · rintro ⟨hsafe, hrest⟩
      obtain ⟨s', hstep, hs'⟩ := h.adminStep rb hnear hop hsafe
      exact Runs.allSteps_cons s' hstep ⟨s', hstep, hs'.foundByFile hnear⟩ ((ih hs' hops).mpr hrest)

end Sorted

end Steps

/-- **Connections are found by file between files that are near.** Let the files be less than `2 ^
31` structures apart. Then for every sequence of opens and closes of the user's device a file always
leads to its own connection if it is open, and to none if it is not; and for the administrator's
device this is so exactly if no open is interrupted by a signal or finds no clock. -/
theorem connections_found_by_file {files : Set (File slab)}
    (hnear : ∀ f ∈ files, ∀ g ∈ files, f.Near g) (rb : ConRbtree slab) :
    (∀ ops : List (UserFileOp slab), (∀ op ∈ ops, op.file ∈ files) →
        Runs.AllSteps (userStep rb) (FoundAfter (userStep rb) files) start ops)
      ∧ ∀ ops : List (AdminFileOp slab), (∀ op ∈ ops, op.file ∈ files) →
        (Runs.AllSteps (adminStep rb) (FoundAfter (adminStep rb) files) start ops
          ↔ ∀ op ∈ ops, AdminSafe op) := by
  have hstart : Sorted files start := ordered_nil
  exact ⟨fun _ hops => hstart.user_run rb hnear hops,
    fun _ hops => hstart.admin_run_iff rb hnear hops⟩

/-- Files of 256 bytes. -/
def slab256 : FileSlab := ⟨256, 0, by decide⟩

def fileLow : File slab256 := ⟨0xffff888000000000, by decide⟩

/-- `2 ^ 32` files further. -/
def fileHigh : File slab256 := ⟨0xffff898000000000, by decide⟩

def fileNext : File slab256 := ⟨0xffff888000000100, by decide⟩

theorem connections_found_of_neighbours :
    (∀ f ∈ ({fileLow, fileNext} : Set (File slab256)),
      ∀ g ∈ ({fileLow, fileNext} : Set (File slab256)),
        f.Near g)
      ∧ Runs.AllSteps (userStep (Primitives.plain ConNode.addr))
        (FoundAfter (userStep (Primitives.plain ConNode.addr)) {fileLow, fileNext}) start
        [.open fileNext true [], .open fileLow true [], .close fileNext] := by
  have hnear : ∀ f ∈ ({fileLow, fileNext} : Set (File slab256)),
      ∀ g ∈ ({fileLow, fileNext} : Set (File slab256)), f.Near g := by
    unfold File.Near
    rintro f (rfl | rfl) g (rfl | rfl) <;> decide
  refine ⟨hnear, (connections_found_by_file hnear (Primitives.plain ConNode.addr)).1 _ ?_⟩
  simp [UserFileOp.file]

/-- **Files far apart share a connection.** The user's device is opened on a file, and another file,
which was never opened, leads to its connection; when it is opened, it takes the first one's place.
An open of the administrator's device that a signal interrupts leaves a connection. -/
theorem connections_mixed_up :
    ((Chdev.empty.qotUserChdevIoctlOpen (Primitives.plain ConNode.addr) fileLow true []).2.conSearch
        fileHigh = some ⟨0, fileLow⟩)
      ∧ ¬ Runs.AllSteps (userStep (Primitives.plain ConNode.addr))
        (FoundAfter (userStep (Primitives.plain ConNode.addr)) {fileLow, fileHigh}) start
        [.open fileLow true []]
      ∧ ((((Chdev.empty.qotUserChdevIoctlOpen (Primitives.plain ConNode.addr) fileLow true []).2
        ).qotUserChdevIoctlOpen (Primitives.plain ConNode.addr) fileHigh true []).2.conSearch
          fileLow = some ⟨1, fileHigh⟩)
      ∧ ¬ Runs.AllSteps (adminStep (Primitives.plain ConNode.addr))
        (FoundAfter (adminStep (Primitives.plain ConNode.addr)) {fileLow}) start
        [.open fileLow true [⟨nameA, true, true⟩]] := by
  refine ⟨by decide, ?_, by decide, ?_⟩
  · rintro ⟨⟨s', hstep, hfound⟩, -⟩
    cases hstep
    have hhigh := hfound fileHigh (Or.inr rfl)
    revert hhigh
    decide
  · rintro ⟨⟨s', hstep, hfound⟩, -⟩
    cases hstep
    have hlow := hfound fileLow rfl
    revert hlow
    decide

end Tracked

end Qot
