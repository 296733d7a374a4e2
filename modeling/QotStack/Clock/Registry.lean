import QotStack.Lib.Runs
import QotStack.Lib.SearchTree
import QotStack.Registry.Bind
import QotStack.Types.Uncertain

/-!
# QotStack — the registry of platform clocks (`qot_clock.c`)

Drivers register their clocks with the core under a name. The registry is a tree by name, and a
pointer `core` to the clock that presides; the first clock to be registered becomes it. What the
registry is for is a map from names to implementations, `ClockMap`, with one distinguished entry:
`ClockSpec` says what each operation does to the map and what it answers.

The code departs from that in five places. `qot_clock_update` tests a pointer it has just cleared
and never finds anything; `qot_clock_first` does not ask whether there is a first clock;
`qot_clock_remove` tests its argument in the place of what it found; neither it nor
`qot_clock_unregister` looks at `core`; and a registration needs memory. `ClockOpSafe` excludes
these, and `clock_registry_iff` shows that there is nothing else.

A node has an address that is not used again, so that a pointer to a freed node is not taken for
one to a new node in its place.
-/

namespace Qot

open SearchTree

/-! ## Names in order -/

/-- `strcmp`. -/
instance : Ord CName := ⟨fun a b => compare a.bytes b.bytes⟩

instance : Std.TransOrd CName where
  eq_swap {a b} := by
    have h : compare a.bytes b.bytes = (compare b.bytes a.bytes).swap := Std.OrientedCmp.eq_swap
    exact h
  isLE_trans {a b c} hab hbc := by
    have h : (compare a.bytes c.bytes).isLE := Std.TransCmp.isLE_trans hab hbc
    exact h

instance : Std.LawfulEqOrd CName where
  compare_self {a} := by
    have h : compare a.bytes a.bytes = .eq := Std.ReflCmp.compare_self
    exact h
  eq_of_compare {a b} h := by
    have hbytes : a.bytes = b.bytes := Std.LawfulEqCmp.eq_of_compare h
    cases a
    cases b
    cases hbytes
    rfl

theorem compare_bytes_eq_lt (a b : List UInt8) : compare a b = .lt ↔ a < b := by
  induction a generalizing b with
  | nil =>
    cases b with
    | nil => simp
    | cons y b => exact iff_of_true rfl (List.nil_lt_cons y b)
  | cons x a ih =>
    cases b with
    | nil => simp
    | cons y b =>
      rw [List.cons_lt_cons_iff, ← ih b, List.compare_eq_compareLex, List.compareLex_cons_cons,
        Ordering.then_eq_lt]
      simp [Std.compare_eq_lt]

/-! ## The registry -/

inductive QotClkState where
  | qotClkStateOn
  | qotClkStateOff
  deriving DecidableEq, Repr

/-- A clock as the core describes it (`qot_clock_t`). -/
structure QotClock where
  name : CName
  state : QotClkState
  nomFreqNhz : UInt64
  nomFreqNwatt : UInt64
  readLatency : Utimelength
  interruptLatency : Utimelength
  errors : UInt64 × UInt64
  phcId : Int32
  deriving DecidableEq

/-- A clock as its driver implements it (`qot_clock_impl_t`). The driver's functions are never
called here: `driver` stands for all of them. -/
structure QotClockImpl where
  info : QotClock
  driver : Nat
  deriving DecidableEq

/-- A node of the tree (`clk_t`), at its address. -/
structure Clk where
  addr : Nat
  impl : QotClockImpl
  deriving DecidableEq

def Clk.name (clk : Clk) : CName := clk.impl.info.name

structure ClockRegistry where
  root : BinaryTree Clk
  core : Option Nat
  /-- The next address. -/
  allocated : Nat

def ClockRegistry.empty : ClockRegistry := ⟨.nil, none, 0⟩

/-- The kernel's rbtree, on trees of clocks. -/
abbrev ClockRbtree := Primitives Clk.name

/-- What a call returns: `QOT_RETURN_TYPE_ERR`, or `QOT_RETURN_TYPE_OK` with or without a clock
copied to the caller. -/
inductive ClockResult where
  | err
  | ok
  | info (clk : QotClock)
  deriving DecidableEq

namespace ClockRegistry

def qotClockFind (s : ClockRegistry) (name : CName) : Option Clk :=
  SearchTree.find Clk.name name s.root

/-- The clocks by name. -/
def clocks (s : ClockRegistry) : List Clk := inorder s.root

def qotClockInsert (rb : ClockRbtree) (s : ClockRegistry) (clk : Clk) : Option ClockRegistry :=
  (SearchTree.insert Clk.name clk s.root).map fun root => { s with root := rb.insertColor root }

def qotClockRegister (rb : ClockRbtree) (s : ClockRegistry) (impl : QotClockImpl)
    (kzalloc : Bool) : ClockResult × ClockRegistry :=
  if kzalloc then
    let clkPriv : Clk := ⟨s.allocated, impl⟩
    match { s with allocated := s.allocated + 1 }.qotClockInsert rb clkPriv with
    | none => (.err, { s with allocated := s.allocated + 1 })
    -- if no other clock is acting as the core, this one is
    | some s' => (.ok, { s' with core := s'.core.or (some clkPriv.addr) })
  else (.err, s)

def rbErase (rb : ClockRbtree) (s : ClockRegistry) (clk : Clk) : ClockRegistry :=
  { s with root := rb.erase clk.name s.root }

def qotClockUnregister (rb : ClockRbtree) (s : ClockRegistry) (impl : QotClockImpl) :
    ClockResult × ClockRegistry :=
  match s.qotClockFind impl.info.name with
  | none => (.err, s)
  | some clkPriv => (.ok, s.rbErase rb clkPriv)

/-- The pointer is tested right after it is set to `NULL`; the rest is never reached. -/
def qotClockUpdate (s : ClockRegistry) (impl : QotClockImpl) :
    Option (ClockResult × ClockRegistry) :=
  let clkPriv : Option Clk := none
  match clkPriv with
  | none => some (.err, s)
  | some _ =>
    match s.qotClockFind impl.info.name with
    | none => none
    | some found =>
      let copy (c : Clk) : Clk := if c.addr = found.addr then { c with impl := impl } else c
      some (.ok, { s with root := s.root.map copy })

/-- With no clock the node is `NULL`, and what is copied lies before it: a fault. -/
def qotClockFirst (s : ClockRegistry) : Option ClockResult :=
  s.clocks.head?.map fun clkPriv => .info clkPriv.impl.info

/-- `rb_next`: the node after the one with this name. -/
def rbNext (s : ClockRegistry) (name : CName) : Option Clk :=
  (s.clocks.dropWhile fun c => c.name ≠ name).tail.head?

def qotClockNext (s : ClockRegistry) (clk : CName) : ClockResult :=
  match s.qotClockFind clk with
  | none => .err
  | some clkPriv =>
    match s.rbNext clkPriv.name with
    | none => .err
    | some next => .info next.impl.info

def qotClockGetInfo (s : ClockRegistry) (clk : CName) : ClockResult :=
  match s.qotClockFind clk with
  | none => .err
  | some clkPriv => .info clkPriv.impl.info

/-- The argument is tested where the node should be; erasing a node that was not found is a
fault. -/
def qotClockRemove (rb : ClockRbtree) (s : ClockRegistry) (clk : CName) :
    Option (ClockResult × ClockRegistry) :=
  (s.qotClockFind clk).map fun clkPriv => (.ok, s.rbErase rb clkPriv)

end ClockRegistry

inductive ClockRegistryOp where
  | register (impl : QotClockImpl) (kzalloc : Bool)
  | unregister (impl : QotClockImpl)
  | update (impl : QotClockImpl)
  | remove (clk : CName)
  | getInfo (clk : CName)
  | first
  | next (clk : CName)

/-- One operation, or `none` where the kernel faults. -/
def ClockRegistry.call (rb : ClockRbtree) (s : ClockRegistry) :
    ClockRegistryOp → Option (ClockResult × ClockRegistry)
  | .register impl kzalloc => some (s.qotClockRegister rb impl kzalloc)
  | .unregister impl => some (s.qotClockUnregister rb impl)
  | .update impl => s.qotClockUpdate impl
  | .remove clk => s.qotClockRemove rb clk
  | .getInfo clk => some (s.qotClockGetInfo clk, s)
  | .first => s.qotClockFirst.map fun r => (r, s)
  | .next clk => some (s.qotClockNext clk, s)

def ClockRegistry.step (rb : ClockRbtree) (s : ClockRegistry) (op : ClockRegistryOp) :
    Option ClockRegistry :=
  (s.call rb op).map (·.2)

/-- The loop of the callers: the first clock, then the next one until there is none. -/
def ClockRegistry.listFrom (s : ClockRegistry) : Nat → ClockResult → List QotClock
  | fuel + 1, .info clk => clk :: s.listFrom fuel (s.qotClockNext clk.name)
  | _, _ => []

/-! ## What the registry is for -/

/-- A map from names to implementations. -/
abbrev ClockMap := CName → Option QotClockImpl

/-- `clk` is the least clock of the map among those with a name in `p`. -/
structure LeastClock (m : ClockMap) (p : CName → Prop) (clk : QotClock) : Prop where
  mem : ∃ impl, m clk.name = some impl ∧ impl.info = clk
  bound : p clk.name
  least : ∀ name impl, m name = some impl → p name → name = clk.name ∨ compare clk.name name = .lt

/-- What an operation answers, and the map after it. -/
def ClockSpec (m : ClockMap) (op : ClockRegistryOp) (r : ClockResult) (m' : ClockMap) : Prop :=
  match op with
  | .register impl _ =>
    if m impl.info.name = none then r = .ok ∧ m' = Function.update m impl.info.name (some impl)
    else r = .err ∧ m' = m
  | .unregister impl =>
    if m impl.info.name = none then r = .err ∧ m' = m
    else r = .ok ∧ m' = Function.update m impl.info.name none
  | .update impl =>
    if m impl.info.name = none then r = .err ∧ m' = m
    else r = .ok ∧ m' = Function.update m impl.info.name (some impl)
  | .remove clk =>
    if m clk = none then r = .err ∧ m' = m else r = .ok ∧ m' = Function.update m clk none
  | .getInfo clk => m' = m ∧ r = (m clk).elim .err fun impl => .info impl.info
  | .first => m' = m ∧ ((∀ name, m name = none) ∧ r = .err
      ∨ ∃ clk, LeastClock m (fun _ => True) clk ∧ r = .info clk)
  | .next clk =>
    m' = m ∧ ((m clk = none ∨ ∀ name, compare clk name = .lt → m name = none) ∧ r = .err
      ∨ (m clk).isSome ∧ ∃ next, LeastClock m (fun name => compare clk name = .lt) next
        ∧ r = .info next)

namespace ClockRegistry

def map (s : ClockRegistry) : ClockMap := fun name => (s.qotClockFind name).map (·.impl)

/-- The core pointer is empty or one of the registered clocks. -/
def CoreRegistered (s : ClockRegistry) : Prop :=
  ∀ addr, s.core = some addr → ∃ clk ∈ s.clocks, clk.addr = addr

/-- First, then next until there is none, lists every clock of the map once, in the order of the
names. -/
def ListsInOrder (s : ClockRegistry) : Prop :=
  ∀ r, s.qotClockFirst = some r → ∀ fuel, s.clocks.length ≤ fuel →
    ((s.listFrom fuel r).map (·.name)).Pairwise (fun a b => compare a b = .lt)
      ∧ ∀ clk, clk ∈ s.listFrom fuel r ↔ ∃ impl, s.map clk.name = some impl ∧ impl.info = clk

end ClockRegistry

/-- An operation returns, as the map does, and leaves the registry in order. -/
def ClockRefines (rb : ClockRbtree) (s : ClockRegistry) (op : ClockRegistryOp) : Prop :=
  ∃ r s', s.call rb op = some (r, s') ∧ ClockSpec s.map op r s'.map ∧ s'.CoreRegistered
    ∧ s'.ListsInOrder

/-- The condition on an operation: memory for a registration that needs some, a clock to remove that
is not the core, none to update, one to begin with. -/
def ClockOpSafe (s : ClockRegistry) : ClockRegistryOp → Prop
  | .register impl kzalloc => kzalloc = true ∨ (s.qotClockFind impl.info.name).isSome
  | .unregister impl => ∀ clk, s.qotClockFind impl.info.name = some clk → s.core ≠ some clk.addr
  | .update impl => s.qotClockFind impl.info.name = none
  | .remove clk => ∃ found, s.qotClockFind clk = some found ∧ s.core ≠ some found.addr
  | .getInfo _ => True
  | .first => s.clocks ≠ []
  | .next _ => True

/-! ## A registry in order -/

/-- A search tree whose nodes have addresses of their own, the core among them. -/
structure RegistryInv (s : ClockRegistry) : Prop where
  tree : IsSearchTree Clk.name s.root
  distinct : ∀ c ∈ s.clocks, ∀ c' ∈ s.clocks, c.addr = c'.addr → c = c'
  given : ∀ c ∈ s.clocks, c.addr < s.allocated
  core : s.CoreRegistered

theorem registryInv_empty : RegistryInv ClockRegistry.empty where
  tree := trivial
  distinct _ hc := absurd hc List.not_mem_nil
  given _ hc := absurd hc List.not_mem_nil
  core _ h := by cases h

variable {s : ClockRegistry} {name : CName} {clk c : Clk} {impl : QotClockImpl}
  {pre rest : List Clk} {r : ClockResult} {rb : ClockRbtree} {op : ClockRegistryOp}

theorem RegistryInv.find_mem (h : RegistryInv s) (hfind : s.qotClockFind name = some clk) :
    clk ∈ s.clocks ∧ clk.name = name :=
  find_some h.tree hfind

theorem RegistryInv.map_eq_some_iff (h : RegistryInv s) :
    s.map name = some impl ↔ ∃ clk ∈ s.clocks, clk.name = name ∧ clk.impl = impl := by
  unfold ClockRegistry.map
  constructor
  · intro hmap
    obtain ⟨clk, hfind, rfl⟩ := Option.map_eq_some_iff.mp hmap
    obtain ⟨hmem, hname⟩ := h.find_mem hfind
    exact ⟨clk, hmem, hname, rfl⟩
  · rintro ⟨clk, hmem, rfl, rfl⟩
    have hfind : s.qotClockFind clk.name = some clk := find_key h.tree hmem
    rw [hfind]
    rfl

theorem map_eq_none_iff : s.map name = none ↔ s.qotClockFind name = none := by
  unfold ClockRegistry.map
  exact Option.map_eq_none_iff

namespace RegistryInv
variable (h : RegistryInv s)
include h

theorem sorted : s.clocks.Pairwise fun c c' => compare c.name c'.name = .lt :=
  isSearchTree_iff.mp h.tree

/-! ## Listing -/

/-- In a list with distinct names the node after a given one is the head of what follows it. -/
theorem rbNext_eq (hsplit : s.clocks = pre ++ c :: rest) : s.rbNext c.name = rest.head? := by
  have hsorted := h.sorted
  rw [hsplit, List.pairwise_append] at hsorted
  have hpre : ∀ b ∈ pre, b.name ≠ c.name := by
    intro b hb heq
    have hlt := hsorted.2.2 b hb c List.mem_cons_self
    rw [heq] at hlt
    simp at hlt
  have hdrop : (pre ++ c :: rest).dropWhile (fun b => decide (b.name ≠ c.name)) = c :: rest := by
    rw [List.dropWhile_append_of_pos (by simpa using hpre), List.dropWhile_cons_of_neg (by simp)]
  unfold ClockRegistry.rbNext
  rw [hsplit, hdrop]
  rfl

theorem find_of_split (hsplit : s.clocks = pre ++ c :: rest) : s.qotClockFind c.name = some c := by
  refine find_key h.tree ?_
  show c ∈ s.clocks
  rw [hsplit]
  simp

theorem next_eq (hsplit : s.clocks = pre ++ c :: rest) :
    s.qotClockNext c.name = rest.head?.elim .err fun next => .info next.impl.info := by
  unfold ClockRegistry.qotClockNext
  simp only [h.find_of_split hsplit, h.rbNext_eq hsplit]
  cases rest <;> rfl

/-- From a clock on, the loop lists the rest of the tree. -/
theorem listFrom_eq (hsplit : s.clocks = pre ++ c :: rest)
    {fuel : Nat} (hfuel : rest.length < fuel) :
    s.listFrom fuel (.info c.impl.info) = (c :: rest).map (·.impl.info) := by
  induction rest generalizing pre c fuel with
  | nil =>
    obtain ⟨fuel, rfl⟩ := Nat.exists_eq_succ_of_ne_zero (by omega : fuel ≠ 0)
    have hnext : s.qotClockNext c.impl.info.name = .err := h.next_eq hsplit
    simp only [ClockRegistry.listFrom, hnext]
    cases fuel <;> rfl
  | cons d rest ih =>
    obtain ⟨fuel, rfl⟩ := Nat.exists_eq_succ_of_ne_zero (by omega : fuel ≠ 0)
    have hnext : s.qotClockNext c.impl.info.name = .info d.impl.info := h.next_eq hsplit
    have htail : s.listFrom fuel (.info d.impl.info) = (d :: rest).map (·.impl.info) := by
      have hsplit' : s.clocks = (pre ++ [c]) ++ d :: rest := by rw [hsplit, List.append_cons]
      rw [List.length_cons] at hfuel
      exact ih hsplit' (by omega)
    simp only [ClockRegistry.listFrom, hnext, htail]
    rfl

theorem listsInOrder : s.ListsInOrder := by
  intro r hfirst fuel hfuel
  obtain ⟨c, hhead, rfl⟩ := Option.map_eq_some_iff.mp hfirst
  obtain ⟨rest, hclocks⟩ := List.head?_eq_some_iff.mp hhead
  have hsplit : s.clocks = [] ++ c :: rest := hclocks
  have hlist : s.listFrom fuel (.info c.impl.info) = s.clocks.map (·.impl.info) := by
    rw [hclocks, List.length_cons] at hfuel
    rw [hclocks]
    exact h.listFrom_eq hsplit hfuel
  rw [hlist]
  refine ⟨?_, fun clk => ?_⟩
  · rw [List.map_map, List.pairwise_map]
    exact h.sorted
  · rw [List.mem_map]
    constructor
    · rintro ⟨c', hc', rfl⟩
      exact ⟨c'.impl, h.map_eq_some_iff.mpr ⟨c', hc', rfl, rfl⟩, rfl⟩
    · rintro ⟨impl, hmap, rfl⟩
      obtain ⟨c', hc', -, rfl⟩ := h.map_eq_some_iff.mp hmap
      exact ⟨c', hc', rfl⟩

/-! ## The operations -/

/-- A clock that begins a part of the tree which holds every clock with a name in `p`. -/
theorem leastClock (hsplit : s.clocks = pre ++ c :: rest)
    {p : CName → Prop} (hc : p c.name) (hpre : ∀ b ∈ pre, ¬ p b.name) :
    LeastClock s.map p c.impl.info where
  mem := by
    have hmem : c ∈ s.clocks := by
      rw [hsplit]
      simp
    exact ⟨c.impl, h.map_eq_some_iff.mpr ⟨c, hmem, rfl, rfl⟩, rfl⟩
  bound := hc
  least name impl hmap hp := by
    obtain ⟨b, hb, rfl, -⟩ := h.map_eq_some_iff.mp hmap
    have hsorted := h.sorted
    rw [hsplit, List.pairwise_append, List.pairwise_cons] at hsorted
    rw [hsplit] at hb
    rcases List.mem_append.mp hb with hb | hb
    · exact absurd hp (hpre b hb)
    · rcases List.mem_cons.mp hb with rfl | hb
      · exact Or.inl rfl
      · exact Or.inr (hsorted.2.1.1 b hb)

theorem first_spec (hfirst : s.qotClockFirst = some r) : ClockSpec s.map .first r s.map := by
  obtain ⟨c, hhead, rfl⟩ := Option.map_eq_some_iff.mp hfirst
  obtain ⟨rest, hclocks⟩ := List.head?_eq_some_iff.mp hhead
  have hsplit : s.clocks = [] ++ c :: rest := hclocks
  refine ⟨rfl, Or.inr ⟨c.impl.info, ?_, rfl⟩⟩
  exact h.leastClock hsplit trivial (fun _ hb => absurd hb List.not_mem_nil)

theorem next_spec (clk : CName) : ClockSpec s.map (.next clk) (s.qotClockNext clk) s.map := by
  refine ⟨rfl, ?_⟩
  cases hfind : s.qotClockFind clk with
  | none =>
    refine Or.inl ⟨Or.inl (map_eq_none_iff.mpr hfind), ?_⟩
    simp only [ClockRegistry.qotClockNext, hfind]
  | some c =>
    obtain ⟨hmem, rfl⟩ := h.find_mem hfind
    obtain ⟨pre, rest, hsplit⟩ := List.append_of_mem hmem
    have hsorted := h.sorted
    rw [hsplit, List.pairwise_append, List.pairwise_cons] at hsorted
    obtain ⟨-, ⟨hafter, -⟩, hbefore⟩ := hsorted
    -- nothing up to `c` comes after it
    have hpre : ∀ b ∈ pre ++ [c], ¬ compare c.name b.name = .lt := by
      intro b hb hlt
      rcases List.mem_append.mp hb with hb | hb
      · have hbc := hbefore b hb c List.mem_cons_self
        rw [Std.OrientedCmp.gt_iff_lt.mpr hbc] at hlt
        cases hlt
      · rw [List.mem_singleton.mp hb] at hlt
        simp at hlt
    rw [h.next_eq hsplit]
    cases rest with
    | nil =>
      refine Or.inl ⟨Or.inr fun name hlt => ?_, rfl⟩
      by_contra hsome
      obtain ⟨impl, hmap⟩ := Option.ne_none_iff_exists'.mp hsome
      obtain ⟨b, hb, rfl, -⟩ := h.map_eq_some_iff.mp hmap
      exact hpre b (hsplit ▸ hb) hlt
    | cons d rest =>
      have hsplit' : s.clocks = (pre ++ [c]) ++ d :: rest := by rw [hsplit, List.append_cons]
      refine Or.inr ⟨?_, d.impl.info, ?_, rfl⟩
      · rw [h.map_eq_some_iff.mpr ⟨c, hmem, rfl, rfl⟩]
        rfl
      · exact h.leastClock hsplit' (hafter d List.mem_cons_self) hpre

/-- Memory that is freed again does not show. -/
theorem allocate : RegistryInv { s with allocated := s.allocated + 1 } :=
  ⟨h.tree, h.distinct, fun c hc => Nat.lt_succ_of_lt (h.given c hc), h.core⟩

/-- A new clock becomes the core if there is none. -/
theorem insert (rb : ClockRbtree) {root' : BinaryTree Clk}
    (hins : SearchTree.insert Clk.name ⟨s.allocated, impl⟩ s.root = some root') :
    RegistryInv
      ⟨rb.insertColor root', s.core.or (some s.allocated), s.allocated + 1⟩ := by
  have hmem : ∀ c : Clk, c ∈ inorder (rb.insertColor root')
      ↔ c = ⟨s.allocated, impl⟩ ∨ c ∈ s.clocks :=
    fun c => rb.mem_insert h.tree hins
  refine ⟨rb.isSearchTree_insert h.tree hins, fun c hc c' hc' heq => ?_, fun c hc => ?_,
    fun addr hcore => ?_⟩
  · rcases (hmem c).mp hc with rfl | hold
    · rcases (hmem c').mp hc' with rfl | hold'
      · rfl
      · exact absurd heq.symm (h.given c' hold').ne
    · rcases (hmem c').mp hc' with rfl | hold'
      · exact absurd heq (h.given c hold).ne
      · exact h.distinct c hold c' hold' heq
  · rcases (hmem c).mp hc with rfl | hold
    · exact Nat.lt_succ_self _
    · exact Nat.lt_succ_of_lt (h.given c hold)
  · cases hold : s.core with
    | none =>
      simp only [hold, Option.none_or, Option.some.injEq] at hcore
      exact ⟨_, (hmem _).mpr (Or.inl rfl), hcore⟩
    | some a =>
      simp only [hold, Option.some_or] at hcore
      cases hcore
      obtain ⟨c, hc, haddr⟩ := h.core _ hold
      exact ⟨c, (hmem c).mpr (Or.inr hc), haddr⟩

theorem register (rb : ClockRbtree) (impl : QotClockImpl) (kzalloc : Bool) :
    RegistryInv (s.qotClockRegister rb impl kzalloc).2
      ∧ (ClockSpec s.map (.register impl kzalloc) (s.qotClockRegister rb impl kzalloc).1
          (s.qotClockRegister rb impl kzalloc).2.map
        ↔ ClockOpSafe s (.register impl kzalloc)) := by
  unfold ClockRegistry.qotClockRegister ClockRegistry.qotClockInsert
  cases kzalloc with
  | false =>
    -- no memory: the right answer only if the name is taken
    refine ⟨h, ?_⟩
    simp only [ClockSpec, ClockOpSafe, Bool.false_eq_true, if_false, false_or, map_eq_none_iff]
    cases s.qotClockFind impl.info.name <;> simp
  | true =>
    simp only [if_true]
    cases hins : SearchTree.insert Clk.name ⟨s.allocated, impl⟩ s.root with
    | none =>
      obtain ⟨c, hc⟩ := insert_eq_none_iff.mp hins
      have hfind : s.qotClockFind impl.info.name = some c := hc
      have hpresent : s.map impl.info.name ≠ none := by simp [map_eq_none_iff, hfind]
      refine ⟨h.allocate, iff_of_true ?_ (Or.inl rfl)⟩
      simp only [ClockSpec, if_neg hpresent]
      exact ⟨rfl, rfl⟩
    | some root' =>
      have hfind : s.qotClockFind impl.info.name = none := by
        refine Option.eq_none_iff_forall_ne_some.mpr fun c hc => ?_
        have hnone : SearchTree.insert Clk.name ⟨s.allocated, impl⟩ s.root = none :=
          insert_eq_none_iff.mpr ⟨c, hc⟩
        rw [hnone] at hins
        cases hins
      refine ⟨h.insert rb hins, iff_of_true ?_ (Or.inl rfl)⟩
      simp only [ClockSpec, if_pos (map_eq_none_iff.mpr hfind), Option.map_some]
      refine ⟨trivial, funext fun name => ?_⟩
      have hnew : SearchTree.find Clk.name name (rb.insertColor root')
          = if name = impl.info.name then some ⟨s.allocated, impl⟩
            else SearchTree.find Clk.name name s.root := rb.find_insert h.tree hins name
      simp only [ClockRegistry.map, ClockRegistry.qotClockFind, hnew, Function.update_apply]
      split <;> rfl

end RegistryInv

theorem RegistryInv.mem_rbErase (rb : ClockRbtree) :
    c ∈ (s.rbErase rb clk).clocks ↔ c ∈ s.clocks ∧ c.name ≠ clk.name := by
  unfold ClockRegistry.clocks ClockRegistry.rbErase
  rw [rb.inorder_erase]
  simp

theorem RegistryInv.map_rbErase (h : RegistryInv s) (rb : ClockRbtree) (clk : Clk) :
    (s.rbErase rb clk).map = Function.update s.map clk.name none := by
  funext name
  simp only [ClockRegistry.map, ClockRegistry.qotClockFind, ClockRegistry.rbErase,
    rb.find_erase h.tree, Function.update_apply]
  split <;> rfl

/-- Taking a clock out leaves the core pointer registered exactly if it does not point there. -/
theorem RegistryInv.core_rbErase (h : RegistryInv s) (rb : ClockRbtree) (hclk : clk ∈ s.clocks) :
    (s.rbErase rb clk).CoreRegistered ↔ s.core ≠ some clk.addr := by
  constructor
  · intro hcore heq
    obtain ⟨c, hc, haddr⟩ := hcore clk.addr heq
    obtain ⟨hc, hne⟩ := (mem_rbErase rb).mp hc
    exact hne (congrArg Clk.name (h.distinct c hc clk hclk haddr))
  · intro hne addr hcore
    obtain ⟨c, hc, haddr⟩ := h.core addr hcore
    refine ⟨c, (mem_rbErase rb).mpr ⟨hc, fun hname => hne ?_⟩, haddr⟩
    have heq : c = clk := List.inj_on_of_nodup_map h.tree.key_inj hc hclk hname
    rw [← heq, haddr]
    exact hcore

theorem RegistryInv.rbErase (h : RegistryInv s) (rb : ClockRbtree) (hclk : clk ∈ s.clocks)
    (hcore : s.core ≠ some clk.addr) : RegistryInv (s.rbErase rb clk) where
  tree := rb.isSearchTree_erase h.tree clk.name
  distinct c hc c' hc' := h.distinct c ((mem_rbErase rb).mp hc).1 c' ((mem_rbErase rb).mp hc').1
  given c hc := h.given c ((mem_rbErase rb).mp hc).1
  core := (h.core_rbErase rb hclk).mpr hcore

/-! ## Runs -/

theorem ClockRefines.iff_of_call {s' : ClockRegistry} (hcall : s.call rb op = some (r, s')) :
    ClockRefines rb s op ↔ ClockSpec s.map op r s'.map ∧ s'.CoreRegistered ∧ s'.ListsInOrder := by
  unfold ClockRefines
  simp only [hcall, Option.some.injEq, Prod.mk.injEq]
  constructor
  · rintro ⟨_, _, ⟨rfl, rfl⟩, h⟩
    exact h
  · exact fun h => ⟨r, s', ⟨rfl, rfl⟩, h⟩

/-- A fault is no answer. -/
theorem not_refines_of_fault (hcall : s.call rb op = none) : ¬ ClockRefines rb s op := by
  rintro ⟨r, s', hsome, -⟩
  rw [hcall] at hsome
  cases hsome

theorem RegistryInv.refines_unchanged (h : RegistryInv s) (hcall : s.call rb op = some (r, s)) :
    ClockRefines rb s op ↔ ClockSpec s.map op r s.map := by
  rw [ClockRefines.iff_of_call hcall]
  exact and_iff_left ⟨h.core, h.listsInOrder⟩

theorem call_unregister_of_none (rb : ClockRbtree) (hfind : s.qotClockFind impl.info.name = none) :
    s.call rb (.unregister impl) = some (.err, s) := by
  simp only [ClockRegistry.call, ClockRegistry.qotClockUnregister, hfind]

theorem call_unregister_of_some (rb : ClockRbtree)
    (hfind : s.qotClockFind impl.info.name = some clk) :
    s.call rb (.unregister impl) = some (.ok, s.rbErase rb clk) := by
  simp only [ClockRegistry.call, ClockRegistry.qotClockUnregister, hfind]

theorem call_remove_of_some (rb : ClockRbtree) (hfind : s.qotClockFind name = some clk) :
    s.call rb (.remove name) = some (.ok, s.rbErase rb clk) := by
  simp only [ClockRegistry.call, ClockRegistry.qotClockRemove, hfind, Option.map_some]

namespace RegistryInv
variable (h : RegistryInv s)
include h

/-- `unregister` and `remove` of a clock that is found: the core must not be the one that goes. -/
theorem refines_erase (hfind : s.qotClockFind name = some clk)
    (hcall : s.call rb op = some (.ok, s.rbErase rb clk))
    (hspec : s.map name ≠ none → (ClockSpec s.map op .ok (s.rbErase rb clk).map
      ↔ (s.rbErase rb clk).map = Function.update s.map name none)) :
    ClockRefines rb s op ↔ s.core ≠ some clk.addr := by
  obtain ⟨hclk, rfl⟩ := h.find_mem hfind
  have hpresent : s.map clk.name ≠ none := by simp [map_eq_none_iff, hfind]
  rw [ClockRefines.iff_of_call hcall, hspec hpresent]
  constructor
  · rintro ⟨-, hcore, -⟩
    exact (h.core_rbErase rb hclk).mp hcore
  · intro hcore
    have h' := h.rbErase rb hclk hcore
    exact ⟨h.map_rbErase rb clk, h'.core, h'.listsInOrder⟩

theorem refines_unregister_iff (rb : ClockRbtree) (impl : QotClockImpl) :
    ClockRefines rb s (.unregister impl) ↔ ClockOpSafe s (.unregister impl) := by
  simp only [ClockOpSafe]
  cases hfind : s.qotClockFind impl.info.name with
  | none =>
    rw [h.refines_unchanged (call_unregister_of_none rb hfind)]
    simp only [ClockSpec, if_pos (map_eq_none_iff.mpr hfind)]
    exact iff_of_true ⟨trivial, trivial⟩ (by simp)
  | some clk =>
    simp only [Option.some.injEq, forall_eq']
    refine h.refines_erase hfind (call_unregister_of_some rb hfind) fun hpresent => ?_
    simp only [ClockSpec, if_neg hpresent, true_and]

/-- An update finds nothing, whatever is registered. -/
theorem refines_update_iff (rb : ClockRbtree) (impl : QotClockImpl) :
    ClockRefines rb s (.update impl) ↔ ClockOpSafe s (.update impl) := by
  have hcall : s.call rb (.update impl) = some (.err, s) := rfl
  rw [h.refines_unchanged hcall]
  simp only [ClockSpec, ClockOpSafe]
  by_cases habsent : s.map impl.info.name = none
  · simp only [if_pos habsent]
    exact iff_of_true ⟨trivial, trivial⟩ (map_eq_none_iff.mp habsent)
  · simp only [if_neg habsent]
    exact iff_of_false (fun hr => by cases hr.1) fun hfind => habsent (map_eq_none_iff.mpr hfind)

theorem refines_remove_iff (rb : ClockRbtree) (name : CName) :
    ClockRefines rb s (.remove name) ↔ ClockOpSafe s (.remove name) := by
  simp only [ClockOpSafe]
  cases hfind : s.qotClockFind name with
  | none =>
    have hcall : s.call rb (.remove name) = none := by
      simp only [ClockRegistry.call, ClockRegistry.qotClockRemove, hfind, Option.map_none]
    exact iff_of_false (not_refines_of_fault hcall) (by simp)
  | some clk =>
    simp only [Option.some.injEq, exists_eq_left']
    refine h.refines_erase hfind (call_remove_of_some rb hfind) fun hpresent => ?_
    simp only [ClockSpec, if_neg hpresent, true_and]

theorem refines_first_iff (rb : ClockRbtree) : ClockRefines rb s .first ↔ ClockOpSafe s .first := by
  simp only [ClockOpSafe]
  cases hfirst : s.qotClockFirst with
  | none =>
    have hempty : s.clocks = [] := by simpa [ClockRegistry.qotClockFirst] using hfirst
    have hcall : s.call rb .first = none := by
      simp only [ClockRegistry.call, hfirst, Option.map_none]
    exact iff_of_false (not_refines_of_fault hcall) (by simp [hempty])
  | some r =>
    have hcall : s.call rb .first = some (r, s) := by
      simp only [ClockRegistry.call, hfirst, Option.map_some]
    rw [h.refines_unchanged hcall]
    refine iff_of_true (h.first_spec hfirst) fun hempty => ?_
    simp [ClockRegistry.qotClockFirst, hempty] at hfirst

/-- **One operation.** It acts as the map does exactly when it meets the condition. -/
theorem refines_iff (rb : ClockRbtree) (op : ClockRegistryOp) :
    ClockRefines rb s op ↔ ClockOpSafe s op := by
  cases op with
  | register impl kzalloc =>
    obtain ⟨h', hspec⟩ := h.register rb impl kzalloc
    have hcall : s.call rb (.register impl kzalloc) = some ((s.qotClockRegister rb impl kzalloc).1,
      (s.qotClockRegister rb impl kzalloc).2) := rfl
    rw [ClockRefines.iff_of_call hcall, hspec]
    exact and_iff_left ⟨h'.core, h'.listsInOrder⟩
  | unregister impl => exact h.refines_unregister_iff rb impl
  | update impl => exact h.refines_update_iff rb impl
  | remove clk => exact h.refines_remove_iff rb clk
  | getInfo clk =>
    have hcall : s.call rb (.getInfo clk) = some (s.qotClockGetInfo clk, s) := rfl
    rw [h.refines_unchanged hcall]
    refine iff_of_true ⟨rfl, ?_⟩ trivial
    unfold ClockRegistry.qotClockGetInfo ClockRegistry.map
    cases s.qotClockFind clk <;> rfl
  | first => exact h.refines_first_iff rb
  | next clk =>
    have hcall : s.call rb (.next clk) = some (s.qotClockNext clk, s) := rfl
    rw [h.refines_unchanged hcall]
    exact iff_of_true (h.next_spec clk) trivial

theorem step {s' : ClockRegistry} (rb : ClockRbtree)
    (hsafe : ClockOpSafe s op) (hstep : s.step rb op = some s') : RegistryInv s' := by
  obtain ⟨⟨r, s₁⟩, hcall, rfl⟩ := Option.map_eq_some_iff.mp hstep
  cases op with
  | register impl kzalloc =>
    have h' := (h.register rb impl kzalloc).1
    simp only [ClockRegistry.call, Option.some.injEq] at hcall
    rw [hcall] at h'
    exact h'
  | unregister impl =>
    cases hfind : s.qotClockFind impl.info.name with
    | none =>
      cases (call_unregister_of_none rb hfind).symm.trans hcall
      exact h
    | some clk =>
      cases (call_unregister_of_some rb hfind).symm.trans hcall
      exact h.rbErase rb (h.find_mem hfind).1 (hsafe clk hfind)
  | update impl =>
    cases hcall
    exact h
  | remove clk =>
    obtain ⟨found, hfind, hcore⟩ := hsafe
    cases (call_remove_of_some rb hfind).symm.trans hcall
    exact h.rbErase rb (h.find_mem hfind).1 hcore
  | getInfo clk =>
    cases hcall
    exact h
  | first =>
    obtain ⟨_, -, heq⟩ := Option.map_eq_some_iff.mp hcall
    cases heq
    exact h
  | next clk =>
    cases hcall
    exact h

end RegistryInv

/-- **The registry is a map with a core element, in exactly the runs that meet the condition.** -/
theorem clock_registry_iff (rb : ClockRbtree) (ops : List ClockRegistryOp) :
    Runs.AllSteps (ClockRegistry.step rb) (ClockRefines rb) ClockRegistry.empty ops
      ↔ Runs.AllSteps (ClockRegistry.step rb) ClockOpSafe ClockRegistry.empty ops :=
  Runs.allSteps_iff_of_inv (fun _ op h => h.refines_iff rb op)
    (fun _ _ _ h hsafe hstep => h.step rb hsafe hstep) registryInv_empty

/-- A clock named `a`. -/
def clockA : QotClockImpl :=
  ⟨⟨nameA, .qotClkStateOn, 0, 0, ⟨⟨0, 0⟩, ⟨⟨0, 0⟩, ⟨0, 0⟩⟩⟩, ⟨⟨0, 0⟩, ⟨⟨0, 0⟩, ⟨0, 0⟩⟩⟩,
    (0, 0), 0⟩, 1⟩

/-- The core pointer survives the clock it points to; an update finds nothing; and with no clock
there is a fault instead of an error. -/
theorem clock_registry_not_map :
    ¬ Runs.AllSteps (ClockRegistry.step (Primitives.plain Clk.name))
        (ClockRefines (Primitives.plain Clk.name)) ClockRegistry.empty
        [.register clockA true, .unregister clockA]
      ∧ ¬ Runs.AllSteps (ClockRegistry.step (Primitives.plain Clk.name))
        (ClockRefines (Primitives.plain Clk.name)) ClockRegistry.empty
        [.register clockA true, .update clockA]
      ∧ ∀ rb, ClockRegistry.empty.call rb .first = none
        ∧ ClockRegistry.empty.call rb (.remove nameA) = none := by
  refine ⟨fun h => ?_, fun h => ?_, fun rb => ⟨rfl, rfl⟩⟩
  · obtain ⟨r, s', hcall, -, hcore, -⟩ := (h.2 _ rfl).1
    cases hcall
    obtain ⟨c, hc, -⟩ := hcore 0 rfl
    exact absurd hc List.not_mem_nil
  · obtain ⟨r, s', hcall, hspec, -⟩ := (h.2 _ rfl).1
    cases hcall
    have hpresent : (ClockRegistry.empty.qotClockRegister (Primitives.plain Clk.name) clockA
        true).2.map clockA.info.name ≠ none := by decide
    simp only [ClockSpec] at hspec
    rw [if_neg hpresent] at hspec
    cases hspec.1

end Qot
