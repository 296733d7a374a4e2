import QotStack.Lib.Runs
import QotStack.Lib.SearchTree
import QotStack.Scheduler.Wake

/-!
# QotStack — the event tree as a priority queue (`qot_scheduler.c`)

The scheduler modules model a timeline's event tree by its traversal. Here it is a tree: an
insertion walks down from the root by `timepoint_cmp`, left of a later sleeper and right of one that
is not later, links the node at the leaf and leaves the rest to the kernel's red-black primitives,
of which only the traversal matters.

Every node carries the number of its insertion, which no function reads. `event_tree_stable` is what
the tree is for: over any run the nodes come in the order of their expiries and, among equal ones,
of their insertion, so that the first is the one to wake next. `events_eventAdd` and its companions
connect the tree with the traversals of the other modules.
-/

namespace Qot

open OrderedInsert SearchTree

/-- A node, with the number of the insertion that linked it. -/
structure Queued where
  sleeper : TimelineSleeper
  stamp : Nat
  deriving DecidableEq, Repr

/-- The tree under `qot_timeline_eventhead`, and the number of the next insertion. -/
structure EventTree where
  root : BinaryTree Queued
  inserted : Nat

def EventTree.empty : EventTree := ⟨.nil, 0⟩

/-- `rb_insert_color` and `rb_erase` on nodes known by their address. -/
abbrev EventRbtree := Primitives fun q : Queued => q.sleeper.addr

/-- The traversal the other modules compute with. -/
def EventTree.events (s : EventTree) : List TimelineSleeper := (inorder s.root).map (·.sleeper)

/-- The test of the walk: left of `this`, since it is later. -/
def laterThan (sleeper this : TimelineSleeper) : Bool :=
  timepointCmp this.qotExpires sleeper.qotExpires < 0

section Operations

variable (rb : EventRbtree)

/-- `qot_timeline_event_add`. -/
def EventTree.eventAdd (s : EventTree) (sleeper : TimelineSleeper) : EventTree where
  root := rb.insertColor
    (link (fun this => laterThan sleeper this.sleeper) ⟨sleeper, s.inserted⟩ s.root)
  inserted := s.inserted + 1

def EventTree.erase (s : EventTree) (addr : Nat) : EventTree :=
  { s with root := rb.erase addr s.root }

/-- The fields of a node rewritten in place. -/
def EventTree.rewrite (s : EventTree) (addr : Nat) (sleeper : TimelineSleeper) : EventTree :=
  { s with root := s.root.map fun q =>
      if q.sleeper.addr = addr then { q with sleeper := sleeper } else q }

/-- `qot_sleeper_wakeup` on the node at an address. A timer is taken off before its expiry is
advanced. -/
def EventTree.wakeup (s : EventTree) (addr : Nat) (alive : Bool) : EventTree :=
  match (inorder s.root).find? fun q => q.sleeper.addr = addr with
  | none => s
  | some q =>
    match qotSleeperWakeup alive q.sleeper with
    | .requeued t => (s.erase rb addr).eventAdd rb t
    | .released => s.erase rb addr
    | .kept t => s.rewrite addr t

inductive EventOp where
  | insert (sleeper : TimelineSleeper)
  | erase (addr : Nat)
  | wakeup (addr : Nat) (alive : Bool)
  deriving DecidableEq, Repr

/-- A sleeper is inserted at an address that is not in use. -/
def EventTree.step (s : EventTree) : EventOp → Option EventTree
  | .insert sleeper => if sleeper.addr ∈ addrs s.events then none else some (s.eventAdd rb sleeper)
  | .erase addr => some (s.erase rb addr)
  | .wakeup addr alive => some (s.wakeup rb addr alive)

end Operations

/-! ## Order -/

/-- `a` expires before `b`, or with it and was inserted before it. -/
def Sooner (a b : Queued) : Prop :=
  timepointCmp a.sleeper.qotExpires b.sleeper.qotExpires > 0
    ∨ (timepointCmp a.sleeper.qotExpires b.sleeper.qotExpires = 0 ∧ a.stamp < b.stamp)

/-- **A stable priority queue**: the traversal is in order, and the first node is sooner than every
other one. -/
structure StableQueue (s : EventTree) : Prop where
  sorted : (inorder s.root).Pairwise Sooner
  first : ∀ f, leftmost s.root = some f → ∀ q ∈ inorder s.root, q = f ∨ Sooner f q

def Queued.rank (q : Queued) : Int := q.sleeper.qotExpires.rank

theorem timepointCmp_eq_zero_iff (t1 t2 : Timepoint) :
    timepointCmp t1 t2 = 0 ↔ t1.rank = t2.rank := by
  rcases timepointCmp_cases t1 t2 with ⟨h, hr⟩ | ⟨h, rfl⟩ | ⟨h, hr⟩ <;> rw [h] <;> constructor <;>
    intro _ <;> omega

theorem sooner_iff (a b : Queued) : Sooner a b ↔ Before Queued.rank Queued.stamp a b := by
  show (_ ∨ (_ ∧ _)) ↔ (_ ∨ (_ ∧ _))
  rw [timepointCmp_pos, timepointCmp_eq_zero_iff]
  exact Iff.rfl

/-- The inductive form: in order, and every node linked before the next. -/
structure EventTree.Ordered (s : EventTree) : Prop where
  sorted : (inorder s.root).Pairwise (Before Queued.rank Queued.stamp)
  young : ∀ q ∈ inorder s.root, q.stamp < s.inserted

variable {s : EventTree}

theorem EventTree.Ordered.ranks (h : s.Ordered) :
    (inorder s.root).Pairwise fun a b => a.rank ≤ b.rank := by
  refine h.sorted.imp fun hab => ?_
  rcases hab with hlt | ⟨heq, -⟩
  · exact hlt.le
  · exact heq.le

theorem EventTree.Ordered.stable (h : s.Ordered) : StableQueue s where
  sorted := h.sorted.imp fun hab => (sooner_iff _ _).mpr hab
  first f hf q hq := by
    rw [leftmost_eq] at hf
    obtain ⟨rest, hrest⟩ := List.head?_eq_some_iff.mp hf
    have hsorted := h.sorted
    rw [hrest] at hq hsorted
    rcases List.mem_cons.mp hq with rfl | hq
    · exact Or.inl rfl
    · exact Or.inr ((sooner_iff _ _).mpr ((List.pairwise_cons.mp hsorted).1 q hq))

theorem EventTree.ordered_empty : EventTree.empty.Ordered where
  sorted := List.Pairwise.nil
  young _ hq := by cases hq

/-! ## What the operations do to the traversal -/

section Traversal

variable (rb : EventRbtree) {s : EventTree}

theorem laterThan_iff (sleeper : TimelineSleeper) (this : Queued) :
    laterThan sleeper this.sleeper = true ↔ sleeper.qotExpires.rank < this.rank := by
  rw [laterThan, decide_eq_true_eq, timepointCmp_neg]
  exact Iff.rfl

/-- The walk of an insertion ends before the first later node. -/
theorem inorder_eventAdd (h : s.Ordered) (sleeper : TimelineSleeper) :
    inorder (s.eventAdd rb sleeper).root
      = insertBefore (fun this => laterThan sleeper this.sleeper) ⟨sleeper, s.inserted⟩
        (inorder s.root) := by
  show inorder (rb.insertColor _) = _
  rw [rb.inorder_insertColor, inorder_link]
  refine h.ranks.imp fun {a b} hab => ?_
  rw [laterThan_iff, laterThan_iff]
  omega

theorem inorder_erase (addr : Nat) :
    inorder (s.erase rb addr).root = (inorder s.root).filter fun q => q.sleeper.addr ≠ addr :=
  rb.inorder_erase addr s.root

theorem inorder_rewrite (addr : Nat) (sleeper : TimelineSleeper) :
    inorder (s.rewrite addr sleeper).root
      = (inorder s.root).map fun q =>
        if q.sleeper.addr = addr then { q with sleeper := sleeper } else q :=
  inorder_map _ _

/-- **Insertion into the tree is insertion into its traversal.** -/
theorem events_eventAdd (h : s.Ordered) (sleeper : TimelineSleeper) :
    (s.eventAdd rb sleeper).events = qotTimelineEventAdd s.events sleeper := by
  unfold EventTree.events
  rw [inorder_eventAdd rb h]
  exact map_insertBefore Queued.sleeper (laterThan sleeper) _ _

theorem events_erase (addr : Nat) : (s.erase rb addr).events = eventErase s.events addr := by
  unfold EventTree.events eventErase
  rw [inorder_erase, List.filter_map]
  rfl

theorem EventTree.Ordered.eventAdd (h : s.Ordered) (sleeper : TimelineSleeper) :
    (s.eventAdd rb sleeper).Ordered where
  sorted := by
    rw [inorder_eventAdd rb h]
    exact pairwise_before_insertBefore (laterThan_iff sleeper) h.sorted h.young
  young q hq := by
    rw [inorder_eventAdd rb h, mem_insertBefore] at hq
    show q.stamp < s.inserted + 1
    rcases hq with rfl | hq
    · exact Nat.lt_succ_self _
    · exact Nat.lt_succ_of_lt (h.young q hq)

theorem EventTree.Ordered.erase (h : s.Ordered) (addr : Nat) : (s.erase rb addr).Ordered where
  sorted := by
    rw [inorder_erase]
    exact h.sorted.sublist List.filter_sublist
  young q hq := by
    rw [inorder_erase] at hq
    exact h.young q (List.mem_of_mem_filter hq)

/-- Rewriting a node keeps the order if its expiry stays. -/
theorem EventTree.Ordered.rewrite (h : s.Ordered) {addr : Nat} {sleeper : TimelineSleeper}
    (hsame : ∀ q ∈ inorder s.root, q.sleeper.addr = addr →
      sleeper.qotExpires = q.sleeper.qotExpires) : (s.rewrite addr sleeper).Ordered := by
  -- neither the rank nor the stamp of any node changes
  have hkeep : ∀ q ∈ inorder s.root,
      Queued.rank (if q.sleeper.addr = addr then { q with sleeper := sleeper } else q) = q.rank
        ∧ Queued.stamp (if q.sleeper.addr = addr then { q with sleeper := sleeper } else q)
          = q.stamp := by
    intro q hq
    split
    · next haddr => exact ⟨congrArg Timepoint.rank (hsame q hq haddr), rfl⟩
    · exact ⟨rfl, rfl⟩
  refine ⟨?_, ?_⟩
  · rw [inorder_rewrite, List.pairwise_map]
    refine h.sorted.imp_of_mem fun {a b} ha hb hab => ?_
    unfold Before
    rw [(hkeep a ha).1, (hkeep a ha).2, (hkeep b hb).1, (hkeep b hb).2]
    exact hab
  · intro q hq
    rw [inorder_rewrite] at hq
    obtain ⟨q₀, hq₀, rfl⟩ := List.mem_map.mp hq
    rw [(hkeep q₀ hq₀).2]
    exact h.young q₀ hq₀

end Traversal

/-! ## Runs -/

/-- Nodes in the tree have different addresses, so that one address is one node. -/
structure EventTree.Inv (s : EventTree) : Prop where
  ordered : s.Ordered
  nodup : (addrs s.events).Nodup

theorem EventTree.Inv.eq_of_addr (h : s.Inv) {q q' : Queued} (hq : q ∈ inorder s.root)
    (hq' : q' ∈ inorder s.root) (haddr : q.sleeper.addr = q'.sleeper.addr) : q = q' := by
  have hnodup : ((inorder s.root).map fun q => q.sleeper.addr).Nodup := by
    have := h.nodup
    rwa [addrs, EventTree.events, List.map_map] at this
  exact List.inj_on_of_nodup_map hnodup hq hq' haddr

namespace EventTree

variable (rb : EventRbtree) {s : EventTree}

theorem Inv.eventAdd (h : s.Inv) {sleeper : TimelineSleeper}
    (hfresh : sleeper.addr ∉ addrs s.events) : (s.eventAdd rb sleeper).Inv where
  ordered := h.ordered.eventAdd rb sleeper
  nodup := by
    rw [events_eventAdd rb h.ordered]
    exact (addrs_eventAdd_perm _ _).nodup_iff.mpr (List.nodup_cons.mpr ⟨hfresh, h.nodup⟩)

theorem Inv.erase (h : s.Inv) (addr : Nat) : (s.erase rb addr).Inv where
  ordered := h.ordered.erase rb addr
  nodup := by
    rw [events_erase]
    exact addrs_nodup_eventErase h.nodup addr

theorem Inv.rewrite (h : s.Inv) {q : Queued} (hq : q ∈ inorder s.root)
    {t : TimelineSleeper} (haddr : t.addr = q.sleeper.addr)
    (hexpires : t.qotExpires = q.sleeper.qotExpires) : (s.rewrite q.sleeper.addr t).Inv where
  ordered := by
    refine h.ordered.rewrite fun q' hq' heq => ?_
    rw [h.eq_of_addr hq' hq heq]
    exact hexpires
  nodup := by
    have hsame : addrs (s.rewrite q.sleeper.addr t).events = addrs s.events := by
      simp only [addrs, EventTree.events, inorder_rewrite, List.map_map]
      refine List.map_congr_left fun q' _ => ?_
      show (if _ then _ else _ : Queued).sleeper.addr = q'.sleeper.addr
      split
      · next heq => exact haddr.trans heq.symm
      · rfl
    rw [hsame]
    exact h.nodup

theorem Inv.wakeup (h : s.Inv) (addr : Nat) (alive : Bool) : (s.wakeup rb addr alive).Inv := by
  unfold EventTree.wakeup
  cases hfind : (inorder s.root).find? fun q => q.sleeper.addr = addr with
  | none => exact h
  | some q =>
    have hq := List.mem_of_find?_eq_some hfind
    obtain rfl : q.sleeper.addr = addr := by simpa using List.find?_some hfind
    simp only
    have hwakes := wakes_qotSleeperWakeup alive q.sleeper
    generalize qotSleeperWakeup alive q.sleeper = o at hwakes ⊢
    cases hwakes with
    | requeued =>
      apply (h.erase rb q.sleeper.addr).eventAdd rb
      -- the address is free between the two
      rw [events_erase]
      intro hmem
      obtain ⟨u, hu, hua⟩ := List.mem_map.mp hmem
      exact (mem_eventErase.mp hu).2 hua
    | released => exact h.erase rb _
    | woken => exact h.rewrite hq rfl rfl
    | passed => exact h.rewrite hq rfl rfl

theorem Inv.step {op : EventOp} {s' : EventTree} (h : s.Inv)
    (hstep : s.step rb op = some s') : s'.Inv := by
  cases op with
  | insert sleeper =>
    simp only [EventTree.step] at hstep
    split at hstep
    · cases hstep
    · next hfresh =>
      cases hstep
      exact h.eventAdd rb hfresh
  | erase addr =>
    cases hstep
    exact h.erase rb addr
  | wakeup addr alive =>
    cases hstep
    exact h.wakeup rb addr alive

end EventTree

/-- **The event tree is a stable priority queue** in every state of every run, whatever the
primitives do to its shape. -/
theorem event_tree_stable (rb : EventRbtree) (ops : List EventOp) :
    Runs.AllStates (EventTree.step rb) StableQueue EventTree.empty ops := by
  have hinit : EventTree.empty.Inv := ⟨EventTree.ordered_empty, List.nodup_nil⟩
  apply Runs.allStates_of_inv (J := EventTree.Inv) ?_ ?_ hinit (Runs.allSteps_true _ ops)
  · intro s h
    exact h.ordered.stable
  · intro s op s' h _ hstep
    exact h.step rb hstep

end Qot
