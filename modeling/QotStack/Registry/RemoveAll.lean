import QotStack.Clock.Registry
import QotStack.Lib.PostorderErase
import QotStack.Registry.Teardown

/-!
# QotStack — removing all timelines and all clocks

When the module is unloaded, `qot_timeline_remove_all` and `qot_clock_remove_all` walk the tree of
the registry in postorder (`rbtree_postorder_for_each_entry_safe`) and take out every node they
meet. The kernel offers this walk for trees whose nodes are freed without being erased. Here
`rb_erase` is called on the tree under the walk, and rebalances it: nodes can get in front of the
one the walk goes on with, and then are never met.

So here the trees have their colours (`RedBlack`). `RemovesEach` is what the two functions are for,
and `remove_all_empties_iff` says when they do it: exactly if no erasure puts a node in front. Four
timelines created in the order of their names already leave one behind.
-/

namespace Qot

open RedBlack RedBlack.Tree

/-! ## The trees -/

def TimelinePriv.name (timeline : TimelinePriv) : CName := timeline.info.name

/-- The tree of the registry, `qot_timeline_root`. -/
abbrev TimelineRoot := RedBlack.Tree TimelinePriv

abbrev ClockRoot := RedBlack.Tree Clk

/-- Insert a timeline, or return an error and leave the tree as it is. -/
def TimelineRoot.qotTimelineInsert (root : TimelineRoot) (timeline : TimelinePriv) : TimelineRoot :=
  (RedBlack.Tree.insert TimelinePriv.name timeline root).getD root

def ClockRoot.qotClockInsert (root : ClockRoot) (clk : Clk) : ClockRoot :=
  (RedBlack.Tree.insert Clk.name clk root).getD root

/-- The registry after these insertions, in this order. -/
def TimelineRoot.ofList (timelines : List TimelinePriv) : TimelineRoot :=
  timelines.foldl TimelineRoot.qotTimelineInsert .nil

def ClockRoot.ofList (clocks : List Clk) : ClockRoot :=
  clocks.foldl ClockRoot.qotClockInsert .nil

/-- The timelines whose devices are unregistered, in this order, and the tree that is left. -/
def TimelineRoot.qotTimelineRemoveAll (root : TimelineRoot) : List TimelinePriv × TimelineRoot :=
  eraseAll root

/-- The clocks that are freed, and the tree that is left. -/
def ClockRoot.qotClockRemoveAll (root : ClockRoot) : List Clk × ClockRoot :=
  eraseAll root

/-- Every entry is removed once, and nothing is left. -/
def RemovesEach {α : Type} (root : RedBlack.Tree α) (outcome : List α × RedBlack.Tree α) : Prop :=
  outcome.1.Perm (inorder root) ∧ outcome.2 = .nil

theorem sound_timelineRoot (timelines : List TimelinePriv) :
    Sound TimelinePriv.name (TimelineRoot.ofList timelines) :=
  (sound_nil _).foldl_insert timelines

theorem sound_clockRoot (clocks : List Clk) : Sound Clk.name (ClockRoot.ofList clocks) :=
  (sound_nil _).foldl_insert clocks

section Entries

variable {α : Type} {root : RedBlack.Tree α}

variable [DecidableEq α] {key : α → CName}

/-- The loop does what it is for exactly if it is not disturbed. -/
theorem removesEach_iff (h : Sound key root) :
    RemovesEach root (eraseAll root) ↔ Undisturbed root := by
  obtain ⟨n, hn⟩ := h.balanced
  rw [← eraseAll_eq_nil_iff hn h.nodup]
  constructor
  · exact And.right
  · intro hnil
    have hperm := eraseAll_perm h.nodup
    rw [hnil] at hperm
    exact ⟨by simpa [inorder] using hperm, hnil⟩

/-- The loop ends: turns beyond the number of entries change nothing. -/
theorem removeAll_ends (h : Sound key root) {turns : Nat} (hturns : (inorder root).length ≤ turns) :
    eraseAllFrom turns root (first root) = eraseAll root :=
  eraseAllFrom_of_le h.nodup (fun _ => first_mem) hturns

end Entries

/-- **Removing all entries empties the registry exactly if it is not disturbed.** For every list of
timelines and of clocks, inserted in this order, every entry is removed once and none is left if and
only if at every turn of the loop the node that was looked up is the first of what `rb_erase`
leaves. -/
theorem remove_all_empties_iff (timelines : List TimelinePriv) (clocks : List Clk) :
    (RemovesEach (TimelineRoot.ofList timelines)
      (TimelineRoot.ofList timelines).qotTimelineRemoveAll
        ↔ Undisturbed (TimelineRoot.ofList timelines))
      ∧ (RemovesEach (ClockRoot.ofList clocks) (ClockRoot.ofList clocks).qotClockRemoveAll
        ↔ Undisturbed (ClockRoot.ofList clocks)) :=
  ⟨removesEach_iff (sound_timelineRoot timelines), removesEach_iff (sound_clockRoot clocks)⟩

def nameB : CName := ⟨[98], by decide, by decide⟩

def nameC : CName := ⟨[99], by decide, by decide⟩

def nameD : CName := ⟨[100], by decide, by decide⟩

/-- Timelines created in the order of their names. -/
def fourTimelines : List TimelinePriv :=
  [⟨0, ⟨nameA, 0, .qotTimelineLocal⟩⟩, ⟨1, ⟨nameB, 1, .qotTimelineLocal⟩⟩,
    ⟨2, ⟨nameC, 2, .qotTimelineLocal⟩⟩, ⟨3, ⟨nameD, 3, .qotTimelineLocal⟩⟩]

/-- **Of four timelines one is left.** When `a` goes, `c` is rotated above `b`, which is then in
front of `d`, the next one. -/
theorem remove_all_leaves_one :
    (TimelineRoot.ofList fourTimelines).qotTimelineRemoveAll.1.map (·.addr) = [0, 3, 2]
      ∧ (TimelineRoot.ofList fourTimelines).qotTimelineRemoveAll.2
        = .node .black .nil ⟨1, ⟨nameB, 1, .qotTimelineLocal⟩⟩ .nil
      ∧ ¬ RemovesEach (TimelineRoot.ofList fourTimelines)
        (TimelineRoot.ofList fourTimelines).qotTimelineRemoveAll := by
  refine ⟨by decide, by decide, fun h => ?_⟩
  have hnil := h.2
  revert hnil
  decide

/-! ## The registry without its shape

`Registry.Teardown` has the registry as a list, and lets the loop meet any part of it. -/

theorem removeRound_registry (s : Timelines) (r : TimelinePriv) :
    (s.removeRound r).registry = (s.rbErase r).registry := by
  cases hmap : s.map r.info.index with
  | none => simp only [Timelines.removeRound, Timelines.qotTimelineChdevUnregister, hmap]
  | some impl =>
    rw [removeRound_of_map hmap]
    show (s.posixClockUnregister r.info.index impl).registry.filter _ = s.registry.filter _
    rw [(posixClockUnregister_registry s r.info.index impl).1]

theorem mem_registry_removeAll (s : Timelines) (reached : List TimelinePriv) (r' : TimelinePriv) :
    r' ∈ (s.qotTimelineRemoveAll reached).registry
      ↔ r' ∈ s.registry ∧ ∀ r ∈ reached, r'.addr ≠ r.addr := by
  induction reached generalizing s with
  | nil => simp [Timelines.qotTimelineRemoveAll]
  | cons r rest ih =>
    show r' ∈ ((s.removeRound r).qotTimelineRemoveAll rest).registry ↔ _
    rw [ih, removeRound_registry, mem_rbErase, List.forall_mem_cons, and_assoc]

/-- The tree decides which part of the registry the loop meets, and what it leaves in the tree is
what stays registered. -/
theorem walk_of_root {s : Timelines} (hs : Settled s) {root : TimelineRoot}
    (hroot : Sound TimelinePriv.name root) (hperm : (inorder root).Perm s.registry) :
    s.Walk root.qotTimelineRemoveAll.1
      ∧ ∀ r, r ∈ (s.qotTimelineRemoveAll root.qotTimelineRemoveAll.1).registry
        ↔ r ∈ inorder root.qotTimelineRemoveAll.2 := by
  have hparts : (root.qotTimelineRemoveAll.1 ++ inorder root.qotTimelineRemoveAll.2).Perm
    s.registry :=
    (eraseAll_perm hroot.nodup).trans hperm
  have hnodup : (root.qotTimelineRemoveAll.1 ++ inorder root.qotTimelineRemoveAll.2).Nodup :=
    (eraseAll_perm hroot.nodup).nodup_iff.mpr hroot.nodup
  obtain ⟨hreached, -, hdisjoint⟩ := List.nodup_append'.mp hnodup
  refine ⟨⟨fun r hr => hparts.subset (List.mem_append_left _ hr), hreached⟩, fun r => ?_⟩
  rw [mem_registry_removeAll, ← hparts.mem_iff, List.mem_append]
  constructor
  · rintro ⟨hmet | hleft, hne⟩
    · exact absurd rfl (hne r hmet)
    · exact hleft
  · intro hleft
    refine ⟨Or.inr hleft, fun r' hr' heq => ?_⟩
    -- two entries at one address are one entry
    have hsame := hs.distinct r (hparts.subset (List.mem_append_right _ hleft)) r'
      (hparts.subset (List.mem_append_left _ hr')) heq
    exact hdisjoint (hsame ▸ hr') hleft

end Qot
