import QotStack.Registry.RemoveAll

/-!
# QotStack — going through all timelines (`qot_timeline.c`)

The scheduler and the user's device go through the timelines with `qot_timeline_first` and
`qot_timeline_next`. The latter is given the information of a timeline and searches the tree for its
name before it goes to the next node. So the walk rests on the order that creations and removals
keep in the tree: `RegistryHolds` says so along every history, and `timeline_iteration` that the
walk meets every registered timeline once, by name.

The rebalancing of the tree is the kernel's, and left open (`Primitives`).
-/

namespace Qot

open OrderedInsert SearchTree

/-! ## The registry -/

/-- The tree of the timelines. -/
structure TimelineRegistry where
  root : BinaryTree TimelinePriv
  /-- The next address. -/
  allocated : Nat

/-- The kernel's rbtree, on trees of timelines. -/
abbrev TimelineRbtree := Primitives TimelinePriv.name

namespace TimelineRegistry

def empty : TimelineRegistry := ⟨.nil, 0⟩

/-- Search for a timeline given by a name. -/
def qotTimelineFind (s : TimelineRegistry) (name : CName) : Option TimelinePriv :=
  SearchTree.find TimelinePriv.name name s.root

/-- Insert a timeline into our data structure. -/
def qotTimelineInsert (rb : TimelineRbtree) (s : TimelineRegistry) (timeline : TimelinePriv) :
    Option TimelineRegistry :=
  (SearchTree.insert TimelinePriv.name timeline s.root).map fun root =>
    { s with root := rb.insertColor root }

def qotTimelineFirst (s : TimelineRegistry) : Option QotTimeline :=
  (leftmost s.root).map (·.info)

/-- Get the next timeline in the set. -/
def qotTimelineNext (s : TimelineRegistry) (timeline : QotTimeline) : Option QotTimeline :=
  match s.qotTimelineFind timeline.name with
  | none => none
  | some timelinePriv => (SearchTree.next TimelinePriv.name timelinePriv.name s.root).map (·.info)

/-- Create a new timeline: the return value, the caller's structure and the registry afterwards. -/
def qotTimelineCreate (rb : TimelineRbtree) (s : TimelineRegistry) (timeline : QotTimeline)
    (svc : CreateServices) : Int × QotTimeline × TimelineRegistry :=
  match s.qotTimelineFind timeline.name with
  | some timelinePriv => (-1, timelinePriv.info, s)
  | none =>
    if svc.kzalloc then
      let timelinePriv : TimelinePriv := ⟨s.allocated, { timeline with index := svc.chdevRegister }⟩
      let s := { s with allocated := s.allocated + 1 }
      if svc.chdevRegister < 0 then (1, timeline, s)
      else
        match s.qotTimelineInsert rb timelinePriv with
        | none => (1, timeline, s)
        | some s => (0, timelinePriv.info, s)
    else (1, timeline, s)

/-- Remove a timeline, where `unregister` is the result for its device. -/
def qotTimelineRemove (rb : TimelineRbtree) (s : TimelineRegistry) (name : CName)
    (unregister : Int) :
    Int × TimelineRegistry :=
  match s.qotTimelineFind name with
  | none => (1, s)
  | some timelinePriv =>
    if unregister ≠ 0 then (1, s)
    else (0, { s with root := rb.erase timelinePriv.name s.root })

/-- The timelines that are returned one after the other, until there is an error. -/
def iterate (s : TimelineRegistry) : Nat → Option QotTimeline
  | 0 => s.qotTimelineFirst
  | k + 1 => (s.iterate k).bind s.qotTimelineNext

end TimelineRegistry

/-! ## Histories -/

inductive TimelineRegistryOp where
  | create (timeline : QotTimeline) (svc : CreateServices)
  | remove (name : CName) (unregister : Int)

/-- The registry, and the timelines that were created with success and not removed since, by
name. -/
structure RegistryHistory where
  registry : TimelineRegistry
  registered : CName → Option QotTimeline

namespace RegistryHistory

def start : RegistryHistory := ⟨TimelineRegistry.empty, fun _ => none⟩

def step (rb : TimelineRbtree) (h : RegistryHistory) : TimelineRegistryOp → RegistryHistory
  | .create timeline svc =>
    let outcome := h.registry.qotTimelineCreate rb timeline svc
    ⟨outcome.2.2,
      if outcome.1 = 0 then Function.update h.registered timeline.name (some outcome.2.1)
      else h.registered⟩
  | .remove name unregister =>
    let outcome := h.registry.qotTimelineRemove rb name unregister
    ⟨outcome.2, if outcome.1 = 0 then Function.update h.registered name none else h.registered⟩

/-- What has come of some creations and removals. -/
def run (rb : TimelineRbtree) (ops : List TimelineRegistryOp) : RegistryHistory :=
  ops.foldl (step rb) start

end RegistryHistory

/-! ## What creations and removals keep -/

/-- The tree is ordered by name, and finds what is registered. -/
structure RegistryHolds (h : RegistryHistory) : Prop where
  ordered : IsSearchTree TimelinePriv.name h.registry.root
  found : ∀ name, (h.registry.qotTimelineFind name).map (·.info) = h.registered name

/-- The outcomes of a creation: an error that changes no node, or one more timeline, under a name
that was free. -/
theorem TimelineRegistry.qotTimelineCreate_cases (rb : TimelineRbtree) (s : TimelineRegistry)
    (timeline : QotTimeline) (svc : CreateServices) :
    ((s.qotTimelineCreate rb timeline svc).1 ≠ 0
        ∧ (s.qotTimelineCreate rb timeline svc).2.2.root = s.root)
      ∨ ∃ (timelinePriv : TimelinePriv) (root : BinaryTree TimelinePriv),
        timelinePriv.name = timeline.name
          ∧ SearchTree.insert TimelinePriv.name timelinePriv s.root = some root
          ∧ s.qotTimelineCreate rb timeline svc
            = (0, timelinePriv.info, ⟨rb.insertColor root, s.allocated + 1⟩) := by
  fun_cases TimelineRegistry.qotTimelineCreate rb s timeline svc with
  | case4 _ _ timelinePriv _ _ _ hins =>
    obtain ⟨root, hroot, rfl⟩ := Option.map_eq_some_iff.mp hins
    exact Or.inr ⟨timelinePriv, root, rfl, hroot, rfl⟩
  | _ => exact Or.inl ⟨by simp, rfl⟩

theorem TimelineRegistry.qotTimelineRemove_cases (rb : TimelineRbtree) (s : TimelineRegistry)
    (name : CName) (unregister : Int) :
    ((s.qotTimelineRemove rb name unregister).1 ≠ 0
      ∧ (s.qotTimelineRemove rb name unregister).2 = s)
      ∨ ∃ timelinePriv, s.qotTimelineFind name = some timelinePriv
        ∧ s.qotTimelineRemove rb name unregister
          = (0, { s with root := rb.erase timelinePriv.name s.root }) := by
  fun_cases TimelineRegistry.qotTimelineRemove rb s name unregister with
  | case3 timelinePriv hfind => exact Or.inr ⟨timelinePriv, hfind, rfl⟩
  | _ => exact Or.inl ⟨by simp, rfl⟩

variable {h : RegistryHistory}

theorem registryHolds_create (hh : RegistryHolds h) (rb : TimelineRbtree) (timeline : QotTimeline)
    (svc : CreateServices) : RegistryHolds (h.step rb (.create timeline svc)) := by
  rcases h.registry.qotTimelineCreate_cases rb timeline svc with
    ⟨hresult, hroot⟩ | ⟨timelinePriv, root, hname, hins, hcreate⟩
  · simp only [RegistryHistory.step, if_neg hresult]
    refine ⟨hroot.symm ▸ hh.ordered, fun name => ?_⟩
    rw [← hh.found name, TimelineRegistry.qotTimelineFind, hroot, TimelineRegistry.qotTimelineFind]
  · simp only [RegistryHistory.step, hcreate, if_true]
    refine ⟨rb.isSearchTree_insert hh.ordered hins, fun name => ?_⟩
    show (SearchTree.find TimelinePriv.name name (rb.insertColor root)).map (·.info)
      = Function.update h.registered timeline.name (some timelinePriv.info) name
    rw [rb.find_insert hh.ordered hins, hname, Function.update_apply]
    split
    · rfl
    · exact hh.found name

theorem registryHolds_remove (hh : RegistryHolds h) (rb : TimelineRbtree) (name : CName)
    (unregister : Int) : RegistryHolds (h.step rb (.remove name unregister)) := by
  rcases h.registry.qotTimelineRemove_cases rb name unregister with
    ⟨hresult, hsame⟩ | ⟨timelinePriv, hfind, hremove⟩
  · simp only [RegistryHistory.step, if_neg hresult, hsame]
    exact hh
  · have hname : timelinePriv.name = name := (find_some hh.ordered hfind).2
    simp only [RegistryHistory.step, hremove, if_true, hname]
    refine ⟨rb.isSearchTree_erase hh.ordered name, fun name' => ?_⟩
    show (SearchTree.find TimelinePriv.name name' (rb.erase name h.registry.root)).map (·.info)
      = Function.update h.registered name none name'
    rw [rb.find_erase hh.ordered, Function.update_apply]
    split
    · rfl
    · exact hh.found name'

theorem registryHolds_run (rb : TimelineRbtree) (ops : List TimelineRegistryOp) :
    RegistryHolds (RegistryHistory.run rb ops) := by
  induction ops using List.reverseRecOn with
  | nil => exact ⟨trivial, fun _ => rfl⟩
  | append_singleton ops op ih =>
    rw [RegistryHistory.run, List.foldl_append]
    cases op with
    | create timeline svc => exact registryHolds_create ih rb timeline svc
    | remove name unregister => exact registryHolds_remove ih rb name unregister

/-- **The insertion into the tree is the insertion by name**, read from left to right: what
`Registry.Teardown` and `Registry.Creation` keep as lists is this tree. -/
theorem TimelineRegistry.inorder_qotTimelineInsert (rb : TimelineRbtree) {s : TimelineRegistry}
    (h : IsSearchTree TimelinePriv.name s.root) (r : TimelinePriv) :
    (s.qotTimelineInsert rb r).map (fun s => inorder s.root) = insertByName (inorder s.root) r := by
  have hfind : (inorder s.root).find? (fun r' => r'.info.name = r.info.name)
      = SearchTree.find TimelinePriv.name r.name s.root := (find_eq h r.name).symm
  unfold insertByName TimelineRegistry.qotTimelineInsert
  rw [hfind]
  cases hins : SearchTree.insert TimelinePriv.name r s.root with
  | none =>
    obtain ⟨v, hv⟩ := insert_eq_none_iff.mp hins
    rw [hv]
    rfl
  | some root =>
    have hfree : SearchTree.find TimelinePriv.name r.name s.root = none := by
      by_contra hne
      have hnone := insert_eq_none_iff.mpr (Option.ne_none_iff_exists'.mp hne)
      cases hins.symm.trans hnone
    rw [hfree, Option.map_some, Option.map_some, rb.inorder_insertColor, inorder_insert h hins]
    refine congrArg some (insertBefore_congr r fun y _ => decide_eq_decide.mpr ?_)
    exact compare_bytes_eq_lt r.info.name.bytes y.info.name.bytes

/-! ## The walk -/

/-- The timelines of the tree, from left to right. -/
def TimelineRegistry.timelines (s : TimelineRegistry) : List QotTimeline :=
  (inorder s.root).map (·.info)

/-- Every step of the walk finds its place again. -/
theorem TimelineRegistry.iterate_eq {s : TimelineRegistry}
    (h : IsSearchTree TimelinePriv.name s.root) (k : Nat) : s.iterate k = s.timelines[k]? := by
  induction k with
  | zero =>
    rw [iterate, qotTimelineFirst, leftmost_eq, timelines, List.head?_eq_getElem?,
      List.getElem?_map]
  | succ k ih =>
    rw [iterate, ih, timelines, List.getElem?_map, List.getElem?_map]
    cases hnode : (inorder s.root)[k]? with
    | none =>
      have hend : (inorder s.root)[k + 1]? = none := by
        rw [List.getElem?_eq_none_iff] at hnode ⊢
        omega
      rw [hend]
      rfl
    | some timelinePriv =>
      have hfind : s.qotTimelineFind timelinePriv.name = some timelinePriv :=
        find_key h (List.mem_of_getElem? hnode)
      have hnext := next_of_getElem? h.key_inj hnode
      show s.qotTimelineNext timelinePriv.info = _
      simp only [qotTimelineNext]
      rw [show timelinePriv.info.name = timelinePriv.name from rfl, hfind]
      simp only [hnext]

theorem TimelineRegistry.mem_timelines_iff (hh : RegistryHolds h) (timeline : QotTimeline) :
    timeline ∈ h.registry.timelines ↔ h.registered timeline.name = some timeline := by
  rw [← hh.found, timelines, List.mem_map, Option.map_eq_some_iff]
  constructor
  · rintro ⟨timelinePriv, hmem, rfl⟩
    exact ⟨timelinePriv, find_key hh.ordered hmem, rfl⟩
  · rintro ⟨timelinePriv, hfind, hinfo⟩
    exact ⟨timelinePriv, (find_some hh.ordered hfind).1, hinfo⟩

/-- After any creations and removals there is a list of the timelines that are registered, strictly
increasing by name, and the `k`-th call of an iteration returns the `k`-th of them: each one once,
and then an error. -/
theorem timeline_iteration (rb : TimelineRbtree) (ops : List TimelineRegistryOp) :
    ∃ timelines : List QotTimeline,
      (∀ timeline, timeline ∈ timelines
        ↔ (RegistryHistory.run rb ops).registered timeline.name = some timeline)
      ∧ timelines.Pairwise (fun t t' => compare t.name t'.name = .lt)
      ∧ timelines.Nodup
      ∧ (∀ k, (RegistryHistory.run rb ops).registry.iterate k = timelines[k]?)
      ∧ (timelines = [] → (RegistryHistory.run rb ops).registry.qotTimelineFirst = none) := by
  have hh := registryHolds_run rb ops
  have hwalk := TimelineRegistry.iterate_eq hh.ordered
  refine ⟨(RegistryHistory.run rb ops).registry.timelines, TimelineRegistry.mem_timelines_iff hh,
    ?_, ?_, hwalk, fun hempty => ?_⟩
  · rw [TimelineRegistry.timelines, List.pairwise_map]
    exact isSearchTree_iff.mp hh.ordered
  · exact List.Nodup.of_map QotTimeline.name (by
      rw [TimelineRegistry.timelines, List.map_map]
      exact hh.ordered.key_inj)
  · have hfirst := hwalk 0
    rwa [hempty] at hfirst

end Qot
