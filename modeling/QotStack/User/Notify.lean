import QotStack.User.Files

/-!
# QotStack — announcing timelines to connections

A process that has `/dev/qotusr` open is told of every timeline: of those that exist when it opens
the file, and of those that are created later. Opening inserts the connection into the tree and then
queues an event for each registered timeline; creating inserts the timeline into the registry and
then queues an event at each connection in the tree. No lock covers both halves, so that an open and
a creation may overlap: if both have done their first half before either does its second, the
connection is told twice.

`Announcing` is the system of all opens and creations, each in two steps, in any order. A connection
has been told of a timeline, or will be by the open or by the creation under way; these always add
up to the same number (`due`), which is one exactly if no open starts during a creation and no
creation during an open. `announced_once_iff` also covers a connection that was taken out of the
tree because another file compares as equal: it has to be told by its own open.
-/

namespace Qot

open SearchTree OrderedInsert

variable {slab : FileSlab}

/-! ## The system -/

/-- The connections and the timelines, with the opens and the creations that have done their first
step; `given` are all events a connection was ever given. -/
structure Announcing (slab : FileSlab) where
  dev : Chdev slab
  registry : List QotTimeline
  opening : List Nat
  creating : List QotTimeline
  given : Nat → List QotEvent

namespace Announcing

def start : Announcing slab := ⟨Chdev.empty, [], [], [], fun _ => []⟩

/-- The first step of an open. -/
def openInsert (rb : ConRbtree slab) (s : Announcing slab) (f : File slab) : Announcing slab :=
  { s with
    dev := (s.dev.openInsert rb f).2
    opening := s.opening ++ [(s.dev.openInsert rb f).1.addr] }

/-- The second step of an open, for the connection at `addr`. -/
def openEnumerate (s : Announcing slab) (addr : Nat) : Announcing slab :=
  let timelines := s.registry.map fun timeline => (timeline, true)
  let con := (s.dev.heap addr).openEnumerate timelines
  { s with
    dev := { s.dev with heap := Function.update s.dev.heap addr con }
    given := Function.update s.given addr (s.given addr ++ Con.openEvents timelines) }

/-- The first step of a creation. A timeline whose name is taken is not created. -/
def createInsert (s : Announcing slab) (timeline : QotTimeline) : Announcing slab :=
  match qotTimelineInsert s.registry timeline with
  | none => s
  | some registry => { s with registry := registry, creating := s.creating ++ [timeline] }

/-- One turn of `qot_user_timeline_create_notify`. -/
def notifyTurn (timeline : QotTimeline) (timestamp : Nat → Utimepoint) (s : Announcing slab)
    (con : ConNode slab) : Announcing slab :=
  let event : QotEvent := ⟨.qotEventTimelineCreate, timestamp con.addr, timeline.name⟩
  { s with
    dev := { s.dev with
      heap := Function.update s.dev.heap con.addr ((s.dev.heap con.addr).deliver event) }
    given := Function.update s.given con.addr (s.given con.addr ++ [event]) }

/-- The second step of a creation, which reads the core clock for each connection. -/
def createNotify (s : Announcing slab) (timeline : QotTimeline) (timestamp : Nat → Utimepoint) :
    Announcing slab :=
  (inorder s.dev.root).foldl (notifyTurn timeline timestamp) s

end Announcing

inductive AnnounceOp (slab : FileSlab) where
  | openInsert (f : File slab)
  /-- open `k` of those under way goes on -/
  | openEnumerate (k : Nat)
  | createInsert (timeline : QotTimeline)
  /-- creation `k` of those under way goes on -/
  | createNotify (k : Nat) (timestamp : Nat → Utimepoint)

namespace Announcing

def step (rb : ConRbtree slab) (s : Announcing slab) : AnnounceOp slab → Option (Announcing slab)
  | .openInsert f => some (s.openInsert rb f)
  | .openEnumerate k => (s.opening[k]?).map fun addr =>
    { s with opening := s.opening.eraseIdx k }.openEnumerate addr
  | .createInsert timeline => some (s.createInsert timeline)
  | .createNotify k timestamp => (s.creating[k]?).map fun timeline =>
    { s with creating := s.creating.eraseIdx k }.createNotify timeline timestamp

/-! ## What is asked -/

/-- How many of the events tell of the creation of the timeline. -/
def creations (name : CName) (events : List QotEvent) : Nat :=
  events.countP fun event => event.type = .qotEventTimelineCreate ∧ event.data = name

def Finished (s : Announcing slab) : Prop := s.opening = [] ∧ s.creating = []

/-- Every connection was told of every timeline, once. -/
def EachOnce (s : Announcing slab) : Prop :=
  ∀ addr < s.dev.allocated, ∀ timeline ∈ s.registry, creations timeline.name (s.given addr) = 1

/-- The connections the next notification goes to. -/
def listed (s : Announcing slab) : List Nat := (inorder s.dev.root).map (·.addr)

/-- An open starts while no creation is under way, and a creation while the connections in the tree
are those that have been opened. -/
def Separate (s : Announcing slab) : AnnounceOp slab → Prop
  | .openInsert _ => s.creating = []
  | .createInsert timeline => timeline.name ∉ s.registry.map (·.name) →
    ∀ addr < s.dev.allocated, addr ∈ s.listed ↔ addr ∉ s.opening
  | .openEnumerate _ | .createNotify _ _ => True

instance (s : Announcing slab) : DecidablePred (Separate s)
  | .openInsert _ => inferInstanceAs (Decidable (_ = []))
  | .createInsert _ => inferInstanceAs (Decidable (_ → ∀ addr < s.dev.allocated, _))
  | .openEnumerate _ | .createNotify _ _ => isTrue trivial

/-! ## The account -/

/-- The times a connection has been told of a timeline, or will be by what is under way. -/
def due (s : Announcing slab) (addr : Nat) (name : CName) : Nat :=
  creations name (s.given addr) + (if addr ∈ s.opening then 1 else 0)
    + if name ∈ s.creating.map (·.name) ∧ addr ∈ s.listed then 1 else 0

def AllDueOnce (s : Announcing slab) : Prop :=
  ∀ addr < s.dev.allocated, ∀ name ∈ s.registry.map (·.name), s.due addr name = 1

structure Sound (s : Announcing slab) : Prop where
  opening_lt : ∀ addr ∈ s.opening, addr < s.dev.allocated
  opening_nodup : s.opening.Nodup
  listed_lt : ∀ addr ∈ s.listed, addr < s.dev.allocated
  listed_nodup : s.listed.Nodup
  registry_nodup : (s.registry.map (·.name)).Nodup
  creating_mem : ∀ timeline ∈ s.creating, timeline.name ∈ s.registry.map (·.name)
  creating_nodup : (s.creating.map (·.name)).Nodup
  given_lt : ∀ addr, s.dev.allocated ≤ addr → s.given addr = []
  given_mem : ∀ addr, ∀ event ∈ s.given addr, event.data ∈ s.registry.map (·.name)

theorem sound_start : Sound (start : Announcing slab) := by
  constructor <;> simp [start, listed, Chdev.empty, inorder]

theorem creations_append (name : CName) (l l' : List QotEvent) :
    creations name (l ++ l') = creations name l + creations name l' :=
  List.countP_append

theorem creations_openEvents (name : CName) (registry : List QotTimeline) :
    creations name (Con.openEvents (registry.map fun timeline => (timeline, true)))
      = (registry.map (·.name)).count name := by
  induction registry with
  | nil => rfl
  | cons timeline rest ih =>
    rw [List.map_cons, List.map_cons, List.count_cons, ← ih]
    show creations name (_ :: Con.openEvents (rest.map fun timeline => (timeline, true))) = _
    simp [creations, List.countP_cons]

/-- A connection is told of a timeline that is not registered by nobody. -/
theorem Sound.creations_eq_zero {s : Announcing slab} (h : Sound s) {name : CName}
    (hname : name ∉ s.registry.map (·.name)) (addr : Nat) : creations name (s.given addr) = 0 := by
  refine List.countP_eq_zero.mpr fun event hevent => ?_
  have hne : event.data ≠ name := fun heq => hname (heq ▸ h.given_mem addr event hevent)
  simp [hne]

/-! ## Opens -/

section Opens

variable {s : Announcing slab} (rb : ConRbtree slab) (f : File slab)

theorem openInsert_eq :
    (s.openInsert rb f).dev.allocated = s.dev.allocated + 1
      ∧ (s.openInsert rb f).opening = s.opening ++ [s.dev.allocated]
      ∧ s.dev.allocated ∈ (s.openInsert rb f).listed
      ∧ ∃ gone, (gone ++ (s.openInsert rb f).listed).Perm (s.dev.allocated :: s.listed) := by
  obtain ⟨hcon, hroot, hallocated⟩ := s.dev.openInsert_eq rb f
  have hlisted : (s.openInsert rb f).listed
      = (inorder (s.dev.root.conWalk ⟨s.dev.allocated, f⟩).2).map (·.addr) := by
    rw [← inorder_conInsert _ _ rb, ← hroot]
    rfl
  refine ⟨hallocated, ?_, ?_, ?_⟩
  · show s.opening ++ [(s.dev.openInsert rb f).1.addr] = _
    rw [hcon]
  · rw [hlisted]
    exact List.mem_map.mpr ⟨_, mem_conWalk _ _, rfl⟩
  · rw [hlisted]
    refine ⟨(s.dev.root.conWalk ⟨s.dev.allocated, f⟩).1.toList.map (·.addr), ?_⟩
    rw [← List.map_append]
    exact (conWalk_perm ⟨s.dev.allocated, f⟩ s.dev.root).map (·.addr)

theorem Sound.openInsert (h : Sound s) : Sound (s.openInsert rb f) := by
  obtain ⟨hallocated, hopening, -, gone, hlisted⟩ := s.openInsert_eq rb f
  have hsub : ∀ addr ∈ (s.openInsert rb f).listed, addr = s.dev.allocated ∨ addr ∈ s.listed :=
    fun addr haddr => List.mem_cons.mp (hlisted.subset (List.mem_append_right gone haddr))
  have hnew : s.dev.allocated ∉ s.listed := fun hmem => Nat.lt_irrefl _ (h.listed_lt _ hmem)
  refine { h with
    opening_lt := ?_, opening_nodup := ?_, listed_lt := ?_, listed_nodup := ?_, given_lt := ?_ }
  · rw [hopening, hallocated]
    intro addr haddr
    rcases List.mem_append.mp haddr with hold | hnew
    · exact Nat.lt_succ_of_lt (h.opening_lt addr hold)
    · rw [List.mem_singleton.mp hnew]
      exact Nat.lt_succ_self _
  · rw [hopening]
    refine List.Nodup.append h.opening_nodup (List.nodup_singleton _) ?_
    intro addr hold hnew
    rw [List.mem_singleton.mp hnew] at hold
    exact Nat.lt_irrefl _ (h.opening_lt _ hold)
  · rw [hallocated]
    intro addr haddr
    rcases hsub addr haddr with rfl | hold
    · exact Nat.lt_succ_self _
    · exact Nat.lt_succ_of_lt (h.listed_lt addr hold)
  · have hnodup := hlisted.nodup_iff.mpr (List.nodup_cons.mpr ⟨hnew, h.listed_nodup⟩)
    exact hnodup.of_append_right
  · rw [hallocated]
    exact fun addr haddr => h.given_lt addr (Nat.le_of_succ_le haddr)

/-- An open that starts during a creation is told of the timeline by both. -/
theorem due_openInsert_new (h : Sound s) (name : CName) :
    (s.openInsert rb f).due s.dev.allocated name
      = 1 + if name ∈ s.creating.map (·.name) then 1 else 0 := by
  obtain ⟨-, hopening, hlisted, -⟩ := s.openInsert_eq rb f
  have hgiven : (s.openInsert rb f).given s.dev.allocated = [] := h.given_lt _ (Nat.le_refl _)
  have hcreating : (s.openInsert rb f).creating = s.creating := rfl
  simp [due, hgiven, hopening, hlisted, hcreating, creations]

theorem due_openInsert_old (hcreating : s.creating = []) {addr : Nat}
    (haddr : addr < s.dev.allocated)
    (name : CName) : (s.openInsert rb f).due addr name = s.due addr name := by
  obtain ⟨-, hopening, -⟩ := s.openInsert_eq rb f
  have hgiven : (s.openInsert rb f).given = s.given := rfl
  have hcreating' : (s.openInsert rb f).creating = [] := hcreating
  simp [due, hgiven, hopening, hcreating, hcreating', Nat.ne_of_lt haddr]

theorem allDueOnce_openInsert (h : Sound s) :
    (s.openInsert rb f).AllDueOnce ↔ s.AllDueOnce ∧ s.creating = [] := by
  obtain ⟨hallocated, -⟩ := s.openInsert_eq rb f
  constructor
  · intro hdue
    have hcreating : s.creating = [] := by
      refine List.eq_nil_iff_forall_not_mem.mpr fun timeline htimeline => ?_
      have hone := hdue s.dev.allocated (hallocated ▸ Nat.lt_succ_self _) timeline.name
        (h.creating_mem timeline htimeline)
      rw [due_openInsert_new rb f h, if_pos (List.mem_map.mpr ⟨timeline, htimeline, rfl⟩)] at hone
      cases hone
    refine ⟨fun addr haddr name hname => ?_, hcreating⟩
    rw [← due_openInsert_old rb f hcreating haddr]
    exact hdue addr (hallocated ▸ Nat.lt_succ_of_lt haddr) name hname
  · rintro ⟨hdue, hcreating⟩ addr haddr name hname
    rcases Nat.lt_succ_iff_lt_or_eq.mp (hallocated ▸ haddr) with hold | rfl
    · rw [due_openInsert_old rb f hcreating hold]
      exact hdue addr hold name hname
    · rw [due_openInsert_new rb f h, hcreating]
      rfl

theorem mem_iff_of_perm_cons {α : Type} {x y : α} {l l' : List α} (h : (x :: l').Perm l)
    (hnodup : l.Nodup) : y ∈ l' ↔ y ∈ l ∧ y ≠ x := by
  have hx := (List.nodup_cons.mp (h.nodup_iff.mpr hnodup)).1
  rw [← h.mem_iff, List.mem_cons]
  constructor
  · exact fun hy => ⟨Or.inr hy, fun heq => hx (heq ▸ hy)⟩
  · exact fun hy => hy.1.resolve_left hy.2

theorem perm_of_getElem? {α : Type} {l : List α} {k : Nat} {x : α} (h : l[k]? = some x) :
    (x :: l.eraseIdx k).Perm l := by
  obtain ⟨hk, rfl⟩ := List.getElem?_eq_some_iff.mp h
  exact List.getElem_cons_eraseIdx_perm hk

/-- The open goes on: what was due is given. -/
theorem due_openEnumerate (h : Sound s) {k addr : Nat} (hk : s.opening[k]? = some addr)
    (addr' : Nat) {name : CName} (hname : name ∈ s.registry.map (·.name)) :
    ({ s with opening := s.opening.eraseIdx k }.openEnumerate addr).due addr' name
      = s.due addr' name := by
  have hopening := mem_iff_of_perm_cons (y := addr') (perm_of_getElem? hk) h.opening_nodup
  have haddr : addr ∈ s.opening := List.mem_of_getElem? hk
  have hone : (s.registry.map (·.name)).count name = 1 :=
    List.count_eq_one_of_mem h.registry_nodup hname
  unfold due openEnumerate
  simp only [hopening, Function.update_apply]
  by_cases heq : addr' = addr
  · subst heq
    simp only [if_true, creations_append, creations_openEvents, hone, ne_eq, not_true, and_false,
      if_false, haddr]
    rfl
  · simp only [heq, if_false, ne_eq, not_false_eq_true, and_true]
    rfl

theorem Sound.openEnumerate (h : Sound s) {k addr : Nat} (hk : s.opening[k]? = some addr) :
    Sound ({ s with opening := s.opening.eraseIdx k }.openEnumerate addr) := by
  have hperm := perm_of_getElem? hk
  refine { h with opening_lt := ?_, opening_nodup := ?_, given_lt := ?_, given_mem := ?_ }
  · exact fun a ha => h.opening_lt a (hperm.subset (List.mem_cons_of_mem addr ha))
  · exact (List.nodup_cons.mp (hperm.nodup_iff.mpr h.opening_nodup)).2
  · intro a ha
    have hne : a ≠ addr := fun heq =>
      Nat.not_lt.mpr ha (heq ▸ h.opening_lt addr (List.mem_of_getElem? hk))
    exact (Function.update_of_ne hne _ _).trans (h.given_lt a ha)
  · intro a event hevent
    simp only [Announcing.openEnumerate, Function.update_apply] at hevent
    split at hevent
    · rcases List.mem_append.mp hevent with hold | hnew
      · exact h.given_mem addr event hold
      · obtain ⟨entry, hentry, rfl⟩ := List.mem_map.mp hnew
        obtain ⟨timeline, htimeline, rfl⟩ := List.mem_map.mp (List.mem_filter.mp hentry).1
        exact List.mem_map.mpr ⟨timeline, htimeline, rfl⟩
    · exact h.given_mem a event hevent

end Opens

/-! ## Creations -/

section Creations

variable {s : Announcing slab} (timeline : QotTimeline)

theorem qotTimelineInsert_none_iff (registry : List QotTimeline) :
    qotTimelineInsert registry timeline = none ↔ timeline.name ∈ registry.map (·.name) := by
  unfold qotTimelineInsert
  cases hfind : qotTimelineFind registry timeline.name with
  | none =>
    have hnone := List.find?_eq_none.mp hfind
    simpa using hnone
  | some t =>
    simp only [true_iff]
    exact List.mem_map.mpr ⟨t, List.mem_of_find?_eq_some hfind,
      by simpa using List.find?_some hfind⟩

/-- The name is taken, or the timeline joins the registry. -/
theorem createInsert_cases (s : Announcing slab) :
    (timeline.name ∈ s.registry.map (·.name) ∧ s.createInsert timeline = s)
      ∨ (timeline.name ∉ s.registry.map (·.name)
        ∧ ∃ registry, registry.Perm (timeline :: s.registry)
          ∧ s.createInsert timeline
            = { s with registry := registry, creating := s.creating ++ [timeline] }) := by
  unfold createInsert
  cases hins : qotTimelineInsert s.registry timeline with
  | none => exact Or.inl ⟨(qotTimelineInsert_none_iff timeline s.registry).mp hins, rfl⟩
  | some registry =>
    refine Or.inr ⟨fun hmem => ?_, registry, qotTimelineInsert_perm hins, rfl⟩
    cases hins.symm.trans ((qotTimelineInsert_none_iff timeline s.registry).mpr hmem)

theorem Sound.createInsert (h : Sound s) : Sound (s.createInsert timeline) := by
  obtain ⟨-, heq⟩ | ⟨hname, registry, hperm, heq⟩ := createInsert_cases timeline s
  · rw [heq]
    exact h
  · have hnames := hperm.map (·.name)
    have hsub : ∀ name ∈ s.registry.map (·.name), name ∈ registry.map (·.name) :=
      fun name hmem => hnames.symm.subset (List.mem_cons_of_mem _ hmem)
    rw [heq]
    refine { h with
      registry_nodup := ?_, creating_mem := ?_, creating_nodup := ?_, given_mem := ?_ }
    · exact hnames.nodup_iff.mpr (List.nodup_cons.mpr ⟨hname, h.registry_nodup⟩)
    · intro t ht
      rcases List.mem_append.mp ht with hold | hnew
      · exact hsub _ (h.creating_mem t hold)
      · rw [List.mem_singleton.mp hnew]
        exact hnames.symm.subset List.mem_cons_self
    · rw [List.map_append]
      refine List.Nodup.append h.creating_nodup (List.nodup_singleton _) ?_
      intro name hold hnew
      obtain ⟨t, ht, rfl⟩ := List.mem_map.mp hold
      rw [List.map_singleton, List.mem_singleton] at hnew
      exact hname (hnew ▸ h.creating_mem t ht)
    · exact fun addr event hevent => hsub _ (h.given_mem addr event hevent)

/-- A connection is told of a new timeline by its own open, if that is still to come, and by the
creation if it is in the tree. -/
theorem allDueOnce_createInsert (h : Sound s) :
    (s.createInsert timeline).AllDueOnce
      ↔ s.AllDueOnce ∧ (timeline.name ∉ s.registry.map (·.name) →
        ∀ addr < s.dev.allocated, addr ∈ s.listed ↔ addr ∉ s.opening) := by
  obtain ⟨hmem, heq⟩ | ⟨hname, registry, hperm, heq⟩ := createInsert_cases timeline s
  · rw [heq]
    exact ⟨fun hdue => ⟨hdue, fun hnot => absurd hmem hnot⟩, And.left⟩
  · -- the new name is due from an open under way and from the walk that follows
    have hnew : ∀ addr, (s.createInsert timeline).due addr timeline.name
        = (if addr ∈ s.opening then 1 else 0) + if addr ∈ s.listed then 1 else 0 := by
      intro addr
      rw [heq]
      simp [due, h.creations_eq_zero hname, listed]
    have hold : ∀ addr, ∀ name ∈ s.registry.map (·.name),
        (s.createInsert timeline).due addr name = s.due addr name := by
      intro addr name hmem
      have hne : name ≠ timeline.name := fun heq => hname (heq ▸ hmem)
      rw [heq]
      simp [due, hne, listed]
    have hallocated : (s.createInsert timeline).dev.allocated = s.dev.allocated := by rw [heq]
    have hnames : ∀ name, name ∈ (s.createInsert timeline).registry.map (·.name)
        ↔ name = timeline.name ∨ name ∈ s.registry.map (·.name) := by
      intro name
      rw [heq, (hperm.map (·.name)).mem_iff]
      exact List.mem_cons
    unfold AllDueOnce
    simp only [hallocated, hnames]
    constructor
    · intro hdue
      refine ⟨fun addr haddr name hmem => ?_, fun _ addr haddr => ?_⟩
      · rw [← hold addr name hmem]
        exact hdue addr haddr name (Or.inr hmem)
      · have hone := hdue addr haddr timeline.name (Or.inl rfl)
        rw [hnew] at hone
        by_cases hl : addr ∈ s.listed <;> by_cases ho : addr ∈ s.opening <;> simp_all
    · rintro ⟨hdue, hseparate⟩ addr haddr name (rfl | hmem)
      · have hiff := hseparate hname addr haddr
        rw [hnew]
        by_cases ho : addr ∈ s.opening <;> simp [hiff, ho]
      · rw [hold addr name hmem]
        exact hdue addr haddr name hmem

variable (timestamp : Nat → Utimepoint)

/-- The loop tells each connection of the list, as often as it is on it, and changes nothing
else. -/
theorem foldl_notifyTurn (l : List (ConNode slab)) (s : Announcing slab) :
    ∃ heap given, l.foldl (notifyTurn timeline timestamp) s
        = { s with dev := { s.dev with heap := heap }, given := given }
      ∧ (∀ addr name, creations name (given addr) = creations name (s.given addr)
        + if name = timeline.name then (l.map (·.addr)).count addr else 0)
      ∧ (∀ addr, ∀ event ∈ given addr, event ∈ s.given addr ∨ event.data = timeline.name)
      ∧ ∀ addr ∉ l.map (·.addr), given addr = s.given addr := by
  induction l generalizing s with
  | nil => exact ⟨s.dev.heap, s.given, rfl, by simp, fun _ _ h => Or.inl h, fun _ _ => rfl⟩
  | cons con rest ih =>
    obtain ⟨heap, given, hfold, hcount, hmem, hrest⟩ := ih (s.notifyTurn timeline timestamp con)
    refine ⟨heap, given, hfold, fun addr name => ?_, fun addr event hevent => ?_,
      fun addr haddr => ?_⟩
    · rw [hcount addr name]
      by_cases heq : con.addr = addr
      · subst heq
        by_cases hname : name = timeline.name
        · simp [notifyTurn, creations, hname]
          omega
        · simp [notifyTurn, creations, hname, Ne.symm hname]
      · simp [notifyTurn, Function.update_of_ne (Ne.symm heq), heq]
    · refine (hmem addr event hevent).elim (fun hold => ?_) Or.inr
      simp only [notifyTurn, Function.update_apply] at hold
      split at hold
      · next heq =>
        rcases List.mem_append.mp hold with hold | hnew
        · exact Or.inl (heq ▸ hold)
        · exact Or.inr (List.mem_singleton.mp hnew ▸ rfl)
      · exact Or.inl hold
    · rw [List.map_cons, List.mem_cons, not_or] at haddr
      rw [hrest addr haddr.2]
      exact Function.update_of_ne haddr.1 _ _

variable {timeline}

theorem createNotify_eq {k : Nat} (hk : s.creating[k]? = some timeline) (h : Sound s) :
    ∃ heap given, { s with creating := s.creating.eraseIdx k }.createNotify timeline timestamp
        = { s with
          dev := { s.dev with heap := heap }
          creating := s.creating.eraseIdx k
          given := given }
      ∧ (∀ addr name, creations name (given addr) = creations name (s.given addr)
        + if name = timeline.name ∧ addr ∈ s.listed then 1 else 0)
      ∧ (∀ addr, ∀ event ∈ given addr, event.data ∈ s.registry.map (·.name))
      ∧ ∀ addr, s.dev.allocated ≤ addr → given addr = [] := by
  obtain ⟨heap, given, hfold, hcount, hmem, hrest⟩ := foldl_notifyTurn timeline timestamp
    (inorder s.dev.root) { s with creating := s.creating.eraseIdx k }
  refine ⟨heap, given, hfold, fun addr name => ?_, fun addr event hevent => ?_,
    fun addr haddr => ?_⟩
  · rw [hcount addr name]
    show _ = _ + _
    congr 1
    have hone : s.listed.count addr = if addr ∈ s.listed then 1 else 0 := h.listed_nodup.count
    by_cases hname : name = timeline.name
    · simp only [hname, true_and, if_true]
      exact hone
    · simp [hname]
  · rcases hmem addr event hevent with hold | hnew
    · exact h.given_mem addr event hold
    · rw [hnew]
      exact h.creating_mem timeline (List.mem_of_getElem? hk)
  · rw [hrest addr fun hin => Nat.not_lt.mpr haddr (h.listed_lt addr hin)]
    exact h.given_lt addr haddr

/-- The creation goes on: what was due is given. -/
theorem due_createNotify (h : Sound s) {k : Nat} (hk : s.creating[k]? = some timeline) (addr : Nat)
    (name : CName) :
    ({ s with creating := s.creating.eraseIdx k }.createNotify timeline timestamp).due addr name
      = s.due addr name := by
  obtain ⟨heap, given, heq, hcount, -⟩ := createNotify_eq timestamp hk h
  have hnames := (perm_of_getElem? hk).map (·.name)
  have hcreating := mem_iff_of_perm_cons (y := name) hnames h.creating_nodup
  have htimeline : timeline.name ∈ s.creating.map (·.name) :=
    List.mem_map.mpr ⟨timeline, List.mem_of_getElem? hk, rfl⟩
  rw [heq]
  unfold due
  simp only [hcount, hcreating]
  show _ + _ + _ + (if _ ∧ addr ∈ s.listed then 1 else 0) = _
  by_cases hname : name = timeline.name
  · subst hname
    simp [htimeline]
    omega
  · simp [hname]

theorem Sound.createNotify (h : Sound s) {k : Nat} (hk : s.creating[k]? = some timeline) :
    Sound ({ s with creating := s.creating.eraseIdx k }.createNotify timeline timestamp) := by
  obtain ⟨heap, given, heq, -, hmem, hlt⟩ := createNotify_eq timestamp hk h
  have hperm := perm_of_getElem? hk
  rw [heq]
  exact { h with
    creating_mem := fun t ht =>
      h.creating_mem t (hperm.subset (List.mem_cons_of_mem timeline ht))
    creating_nodup :=
      (List.nodup_cons.mp ((hperm.map (·.name)).nodup_iff.mpr h.creating_nodup)).2
    given_lt := hlt
    given_mem := hmem }

end Creations

/-! ## Runs -/

section Runs

variable (rb : ConRbtree slab) {s s' : Announcing slab}

theorem Sound.step (h : Sound s) {op : AnnounceOp slab} (hstep : s.step rb op = some s') :
    Sound s' := by
  cases op with
  | openInsert f =>
    cases hstep
    exact h.openInsert rb f
  | openEnumerate k =>
    obtain ⟨addr, hk, rfl⟩ := Option.map_eq_some_iff.mp hstep
    exact h.openEnumerate hk
  | createInsert timeline =>
    cases hstep
    exact h.createInsert timeline
  | createNotify k timestamp =>
    obtain ⟨timeline, hk, rfl⟩ := Option.map_eq_some_iff.mp hstep
    exact h.createNotify timestamp hk

/-- The first steps decide, and the second ones change nothing. -/
theorem allDueOnce_step (h : Sound s) {op : AnnounceOp slab} (hstep : s.step rb op = some s') :
    s'.AllDueOnce ↔ s.AllDueOnce ∧ s.Separate op := by
  cases op with
  | openInsert f =>
    cases hstep
    exact allDueOnce_openInsert rb f h
  | openEnumerate k =>
    obtain ⟨addr, hk, rfl⟩ := Option.map_eq_some_iff.mp hstep
    refine Iff.trans ?_ (iff_of_eq (and_true _)).symm
    refine forall₂_congr fun addr' _ => forall₂_congr fun name hname => ?_
    rw [due_openEnumerate h hk addr' hname]
  | createInsert timeline =>
    cases hstep
    exact allDueOnce_createInsert timeline h
  | createNotify k timestamp =>
    obtain ⟨timeline, hk, rfl⟩ := Option.map_eq_some_iff.mp hstep
    obtain ⟨heap, given, heq, -⟩ := createNotify_eq timestamp hk h
    have hdue := due_createNotify timestamp h hk
    refine Iff.trans ?_ (iff_of_eq (and_true _)).symm
    unfold AllDueOnce
    simp only [hdue]
    rw [heq]

/-- When all is done, what was due has been given. -/
theorem eachOnce_iff_allDueOnce (hfinished : s.Finished) : s.EachOnce ↔ s.AllDueOnce := by
  obtain ⟨hopening, hcreating⟩ := hfinished
  simp [EachOnce, AllDueOnce, due, hopening, hcreating]

/-- **Every connection is told of every timeline once exactly if opens and creations keep apart.**
For every interleaving of opens and creations that has finished: each connection was given one
creation event for each registered timeline if and only if no open started during a creation, and at
the start of each creation the connections in the tree were those whose open was complete. -/
theorem announced_once_iff (ops : List (AnnounceOp slab))
    (hrun : Runs.exec (step rb) start ops = some s') (hfinished : s'.Finished) :
    s'.EachOnce ↔ Runs.AllSteps (step rb) Separate start ops := by
  have hstart : (start : Announcing slab).AllDueOnce := fun _ _ _ hname => nomatch hname
  rw [eachOnce_iff_allDueOnce hfinished,
    Runs.exec_iff_allSteps (fun _ _ _ h hstep => h.step rb hstep)
      (fun _ _ _ h hstep => allDueOnce_step rb h hstep) sound_start hrun]
  exact ⟨And.right, fun hsteps => ⟨hstart, hsteps⟩⟩

end Runs

/-- An open, and then a creation. -/
def apartOps : List (AnnounceOp Tracked.slab256) :=
  [.openInsert Tracked.fileLow, .openEnumerate 0, .createInsert ConHistory.timelineA,
    .createNotify 0 fun _ => Utimepoint.zero]

/-- Both do their first step before either does its second. -/
def overlappingOps : List (AnnounceOp Tracked.slab256) :=
  [.openInsert Tracked.fileLow, .createInsert ConHistory.timelineA, .openEnumerate 0,
    .createNotify 0 fun _ => Utimepoint.zero]

theorem announced_once_apart :
    ∃ s', Runs.exec (step (Primitives.plain ConNode.addr)) start apartOps = some s' ∧ s'.Finished
      ∧ s'.EachOnce :=
  ⟨_, rfl, ⟨rfl, rfl⟩, (announced_once_iff _ apartOps rfl ⟨rfl, rfl⟩).mpr (by decide)⟩

/-- **A connection is told twice of a timeline that is created while its file is opened.** -/
theorem announced_twice :
    ∃ s', Runs.exec (step (Primitives.plain ConNode.addr)) start overlappingOps = some s'
      ∧ s'.Finished ∧ creations nameA (s'.given 0) = 2 ∧ ¬ s'.EachOnce := by
  refine ⟨_, rfl, ⟨rfl, rfl⟩, by decide, fun honce => ?_⟩
  have hone := honce 0 (by decide) ConHistory.timelineA (by decide)
  revert hone
  decide

end Announcing

end Qot
