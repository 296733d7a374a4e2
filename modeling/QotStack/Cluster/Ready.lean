import QotStack.Cluster.Manager
import QotStack.Lib.Runs

/-!
# QotStack — readiness of a cluster at rest

When no notification is pending, the manager should know exactly the nodes that are alive, and its
flag should tell whether the cluster is ready. Two things stand in the way. That a node has left is
inferred from the number of live writers of messages: it says nothing if as many have come in the
same batch, nor if the name of the node is still alive when the handler looks, or dies with nothing
to tell of it; and a node that leaves and joins again in one batch is listed twice. And the flag is
worked out only after a dispatch, so that `DefineCluster` on its own leaves it as it was.
`ready_at_rest_iff` says that these are all.
-/

namespace Qot

namespace ClusterManager

variable {ν κ : Type} [LinearOrder ν]

/-- The live nodes are listed in order, each once, and the flag is right. -/
structure Right (m : ClusterManager ν κ) : Prop where
  sorted : m.aliveNodes.Pairwise (· < ·)
  mem_iff : ∀ name, name ∈ m.aliveNodes ↔ m.Alive name
  ready_iff : m.readyFlag = true ↔ m.clusterNodes ≠ [] ∧ ∀ name ∈ m.clusterNodes, m.Alive name

/-- There are fewer writers than the second handler has seen. -/
abbrev Departing (m : ClusterManager ν κ) : Prop := m.aliveCount < m.userLeftHandler.prevAliveCount

/-- The second handler runs and notices that nodes have left. -/
abbrev Sees (m : ClusterManager ν κ) : Prop := m.livelinessChanged = true ∧ m.Departing

/-- The condition on a dispatch: if a listed node has left there are fewer writers than before, and
no listed node has joined anew. -/
structure Noticed (m : ClusterManager ν κ) : Prop where
  departing : ∀ name ∈ m.aliveNodes, ¬ m.Alive name → m.Sees
  unlisted : ∀ i ∈ m.newUsers, i.name ∉ m.aliveNodes

/-- The condition on a step. A cluster that is defined at rest is as ready as the one before. A name
that dies leaves a notification behind, or it was not listed yet, nor is any other that has died,
and the cluster is as ready without it. -/
def Settled (m : ClusterManager ν κ) : ManagerOp ν κ → Prop
  | .defineCluster nodes _ _ =>
    ¬ m.Pending → (m.readyFlag = true ↔ nodes ≠ [] ∧ ∀ name ∈ nodes, m.Alive name)
  | .writerUp | .writerDown | .join _ _ => True
  | .leave name => m.Alive name → ¬ (m.left name).Pending →
    (∀ name' ∈ m.aliveNodes, name' ≠ name ∧ m.Alive name')
      ∧ (m.readyFlag = true
        ↔ m.clusterNodes ≠ [] ∧ ∀ name' ∈ m.clusterNodes, name' ≠ name ∧ m.Alive name')
  | .dispatch _ => m.Noticed

/-! ## The reader -/

section Reader

variable {m : ClusterManager ν κ}

omit [LinearOrder ν]

@[simp] theorem read_name (i : NameInstance ν) : i.read.name = i.name := by
  unfold NameInstance.read
  split <;> rfl

@[simp] theorem read_alive (i : NameInstance ν) : i.read.alive = i.alive := by
  unfold NameInstance.read
  split <;> rfl

@[simp] theorem isNew_read (i : NameInstance ν) : i.read.isNew = false := by
  unfold NameInstance.read
  split
  · rfl
  · next h => exact Bool.eq_false_of_not_eq_true h

variable {i : NameInstance ν}

theorem alive_of_isNew (h : i.isNew = true) : i.alive = true :=
  (Bool.and_eq_true_iff.mp h).2

theorem read_of_not_isNew (h : i.isNew = false) : i.read = i := by
  rw [NameInstance.read, h]
  rfl

/-- There is one instance of a name. -/
theorem eq_of_name (hnames : (m.reader.map (·.name)).Nodup) {j : NameInstance ν} (hi : i ∈ m.reader)
    (hj : j ∈ m.reader) (h : i.name = j.name) : i = j :=
  List.inj_on_of_nodup_map hnames hi hj h

end Reader

/-! ## Both handlers -/

section Handlers

variable {m : ClusterManager ν κ}

def newNames (m : ClusterManager ν κ) : List ν := m.newUsers.map (·.name)

def leftNames (m : ClusterManager ν κ) : List ν := m.leftUsers.map (·.name)

/-- The names the second handler leaves. -/
def kept (m : ClusterManager ν κ) (name : ν) : Bool :=
  !(decide m.Sees && decide (name ∈ m.leftNames))

/-- The second handler, if it is triggered. -/
def userLeft (m : ClusterManager ν κ) : ClusterManager ν κ :=
  if m.livelinessChanged then m.userLeftHandle else m

theorem newUserHandle_of_none (h : m.newUsers = []) : m.newUserHandle = m := by
  have hread : m.reader.map (·.read) = m.reader := by
    refine (List.map_congr_left fun i hi => ?_).trans (List.map_id m.reader)
    exact read_of_not_isNew (Bool.eq_false_of_not_eq_true (List.filter_eq_nil_iff.mp h i hi))
  have hcalls : ∀ f : Option κ, callBack f ([] : List (QotNode ν)) = [] := by
    rintro (_ | f) <;> rfl
  rw [newUserHandle, h, hread, List.map_nil, List.map_nil, hcalls, List.append_nil]
  rfl

/-- The instances the second handler leaves in the reader. -/
def keptReader (m : ClusterManager ν κ) : List (NameInstance ν) :=
  m.reader.filter fun i => !decide m.Sees || i.alive

theorem userLeft_spec :
    m.userLeft.reader = m.keptReader ∧ m.userLeft.aliveNodes = m.aliveNodes.filter m.kept := by
  by_cases hsees : m.Sees
  · obtain ⟨hflag, hdeparting⟩ := id hsees
    have hcount : m.aliveCount < m.userLeftHandler.prevAliveCount := hdeparting
    simp only [userLeft, hflag, if_true, userLeftHandle, if_pos hcount]
    refine ⟨by simp [keptReader, hsees], ?_⟩
    rw [SortedRange.eraseAll_eq]
    refine List.filter_congr fun name _ => ?_
    rw [kept, leftNames, decide_eq_true hsees, Bool.true_and, decide_not]
  · have hsame : m.userLeft.reader = m.reader ∧ m.userLeft.aliveNodes = m.aliveNodes := by
      unfold userLeft
      split
      · next hflag =>
        have hcount : ¬ m.aliveCount < m.userLeftHandler.prevAliveCount := fun h => hsees ⟨hflag, h⟩
        rw [userLeftHandle, if_neg hcount]
        exact ⟨rfl, rfl⟩
      · exact ⟨rfl, rfl⟩
    refine ⟨hsame.1.trans ?_, hsame.2.trans ?_⟩
    · simp [keptReader, hsees]
    · exact (List.filter_eq_self.mpr fun name _ => by simp [kept, hsees]).symm

/-- A new instance is alive, and is not taken. -/
theorem newUsers_userLeft : m.userLeft.newUsers = m.newUsers := by
  rw [newUsers, userLeft_spec.1, keptReader, List.filter_filter]
  refine List.filter_congr fun i _ => ?_
  cases hnew : i.isNew with
  | false => rfl
  | true => simp [alive_of_isNew hnew]

/-- Reading changes nothing of who has left. -/
theorem newUserHandle_sees : m.newUserHandle.Sees ↔ m.Sees := Iff.rfl

theorem newUserHandle_leftUsers : m.newUserHandle.leftUsers = m.leftUsers := by
  have hfilter : m.reader.filter ((fun i => !i.alive) ∘ (·.read)) = m.leftUsers :=
    List.filter_congr fun i _ => by simp
  have hreader : m.newUserHandle.reader = m.reader.map (·.read) := rfl
  rw [leftUsers, hreader, List.filter_map, hfilter]
  refine (List.map_congr_left fun i hi => read_of_not_isNew ?_).trans (List.map_id m.leftUsers)
  have hdead : i.alive = false := by simpa using (List.mem_filter.mp hi).2
  exact Bool.eq_false_of_not_eq_true fun hnew => by simp [alive_of_isNew hnew] at hdead

theorem newUserHandle_kept : m.newUserHandle.kept = m.kept := by
  have hleft : m.newUserHandle.leftNames = m.leftNames := by
    rw [leftNames, newUserHandle_leftUsers, ← leftNames]
  funext name
  simp only [kept, newUserHandle_sees, hleft]

theorem newUserHandle_keptReader : m.newUserHandle.keptReader = m.keptReader.map (·.read) := by
  have hreader : m.newUserHandle.reader = m.reader.map (·.read) := rfl
  rw [keptReader, keptReader, hreader, List.filter_map]
  congr 1
  exact List.filter_congr fun i _ => by simp [newUserHandle_sees]

/-- The first handler, if it is not triggered, would have nothing to do. -/
theorem newUserHandle_if_any {m' : ClusterManager ν κ} (h : m'.newUsers = m.newUsers) :
    (if m.reader.any (·.isNew) then m'.newUserHandle else m') = m'.newUserHandle := by
  split
  · rfl
  · next hany =>
    have hnone : m.newUsers = [] := by simpa [newUsers] using hany
    exact (newUserHandle_of_none (h.trans hnone)).symm

theorem handle_eq (leftFirst : Bool) :
    m.handle leftFirst = if leftFirst then m.userLeft.newUserHandle
      else m.newUserHandle.userLeft := by
  unfold handle
  simp only
  rw [newUserHandle_if_any (Eq.refl m.newUsers)]
  cases leftFirst with
  | true => exact newUserHandle_if_any newUsers_userLeft
  | false => rfl

theorem handle_aliveNodes (leftFirst : Bool) :
    (m.handle leftFirst).aliveNodes
      = if leftFirst then SortedRange.insertAll m.newNames (m.aliveNodes.filter m.kept)
        else (SortedRange.insertAll m.newNames m.aliveNodes).filter m.kept := by
  rw [handle_eq]
  cases leftFirst with
  | true =>
    show SortedRange.insertAll m.userLeft.newNames m.userLeft.aliveNodes = _
    rw [newNames, newUsers_userLeft, userLeft_spec.2]
    rfl
  | false =>
    show m.newUserHandle.userLeft.aliveNodes = _
    rw [userLeft_spec.2, newUserHandle_kept]
    rfl

theorem handle_reader (leftFirst : Bool) :
    (m.handle leftFirst).reader = m.keptReader.map (·.read) := by
  rw [handle_eq]
  cases leftFirst with
  | true =>
    show m.userLeft.reader.map (·.read) = _
    rw [userLeft_spec.1]
  | false =>
    show m.newUserHandle.userLeft.reader = _
    rw [userLeft_spec.1, newUserHandle_keptReader]

theorem userLeft_rest :
    m.userLeft.clusterNodes = m.clusterNodes ∧ m.userLeft.livelinessChanged = false := by
  unfold userLeft
  split
  · unfold userLeftHandle
    split <;> exact ⟨rfl, rfl⟩
  · next hflag => exact ⟨rfl, Bool.eq_false_of_not_eq_true hflag⟩

theorem handle_rest (leftFirst : Bool) :
    (m.handle leftFirst).clusterNodes = m.clusterNodes
      ∧ (m.handle leftFirst).livelinessChanged = false := by
  rw [handle_eq]
  cases leftFirst with
  | true => exact userLeft_rest (m := m)
  | false => exact userLeft_rest (m := m.newUserHandle)

end Handlers

/-! ## A dispatch -/

/-- What holds of the reader and the lists, and that the manager is right at rest. -/
structure Inv (m : ClusterManager ν κ) : Prop where
  names : (m.reader.map (·.name)).Nodup
  known : ∀ name ∈ m.aliveNodes, ∃ i ∈ m.reader, i.name = name
  noted : ∀ i ∈ m.reader, i.alive = true → i.name ∈ m.aliveNodes ∨ i.isNew = true
  sorted : m.aliveNodes.Pairwise (· < ·)
  cluster : m.clusterNodes.Pairwise (· < ·)
  rest : ¬ m.Pending → m.Right

theorem inv_init : (init : ClusterManager ν κ).Inv where
  names := List.nodup_nil
  known _ h := nomatch h
  noted _ h := nomatch h
  sorted := List.Pairwise.nil
  cluster := List.Pairwise.nil
  rest _ := ⟨List.Pairwise.nil, fun _ => ⟨(fun h => nomatch h), (fun ⟨_, h, _⟩ => nomatch h)⟩,
    ⟨(fun h => nomatch h), fun h => absurd rfl h.1⟩⟩

section Dispatch

variable {m : ClusterManager ν κ} {name : ν}

omit [LinearOrder ν] in
theorem mem_newNames : name ∈ m.newNames ↔ ∃ i ∈ m.reader, i.name = name ∧ i.isNew = true := by
  simp only [newNames, newUsers, List.mem_map, List.mem_filter]
  exact exists_congr fun i => ⟨fun h => ⟨h.1.1, h.2, h.1.2⟩, fun h => ⟨⟨h.1, h.2.2⟩, h.2.1⟩⟩

omit [LinearOrder ν] in
theorem alive_of_mem_newNames (h : name ∈ m.newNames) : m.Alive name := by
  obtain ⟨i, hi, hname, hnew⟩ := mem_newNames.mp h
  exact ⟨i, hi, hname, alive_of_isNew hnew⟩

omit [LinearOrder ν] in
theorem mem_leftNames : name ∈ m.leftNames ↔ ∃ i ∈ m.reader, i.name = name ∧ i.alive = false := by
  simp only [leftNames, leftUsers, List.mem_map, List.mem_filter, Bool.not_eq_true']
  exact exists_congr fun i => ⟨fun h => ⟨h.1.1, h.2, h.1.2⟩, fun h => ⟨⟨h.1, h.2.2⟩, h.2.1⟩⟩

/-- A name whose node is alive is not among those that have left. -/
theorem kept_of_alive (hm : m.Inv) (h : m.Alive name) : m.kept name = true := by
  obtain ⟨i, hi, rfl, halive⟩ := h
  have hnot : i.name ∉ m.leftNames := fun hleft => by
    obtain ⟨j, hj, hname, hdead⟩ := mem_leftNames.mp hleft
    rw [eq_of_name hm.names hj hi hname, halive] at hdead
    cases hdead
  simp [kept, hnot]

/-- A listed name whose node has left is kept exactly if the departure is not noticed. -/
theorem kept_iff_of_not_alive (hm : m.Inv) (hname : name ∈ m.aliveNodes) (h : ¬ m.Alive name) :
    m.kept name = true ↔ ¬ m.Sees := by
  obtain ⟨i, hi, rfl⟩ := hm.known name hname
  have hdead : i.alive = false := Bool.eq_false_of_not_eq_true fun halive => h ⟨i, hi, rfl, halive⟩
  have hleft : i.name ∈ m.leftNames := mem_leftNames.mpr ⟨i, hi, rfl, hdead⟩
  simp [kept, hleft, imp_iff_not_or]

/-- Who is listed after a dispatch. -/
theorem mem_handle_aliveNodes (hm : m.Inv) (leftFirst : Bool) (name : ν) :
    name ∈ (m.handle leftFirst).aliveNodes
      ↔ m.Alive name ∨ name ∈ m.aliveNodes ∧ ¬ m.Alive name ∧ ¬ m.Sees := by
  have hmem : name ∈ (m.handle leftFirst).aliveNodes
      ↔ name ∈ m.newNames ∨ name ∈ m.aliveNodes ∧ m.kept name = true := by
    rw [handle_aliveNodes]
    cases leftFirst with
    | true => simp only [if_true, SortedRange.mem_insertAll, List.mem_filter]
    | false =>
      simp only [Bool.false_eq_true, if_false, List.mem_filter, SortedRange.mem_insertAll,
        or_and_right]
      refine or_congr_left ⟨And.left, fun h => ⟨h, kept_of_alive hm (alive_of_mem_newNames h)⟩⟩
  rw [hmem]
  constructor
  · rintro (hnew | ⟨hlisted, hkept⟩)
    · exact Or.inl (alive_of_mem_newNames hnew)
    · by_cases halive : m.Alive name
      · exact Or.inl halive
      · exact Or.inr ⟨hlisted, halive, (kept_iff_of_not_alive hm hlisted halive).mp hkept⟩
  · rintro (halive | ⟨hlisted, hdead, hsees⟩)
    · have hkept := kept_of_alive hm halive
      obtain ⟨i, hi, rfl, halive⟩ := halive
      rcases hm.noted i hi halive with hlisted | hnew
      · exact Or.inr ⟨hlisted, hkept⟩
      · exact Or.inl (mem_newNames.mpr ⟨i, hi, rfl, hnew⟩)
    · exact Or.inr ⟨hlisted, (kept_iff_of_not_alive hm hlisted hdead).mpr hsees⟩

/-- The list is in order exactly if no listed node has joined anew. -/
theorem sorted_handle_iff (hm : m.Inv) (leftFirst : Bool) :
    (m.handle leftFirst).aliveNodes.Pairwise (· < ·)
      ↔ ∀ name ∈ m.newNames, name ∉ m.aliveNodes := by
  have hnodup : m.newNames.Nodup := hm.names.sublist (List.Sublist.map _ List.filter_sublist)
  have hkept : ∀ name ∈ m.newNames, m.kept name = true := fun name h =>
    kept_of_alive hm (alive_of_mem_newNames h)
  rw [handle_aliveNodes]
  cases leftFirst with
  | true =>
    simp only [if_true, SortedRange.pairwise_insertAll_iff, List.mem_filter, not_and]
    refine ⟨fun h name hnew hlisted => h.2.2 name hnew hlisted (hkept name hnew), fun h => ?_⟩
    exact ⟨hm.sorted.filter _, hnodup, fun name hnew hlisted => absurd hlisted (h name hnew)⟩
  | false =>
    simp only [Bool.false_eq_true, if_false]
    refine ⟨fun h name hnew hlisted => ?_, fun h => ?_⟩
    · -- it would be in the list twice
      have hperm := (SortedRange.insertAll_perm m.newNames m.aliveNodes).filter m.kept
      have htwice := hperm.nodup_iff.mp (h.imp fun hlt => ne_of_lt hlt)
      rw [List.filter_append] at htwice
      have hmem := List.mem_filter.mpr ⟨hnew, hkept name hnew⟩
      have hmem' := List.mem_filter.mpr ⟨hlisted, hkept name hnew⟩
      exact (List.disjoint_of_nodup_append htwice) hmem hmem'
    · exact (SortedRange.pairwise_insertAll_iff.mpr ⟨hm.sorted, hnodup, h⟩).filter _

/-- A dispatch takes no node that is alive, and brings none back. -/
theorem alive_handle_iff (leftFirst : Bool) (name : ν) :
    (m.handle leftFirst).Alive name ↔ m.Alive name := by
  rw [Alive, handle_reader]
  constructor
  · rintro ⟨j, hj, hname, halive⟩
    obtain ⟨i, hi, rfl⟩ := List.mem_map.mp hj
    exact ⟨i, List.mem_of_mem_filter hi, (read_name i).symm.trans hname,
      (read_alive i).symm.trans halive⟩
  · rintro ⟨i, hi, hname, halive⟩
    refine ⟨i.read, List.mem_map_of_mem (List.mem_filter.mpr ⟨hi, ?_⟩), (read_name i).trans hname,
      (read_alive i).trans halive⟩
    rw [halive, Bool.or_true]

omit [LinearOrder ν] in
theorem not_pending_iff :
    ¬ m.Pending ↔ m.livelinessChanged = false ∧ ∀ i ∈ m.reader, i.isNew = false := by
  simp [Pending]

theorem not_pending_watch (leftFirst : Bool) : ¬ (m.watch leftFirst).Pending := by
  refine not_pending_iff.mpr ⟨(handle_rest leftFirst).2, fun i hi => ?_⟩
  have hreader : i ∈ (m.handle leftFirst).reader := hi
  rw [handle_reader] at hreader
  obtain ⟨j, -, rfl⟩ := List.mem_map.mp hreader
  exact isNew_read j

/-- **After a dispatch the manager is right exactly if the condition was met.** -/
theorem right_watch_iff (hm : m.Inv) (leftFirst : Bool) :
    (m.watch leftFirst).Right ↔ m.Noticed := by
  have hmem := mem_handle_aliveNodes hm leftFirst
  have hsorted := sorted_handle_iff hm leftFirst
  have halive := alive_handle_iff (m := m) leftFirst
  have hnew : (∀ name ∈ m.newNames, name ∉ m.aliveNodes)
      ↔ ∀ i ∈ m.newUsers, i.name ∉ m.aliveNodes :=
    List.forall_mem_map
  constructor
  · rintro ⟨hright, hlisted, -⟩
    refine ⟨fun name hname hdead => not_not.mp fun hsees => hdead ?_, hnew.mp (hsorted.mp hright)⟩
    exact (halive name).mp ((hlisted name).mp ((hmem name).mpr (Or.inr ⟨hname, hdead, hsees⟩)))
  · rintro ⟨hsees, hunlisted⟩
    have hright := hsorted.mpr (hnew.mpr hunlisted)
    have hlisted : ∀ name, name ∈ (m.handle leftFirst).aliveNodes
        ↔ (m.handle leftFirst).Alive name := by
      intro name
      rw [halive, hmem]
      exact ⟨fun h => h.elim id fun h => absurd (hsees name h.1 h.2.1) h.2.2, Or.inl⟩
    refine ⟨hright, hlisted, ?_⟩
    show (m.handle leftFirst).ready = true ↔ (m.handle leftFirst).clusterNodes ≠ []
      ∧ ∀ name ∈ (m.handle leftFirst).clusterNodes, (m.handle leftFirst).Alive name
    have hcluster : (m.handle leftFirst).clusterNodes.Pairwise (· < ·) :=
      (handle_rest (m := m) leftFirst).1 ▸ hm.cluster
    simp only [ready, Bool.and_eq_true, Bool.not_eq_true', List.isEmpty_eq_false_iff, ne_eq,
      SortedRange.includes_iff (hright.imp fun h => le_of_lt h) hcluster, hlisted]
    refine ⟨fun h => ⟨h.1.2, h.1.1⟩, fun h => ⟨⟨h.2, h.1⟩, fun hnil => ?_⟩⟩
    -- a node of the cluster is alive, and listed
    obtain ⟨name, hname⟩ := List.exists_mem_of_ne_nil _ h.1
    have hmem := (hlisted name).mpr (h.2 name hname)
    rw [hnil] at hmem
    cases hmem

theorem inv_watch (hm : m.Inv) {leftFirst : Bool} (hnoticed : m.Noticed) :
    (m.watch leftFirst).Inv := by
  have hright := (right_watch_iff hm leftFirst).mpr hnoticed
  have hreader : (m.watch leftFirst).reader = m.keptReader.map (·.read) := handle_reader leftFirst
  refine ⟨?_, fun name hname => ?_, fun i hi halive => Or.inl ?_, hright.sorted, ?_,
    fun _ => hright⟩
  · have hnames : (m.keptReader.map (·.read)).map (·.name) = m.keptReader.map (·.name) :=
      List.map_map.trans (List.map_congr_left fun i _ => read_name i)
    rw [hreader, hnames]
    exact hm.names.sublist (List.Sublist.map _ List.filter_sublist)
  · obtain ⟨i, hi, hname, -⟩ := (hright.mem_iff name).mp hname
    exact ⟨i, hi, hname⟩
  · exact (hright.mem_iff i.name).mpr ⟨i, hi, rfl, halive⟩
  · exact (handle_rest (m := m) leftFirst).1 ▸ hm.cluster

end Dispatch

/-! ## Runs -/

section Steps

variable {m : ClusterManager ν κ} {nodes : List ν}

theorem mem_insertionSort {name : ν} : name ∈ nodes.insertionSort (· ≤ ·) ↔ name ∈ nodes :=
  (List.perm_insertionSort _ nodes).mem_iff

theorem insertionSort_ne_nil : nodes.insertionSort (· ≤ ·) ≠ [] ↔ nodes ≠ [] := by
  rw [← List.length_pos_iff, List.length_insertionSort, List.length_pos_iff]

/-- `DefineCluster` changes only what the flag is to be compared with. -/
theorem right_defineCluster_iff (hm : m.Right) (nodes : List ν) (callback : Option κ) :
    (m.defineCluster nodes callback).Right
      ↔ (m.readyFlag = true ↔ nodes ≠ [] ∧ ∀ name ∈ nodes, m.Alive name) := by
  have hready : (m.readyFlag = true ↔ nodes.insertionSort (· ≤ ·) ≠ []
      ∧ ∀ name ∈ nodes.insertionSort (· ≤ ·), m.Alive name)
      ↔ (m.readyFlag = true ↔ nodes ≠ [] ∧ ∀ name ∈ nodes, m.Alive name) := by
    simp only [insertionSort_ne_nil, mem_insertionSort]
  exact ⟨fun h => hready.mp h.ready_iff, fun h => ⟨hm.sorted, hm.mem_iff, hready.mpr h⟩⟩

theorem inv_defineCluster (hm : m.Inv) (distinct : nodes.Nodup) {callback : Option κ}
    (h : ¬ m.Pending → (m.readyFlag = true ↔ nodes ≠ [] ∧ ∀ name ∈ nodes, m.Alive name)) :
    (m.defineCluster nodes callback).Inv := by
  have hcluster : (nodes.insertionSort (· ≤ ·)).Pairwise (· < ·) := by
    have hnodup := (List.perm_insertionSort (· ≤ ·) nodes).nodup_iff.mpr distinct
    exact (List.pairwise_insertionSort (· ≤ ·) nodes).imp₂ (fun _ _ => lt_of_le_of_ne) hnodup
  refine ⟨hm.names, hm.known, hm.noted, hm.sorted, hcluster, fun hrest => ?_⟩
  have hrest' : ¬ m.Pending := hrest
  exact (right_defineCluster_iff (hm.rest hrest') nodes callback).mpr (h hrest')

theorem inv_joined (hm : m.Inv) (name : ν) (userID : Int32) : (m.joined name userID).Inv := by
  have hreader : ∀ i, i ∈ (m.joined name userID).reader
      ↔ i ∈ m.reader ∧ i.name ≠ name ∨ i = ⟨name, userID, true, true, true⟩ := by
    intro i
    simp only [joined, List.mem_append, List.mem_filter, decide_eq_true_eq, List.mem_singleton]
  refine ⟨?_, fun name' hname' => ?_, fun i hi halive => ?_, hm.sorted, hm.cluster, fun hrest => ?_⟩
  · rw [joined, List.map_append, List.map_singleton]
    refine List.nodup_append.mpr ⟨hm.names.sublist (List.Sublist.map _ List.filter_sublist),
      List.nodup_singleton name, ?_⟩
    rintro a ha b hb rfl
    obtain ⟨i, hi, hname⟩ := List.mem_map.mp ha
    have hne := (List.mem_filter.mp hi).2
    rw [hname, List.mem_singleton.mp hb] at hne
    simp at hne
  · obtain ⟨i, hi, hname⟩ := hm.known name' hname'
    by_cases heq : i.name = name
    · exact ⟨_, (hreader _).mpr (Or.inr rfl), heq.symm.trans hname⟩
    · exact ⟨i, (hreader i).mpr (Or.inl ⟨hi, heq⟩), hname⟩
  · rcases (hreader i).mp hi with ⟨hold, -⟩ | rfl
    · exact hm.noted i hold halive
    · exact Or.inr rfl
  · have hnew := (not_pending_iff.mp hrest).2 _ ((hreader _).mpr (Or.inr rfl))
    cases hnew

theorem inv_recount (hm : m.Inv) (aliveCount : Nat) : (m.recount aliveCount).Inv :=
  ⟨hm.names, hm.known, hm.noted, hm.sorted, hm.cluster, fun hrest => absurd (Or.inl rfl) hrest⟩

/-- Who is alive when a name has died. -/
theorem alive_left_iff (name name' : ν) :
    (m.left name).Alive name' ↔ name' ≠ name ∧ m.Alive name' := by
  constructor
  · rintro ⟨i, hi, hname, halive⟩
    obtain ⟨j, hj, rfl⟩ := List.mem_map.mp hi
    by_cases heq : j.name = name
    · rw [if_pos heq] at halive
      cases halive
    · rw [if_neg heq] at halive hname
      exact ⟨hname ▸ heq, j, hj, hname, halive⟩
  · rintro ⟨hne, j, hj, rfl, halive⟩
    refine ⟨j, List.mem_map.mpr ⟨j, hj, if_neg hne⟩, rfl, halive⟩

theorem inv_left (hm : m.Inv) {name : ν} (halive : m.Alive name)
    (hleave : m.Settled (.leave name)) : (m.left name).Inv := by
  have hname : ∀ i : NameInstance ν, (if i.name = name then { i with alive := false } else i).name
      = i.name := by
    intro i
    split <;> rfl
  have hnoted : ∀ i ∈ (m.left name).reader, i.alive = true →
      i.name ∈ m.aliveNodes ∨ i.isNew = true := by
    intro i hi halive
    obtain ⟨j, hj, rfl⟩ := List.mem_map.mp hi
    by_cases heq : j.name = name
    · rw [if_pos heq] at halive
      cases halive
    · rw [if_neg heq] at halive ⊢
      exact hm.noted j hj halive
  refine ⟨?_, fun name' hname' => ?_, hnoted, hm.sorted, hm.cluster, fun hrest => ?_⟩
  · have hnames : (m.left name).reader.map (·.name) = m.reader.map (·.name) :=
      List.map_map.trans (List.map_congr_left fun i _ => hname i)
    rw [hnames]
    exact hm.names
  · obtain ⟨i, hi, rfl⟩ := hm.known name' hname'
    exact ⟨_, List.mem_map_of_mem hi, hname i⟩
  · obtain ⟨hlisted, hready⟩ := hleave halive hrest
    refine ⟨hm.sorted,
      fun name' => ⟨fun h => (alive_left_iff name name').mpr (hlisted name' h), ?_⟩, ?_⟩
    · -- what is alive and not new is listed
      rintro ⟨i, hi, rfl, halive⟩
      refine (hnoted i hi halive).resolve_right fun hnew => ?_
      rw [(not_pending_iff.mp hrest).2 i hi] at hnew
      cases hnew
    · simp only [alive_left_iff]
      exact hready

theorem inv_step {m' : ClusterManager ν κ} {op : ManagerOp ν κ} (hm : m.Inv) (hop : m.Settled op)
    (hstep : m.step op = some m') : m'.Inv := by
  revert hstep
  fun_cases step m op with
  | case1 nodes distinct callback => -- defineCluster
    rintro ⟨⟩
    exact inv_defineCluster hm distinct hop
  | case2 | case4 => -- writerUp, writerDown
    rintro ⟨⟩
    exact inv_recount hm _
  | case6 name userID => -- join
    rintro ⟨⟩
    exact inv_joined hm name userID
  | case7 name halive => -- leave
    rintro ⟨⟩
    exact inv_left hm halive hop
  | case9 leftFirst => -- dispatch
    rintro ⟨⟩
    exact inv_watch hm hop
  -- the step is not enabled
  | _ => exact nofun

/-- A step that misses the condition leads to a state at rest that is not right. -/
theorem settled_of_right {op : ManagerOp ν κ} (hm : m.Inv)
    (h : ∀ m', m.step op = some m' → ¬ m'.Pending → m'.Right) : m.Settled op := by
  cases op with
  | defineCluster nodes distinct callback =>
    intro hrest
    have hright := h (m.defineCluster nodes callback) rfl hrest
    exact (right_defineCluster_iff (hm.rest hrest) nodes callback).mp hright
  | writerUp => trivial
  | writerDown => trivial
  | join name userID => trivial
  | leave name =>
    intro halive hrest
    have hright := h (m.left name) (if_pos halive) hrest
    refine ⟨fun name' hname' => (alive_left_iff name name').mp ((hright.mem_iff name').mp hname'),
      ?_⟩
    have hready := hright.ready_iff
    simp only [alive_left_iff] at hready
    exact hready
  | dispatch leftFirst =>
    by_cases hpending : m.Pending
    · have hright := h (m.watch leftFirst) (if_pos hpending) (not_pending_watch leftFirst)
      exact (right_watch_iff hm leftFirst).mp hright
    · -- at rest there is nothing to notice
      have hright := hm.rest hpending
      refine ⟨fun name hname hdead => absurd ((hright.mem_iff name).mp hname) hdead, fun i hi => ?_⟩
      have hnot := (not_pending_iff.mp hpending).2 i (List.mem_of_mem_filter hi)
      exact absurd (List.mem_filter.mp hi).2 (by rw [hnot]; decide)

/-- **The cluster's readiness is right at rest exactly if every departure is noticed, no node joins
anew before it is, and a cluster that is defined at rest is as ready as the one before.** For every
interleaving of `DefineCluster` with writers that come and go and names that are announced and die,
every list of distinct names, and every batch of notifications between two dispatches, with the
handlers in either order: whenever no notification is pending, the live nodes are listed in order,
each once, and the flag is set exactly if the cluster is not empty and all its nodes are alive, if
and only if every step is `Settled`. -/
theorem ready_at_rest_iff (ops : List (ManagerOp ν κ)) :
    Runs.AllStates step (fun m : ClusterManager ν κ => ¬ m.Pending → m.Right) init ops
      ↔ Runs.AllSteps step Settled (init : ClusterManager ν κ) ops :=
  Runs.allStates_iff_allSteps (J := Inv) (fun _ hm => hm.rest)
    (fun _ _ _ hm hop hstep => inv_step hm hop hstep)
    (fun _ _ hm h => settled_of_right hm h) inv_init

end Steps

theorem nodup_one : [1].Nodup := List.nodup_singleton 1

/-- The node 1 comes up: its writer, then its name. -/
def oneJoined : List (ManagerOp Nat Unit) := [.writerUp, .join 1 0, .dispatch true]

/-- The cluster is defined when its only node is there. -/
def definedLate : List (ManagerOp Nat Unit) := oneJoined ++ [.defineCluster [1] nodup_one none]

/-- The node 1 is replaced by the node 2 in one batch. -/
def replaced : List (ManagerOp Nat Unit) :=
  oneJoined ++ [.writerDown, .leave 1, .writerUp, .join 2 0, .dispatch true]

/-- The writer of the node 2 is up when the node 1 leaves; the name follows. -/
def overlapped : List (ManagerOp Nat Unit) :=
  oneJoined ++ [.writerUp, .writerDown, .leave 1, .dispatch true, .join 2 0, .dispatch true]

/-- The writer of the node 1 is down before its name is dead, and is handled in between. -/
def diedLate : List (ManagerOp Nat Unit) := oneJoined ++ [.writerDown, .dispatch true, .leave 1]

/-- **The flag is not set, and a node that has left is listed**, although no notification is
pending. -/
theorem not_ready_at_rest :
    ((Runs.exec step init definedLate).map fun m => (decide m.Pending, m.aliveNodes, m.readyFlag))
        = some (false, [1], false)
      ∧ ((Runs.exec step init replaced).map fun m =>
          (decide m.Pending, m.aliveNodes, decide (m.Alive 1))) = some (false, [1, 2], false)
      ∧ ((Runs.exec step init overlapped).map fun m =>
          (decide m.Pending, m.aliveNodes, decide (m.Alive 1))) = some (false, [1, 2], false)
      ∧ ((Runs.exec step init diedLate).map fun m =>
          (decide m.Pending, m.aliveNodes, decide (m.Alive 1))) = some (false, [1], false)
      ∧ ¬ Runs.AllStates step (fun m : ClusterManager Nat Unit => ¬ m.Pending → m.Right) init
          definedLate := by
  refine ⟨by decide, by decide, by decide, by decide, fun h => ?_⟩
  obtain ⟨m, hm, hrest, hlisted, hflag, hcluster⟩ : ∃ m, Runs.exec step init definedLate = some m
      ∧ ¬ m.Pending ∧ m.aliveNodes = [1] ∧ m.readyFlag = false ∧ m.clusterNodes = [1] :=
    Runs.exists_exec (by decide)
  have hright := h.exec hm hrest
  have halive : m.Alive 1 := (hright.mem_iff 1).mp (hlisted ▸ List.mem_singleton_self 1)
  have hready : m.readyFlag = true := by
    refine hright.ready_iff.mpr ⟨hcluster ▸ List.cons_ne_nil 1 [], fun name hname => ?_⟩
    rw [hcluster, List.mem_singleton] at hname
    exact hname ▸ halive
  exact absurd (hready.symm.trans hflag) (by decide)

end ClusterManager

end Qot
