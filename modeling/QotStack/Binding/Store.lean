import QotStack.Lib.Runs
import QotStack.Lib.SearchTree
import QotStack.Binding.Table
import QotStack.Registry.Bind

/-!
# QotStack — four structures for one set of bindings

A timeline keeps every binding in four places: the tree by process id, walked by `find_binding` and
`insert_binding`, and the lists `head_res`, `head_low` and `head_upp`. Joining, leaving, updating
and deleting the timeline write all four, each in its own order. `OneSet` says that they describe
the same set; it is an invariant of the device from its registration to its release.

Here the tree is a tree. Its traversal is the table of `Binding.Table` (`BindingStore.table`), and
each call acts on it as the one there (`qotBindingAdd_table`, `qotBindingDel_table`,
`updateBinding_table`).
-/

namespace Qot

open SearchTree OrderedInsert

/-- The part of `timeline_impl_t` that holds bindings, with the tree as it is linked. -/
structure BindingStore where
  root : BinaryTree BindingImpl
  headRes : List Int32
  headLow : List Int32
  headUpp : List Int32

def BindingStore.empty : BindingStore := ⟨.nil, [], [], []⟩

/-- The kernel's rbtree, on trees of bindings. -/
abbrev Rbtree := Primitives (fun b : BindingImpl => b.pid)

/-! ## Binding management -/

namespace BindingStore

/-- The bindings by process id. -/
def bindings (s : BindingStore) : List BindingImpl := inorder s.root

def findBinding (s : BindingStore) (pid : Int32) : Option BindingImpl :=
  SearchTree.find (·.pid) pid s.root

def insertBinding (rb : Rbtree) (root : BinaryTree BindingImpl) (binding : BindingImpl) :
    Option (BinaryTree BindingImpl) :=
  (SearchTree.insert (·.pid) binding root).map rb.insertColor

def link (s : BindingStore) (pid : Int32) : BindingStore :=
  { s with
    headRes := qotInsertListRes s.bindings pid s.headRes
    headLow := qotInsertListLow s.bindings pid s.headLow
    headUpp := qotInsertListUpp s.bindings pid s.headUpp }

/-- The three `list_del`. -/
def unlink (s : BindingStore) (pid : Int32) : BindingStore :=
  { s with
    headRes := s.headRes.erase pid
    headLow := s.headLow.erase pid
    headUpp := s.headUpp.erase pid }

def qotBindingAdd (rb : Rbtree) (s : BindingStore) (pid : Int32) (info : QotBinding)
    (alloc : Bool) : Option BindingStore :=
  if alloc then
    (insertBinding rb s.root ⟨{ info with id := pid }, pid, none⟩).map fun root =>
      { s with root := root }.link pid
  else none

def qotBindingDel (rb : Rbtree) (s : BindingStore) (pid : Int32) : BindingStore :=
  { s.unlink pid with root := rb.erase pid s.root }

/-- Copy the new data over the binding, take it off the lists and link it again. -/
def updateBinding (s : BindingStore) (pid : Int32) (info : QotBinding) : BindingStore :=
  let rewrite (b : BindingImpl) := if b.pid = pid then { b with info := info } else b
  ({ s with root := s.root.map rewrite }.unlink pid).link pid

/-! ## The calls -/

/-- `TIMELINE_BIND_JOIN`. The binding stays if only the copy back to the caller fails. -/
def timelineBindJoin (rb : Rbtree) (s : BindingStore) (pid : Int32) (msgb : Option QotBinding)
    (alloc copiedBack : Bool) : Int × BindingStore :=
  match msgb with
  | none => (-eacces, s)
  | some info =>
    match s.qotBindingAdd rb pid info alloc with
    | none => (-eacces, s)
    | some s' => (if copiedBack then 0 else -eacces, s')

/-- `TIMELINE_BIND_LEAVE`. -/
def timelineBindLeave (rb : Rbtree) (s : BindingStore) (pid : Int32) (copied : Bool) :
    Int × BindingStore :=
  if copied then
    match s.findBinding pid with
    | none => (-eacces, s)
    | some _ => (0, s.qotBindingDel rb pid)
  else (-eacces, s)

/-- `TIMELINE_BIND_UPDATE`. -/
def timelineBindUpdate (s : BindingStore) (pid : Int32) (msgb : Option QotBinding) :
    Int × BindingStore :=
  match msgb with
  | none => (-eacces, s)
  | some info =>
    match s.findBinding pid with
    | none => (-eacces, s)
    | some _ => (0, s.updateBinding pid info)

/-- The loop of `qot_timeline_chdev_delete`: it walks `head_res` and deletes what it meets. -/
def deleteAll (rb : Rbtree) (s : BindingStore) : BindingStore :=
  s.headRes.foldl (fun s pid => s.qotBindingDel rb pid) s

/-! ## Against the table -/

/-- The same bindings, the tree replaced by its traversal. -/
def table (s : BindingStore) : BindingTable := ⟨s.bindings, s.headRes, s.headLow, s.headUpp⟩

theorem findBinding_table {s : BindingStore} (h : IsSearchTree BindingImpl.pid s.root)
    (pid : Int32) : s.findBinding pid = Qot.findBinding s.table.root pid :=
  find_eq h pid

theorem qotBindingAdd_table (rb : Rbtree) {s : BindingStore}
    (h : IsSearchTree BindingImpl.pid s.root) (pid : Int32) (info : QotBinding) (alloc : Bool) :
    (s.qotBindingAdd rb pid info alloc).map table = Qot.qotBindingAdd s.table pid info alloc := by
  unfold qotBindingAdd Qot.qotBindingAdd Qot.insertBinding insertBinding
  rw [← findBinding_table h]
  cases alloc with
  | false => rfl
  | true =>
    cases hins : SearchTree.insert BindingImpl.pid ⟨{ info with id := pid }, pid, none⟩ s.root with
    | none =>
      obtain ⟨b, hb⟩ := insert_eq_none_iff.mp hins
      have hfind : s.findBinding pid = some b := hb
      simp [hfind]
    | some root' =>
      have hfind : s.findBinding pid = none := by
        refine Option.eq_none_iff_forall_ne_some.mpr fun b hb => ?_
        have hnone : SearchTree.insert BindingImpl.pid ⟨{ info with id := pid }, pid, none⟩ s.root
            = none := insert_eq_none_iff.mpr ⟨b, hb⟩
        rw [hnone] at hins
        cases hins
      have hroot : inorder (rb.insertColor root') = insertBefore (fun this => pid < this.pid)
          ⟨{ info with id := pid }, pid, none⟩ (inorder s.root) := by
        rw [rb.inorder_insertColor, inorder_insert h hins]
        simp only [Std.compare_eq_lt]
      simp only [if_true, Option.map_some, hfind, Option.some.injEq]
      simp only [table, link, BindingTable.link, bindings, hroot]

theorem qotBindingDel_table (rb : Rbtree) (s : BindingStore) (pid : Int32) :
    (s.qotBindingDel rb pid).table = Qot.qotBindingDel s.table pid := by
  unfold table qotBindingDel Qot.qotBindingDel bindings
  rw [rb.inorder_erase]
  rfl

theorem updateBinding_table (s : BindingStore) (pid : Int32) (info : QotBinding) :
    (s.updateBinding pid info).table
      = ({ s.table with
          root := modifyBinding s.table.root pid fun b => { b with info := info } }.unlink
            pid).link pid := by
  unfold updateBinding table link unlink BindingTable.link BindingTable.unlink modifyBinding
    bindings
  simp only [inorder_map]

end BindingStore

/-! ## One set -/

/-- The tree is a search tree with one binding per process, and each list holds exactly the bindings
of the tree, each once. -/
structure OneSet (s : BindingStore) : Prop where
  tree : IsSearchTree BindingImpl.pid s.root
  once : (pids s.bindings).Nodup
  res : s.headRes.Perm (pids s.bindings)
  low : s.headLow.Perm (pids s.bindings)
  upp : s.headUpp.Perm (pids s.bindings)

theorem oneSet_empty : OneSet BindingStore.empty :=
  ⟨trivial, List.nodup_nil, .refl _, .refl _, .refl _⟩

variable {s : BindingStore} {pid : Int32}

theorem OneSet.findBinding_eq_none (h : OneSet s) :
    s.findBinding pid = none ↔ pid ∉ pids s.bindings := by
  rw [BindingStore.findBinding_table h.tree]
  exact Qot.findBinding_eq_none

/-- The walk down the tree meets the binding the process has. -/
theorem OneSet.qotBindingAdd_eq_none (h : OneSet s) (rb : Rbtree) (hbound : pid ∈ pids s.bindings)
    (info : QotBinding) (alloc : Bool) : s.qotBindingAdd rb pid info alloc = none := by
  have htable := BindingStore.qotBindingAdd_table rb h.tree pid info alloc
  obtain ⟨b, hb⟩ : ∃ b, Qot.findBinding s.table.root pid = some b :=
    Option.ne_none_iff_exists'.mp fun hnone => Qot.findBinding_eq_none.mp hnone hbound
  simpa [Qot.qotBindingAdd, Qot.insertBinding, hb] using htable

/-- Linking into lists from which the binding is missing. -/
theorem OneSet.link (htree : IsSearchTree BindingImpl.pid s.root)
    (hres : (pid :: s.headRes).Perm (pids s.bindings))
    (hlow : (pid :: s.headLow).Perm (pids s.bindings))
    (hupp : (pid :: s.headUpp).Perm (pids s.bindings)) : OneSet (s.link pid) where
  tree := htree
  once := htree.key_inj
  res := (insertBefore_perm _ pid _).trans hres
  low := (insertBefore_perm _ pid _).trans hlow
  upp := (insertBefore_perm _ pid _).trans hupp

namespace OneSet
variable (h : OneSet s)
include h

theorem add {s' : BindingStore} (rb : Rbtree) {info : QotBinding}
    {alloc : Bool} (hadd : s.qotBindingAdd rb pid info alloc = some s') : OneSet s' := by
  unfold BindingStore.qotBindingAdd BindingStore.insertBinding at hadd
  cases alloc with
  | false => cases hadd
  | true =>
    simp only [if_true, Option.map_map, Option.map_eq_some_iff] at hadd
    obtain ⟨root', hins, rfl⟩ := hadd
    have hperm : (pid :: pids s.bindings).Perm (pids (inorder (rb.insertColor root'))) := by
      rw [rb.inorder_insertColor, inorder_insert h.tree hins]
      exact (pids_insertBefore_perm _ ⟨{ info with id := pid }, pid, none⟩ s.bindings).symm
    refine OneSet.link ?_ ((h.res.cons pid).trans hperm) ((h.low.cons pid).trans hperm)
      ((h.upp.cons pid).trans hperm)
    refine (h.tree.insert hins).of_sublist ?_
    rw [rb.inorder_insertColor]

theorem del (rb : Rbtree) (pid : Int32) : OneSet (s.qotBindingDel rb pid) := by
  have hbindings : (s.qotBindingDel rb pid).bindings = s.bindings.filter fun b => b.pid ≠ pid :=
    rb.inorder_erase pid s.root
  have hsub : (s.qotBindingDel rb pid).bindings.Sublist s.bindings := by
    rw [hbindings]
    exact List.filter_sublist
  have htree : IsSearchTree BindingImpl.pid (s.qotBindingDel rb pid).root := h.tree.of_sublist hsub
  have herase : ∀ {head : List Int32}, head.Perm (pids s.bindings) →
      (head.erase pid).Perm (pids (s.qotBindingDel rb pid).bindings) := by
    intro head hperm
    have hsame : (fun q : Int32 => decide (q ≠ pid)) = fun q => q != pid := by
      funext q
      by_cases hq : q = pid <;> simp [hq]
    rw [hbindings, pids_filter, (hperm.nodup_iff.mpr h.once).erase_eq_filter, hsame]
    exact hperm.filter _
  exact ⟨htree, htree.key_inj, herase h.res, herase h.low, herase h.upp⟩

theorem update (hbound : pid ∈ pids s.bindings) (info : QotBinding) :
    OneSet (s.updateBinding pid info) := by
  have hkey : ∀ b : BindingImpl, (if b.pid = pid then { b with info := info } else b).pid
      = b.pid := by
    intro b
    split <;> rfl
  -- the process ids do not move
  have hpids : pids (inorder (s.root.map fun b =>
      if b.pid = pid then { b with info := info } else b)) = pids s.bindings := by
    rw [inorder_map]
    simp only [pids, List.map_map, Function.comp_def, hkey]
    rfl
  have hrelink : ∀ {head : List Int32}, head.Perm (pids s.bindings) →
      (pid :: head.erase pid).Perm (pids s.bindings) := fun hperm =>
    (List.perm_cons_erase (hperm.mem_iff.mpr hbound)).symm.trans hperm
  refine OneSet.link (h.tree.map hkey) ?_ ?_ ?_
  · exact (hrelink h.res).trans (.of_eq hpids.symm)
  · exact (hrelink h.low).trans (.of_eq hpids.symm)
  · exact (hrelink h.upp).trans (.of_eq hpids.symm)

theorem join (rb : Rbtree) (pid : Int32) (msgb : Option QotBinding)
    (alloc copiedBack : Bool) : OneSet (s.timelineBindJoin rb pid msgb alloc copiedBack).2 := by
  unfold BindingStore.timelineBindJoin
  cases msgb with
  | none => exact h
  | some info =>
    cases hadd : s.qotBindingAdd rb pid info alloc with
    | none =>
      simp only [hadd]
      exact h
    | some s' =>
      simp only [hadd]
      exact h.add rb hadd

theorem leave (rb : Rbtree) (pid : Int32) (copied : Bool) :
    OneSet (s.timelineBindLeave rb pid copied).2 := by
  unfold BindingStore.timelineBindLeave
  cases copied with
  | false => exact h
  | true =>
    cases s.findBinding pid with
    | none => exact h
    | some b => exact h.del rb pid

theorem bindUpdate (pid : Int32) (msgb : Option QotBinding) :
    OneSet (s.timelineBindUpdate pid msgb).2 := by
  unfold BindingStore.timelineBindUpdate
  cases msgb with
  | none => exact h
  | some info =>
    cases hfind : s.findBinding pid with
    | none => exact h
    | some b =>
      refine h.update ?_ info
      by_contra hunbound
      rw [h.findBinding_eq_none.mpr hunbound] at hfind
      cases hfind

/-- The loop that empties the lists, over the part of `head_res` still ahead. -/
theorem foldl_del (rb : Rbtree) (ahead : List Int32) :
    OneSet (ahead.foldl (fun s pid => s.qotBindingDel rb pid) s) := by
  induction ahead generalizing s with
  | nil => exact h
  | cons pid rest ih => exact ih (h.del rb pid)

end OneSet

theorem foldl_del_bindings (rb : Rbtree) (s : BindingStore) (ahead : List Int32) :
    (ahead.foldl (fun s pid => s.qotBindingDel rb pid) s).bindings
      = s.bindings.filter fun b => b.pid ∉ ahead := by
  induction ahead generalizing s with
  | nil => simp
  | cons pid rest ih =>
    have hdel : (s.qotBindingDel rb pid).bindings = s.bindings.filter fun b => b.pid ≠ pid :=
      rb.inorder_erase pid s.root
    rw [List.foldl_cons, ih, hdel, List.filter_filter]
    congr 1
    funext b
    simp [not_or, Bool.and_comm]

/-- Every binding is on `head_res`, so the walk reaches every binding. -/
theorem OneSet.deleteAll (h : OneSet s) (rb : Rbtree) :
    OneSet (s.deleteAll rb) ∧ (s.deleteAll rb).bindings = [] := by
  refine ⟨h.foldl_del rb _, ?_⟩
  unfold BindingStore.deleteAll
  rw [foldl_del_bindings, List.filter_eq_nil_iff]
  intro b hb
  have hmem : b.pid ∈ s.headRes := h.res.mem_iff.mpr (List.mem_map_of_mem hb)
  simpa using hmem

/-! ## The device, from registration to release -/

/-- `ENODEV`, what the calls on an unregistered clock return. -/
def enodev : Int := 19

/-- A timeline's device: its bindings, its open files, whether its clock has been unregistered (and
its name taken out of the registry), and whether it has been released. -/
structure TimelineDevice where
  store : BindingStore
  files : Nat
  zombie : Bool
  released : Bool

def TimelineDevice.registered : TimelineDevice := ⟨BindingStore.empty, 0, false, false⟩

inductive DeviceOp where
  | openDevice
  | closeDevice
  | join (pid : Int32) (msgb : Option QotBinding) (alloc copiedBack : Bool)
  | update (pid : Int32) (msgb : Option QotBinding)
  | leave (pid : Int32) (copied : Bool)
  /-- `qot_timeline_remove`, by anyone who knows the name -/
  | remove (adminFlag : Bool)

namespace TimelineDevice

def qotTimelineChdevDelete (rb : Rbtree) (d : TimelineDevice) : TimelineDevice :=
  { d with store := d.store.deleteAll rb, released := true }

/-- A call through an open file. -/
def ioctl (d : TimelineDevice) (call : BindingStore → Int × BindingStore) :
    Option (Int × TimelineDevice) :=
  if d.files = 0 then none
  else if d.zombie then some (-enodev, d)
  else some ((call d.store).1, { d with store := (call d.store).2 })

/-- `qot_timeline_chdev_unregister`; the clock is released at once if no file is open. -/
def qotTimelineChdevUnregister (rb : Rbtree) (d : TimelineDevice) (adminFlag : Bool) :
    Int × TimelineDevice :=
  if d.store.bindings.head?.isSome ∧ adminFlag = false then (1, d)
  else if d.files = 0 then (0, { d with zombie := true }.qotTimelineChdevDelete rb)
  else (0, { d with zombie := true })

/-- One operation: what it returns and what it leaves, or `none` if nobody can make it. -/
def call (rb : Rbtree) (d : TimelineDevice) : DeviceOp → Option (Int × TimelineDevice)
  | .openDevice =>
    some (if d.zombie then (-enodev, d) else (0, { d with files := d.files + 1 }))
  | .closeDevice =>
    if d.files = 0 then none
    else if d.zombie = true ∧ d.files = 1 then
      some (0, { d with files := 0 }.qotTimelineChdevDelete rb)
    else some (0, { d with files := d.files - 1 })
  | .join pid msgb alloc copiedBack =>
    d.ioctl fun s => s.timelineBindJoin rb pid msgb alloc copiedBack
  | .update pid msgb => d.ioctl fun s => s.timelineBindUpdate pid msgb
  | .leave pid copied => d.ioctl fun s => s.timelineBindLeave rb pid copied
  | .remove adminFlag =>
    -- the name of an unregistered timeline is not found any more
    some (if d.zombie then (1, d) else d.qotTimelineChdevUnregister rb adminFlag)

def step (rb : Rbtree) (d : TimelineDevice) (op : DeviceOp) : Option TimelineDevice :=
  (d.call rb op).map (·.2)

end TimelineDevice

/-- What a call promises. A join of a process that is bound, a leave or an update of one that is not
return an error and change nothing; and a timeline that is registered can be removed by a
non-administrator exactly when nobody is bound. -/
def BindingContract (rb : Rbtree) (d : TimelineDevice) (op : DeviceOp) : Prop :=
  ∀ r d', d.call rb op = some (r, d') →
    match op with
    | .join pid _ _ _ => pid ∈ pids d.store.bindings → r < 0 ∧ d'.store = d.store
    | .leave pid _ => pid ∉ pids d.store.bindings → r < 0 ∧ d'.store = d.store
    | .update pid _ => pid ∉ pids d.store.bindings → r < 0 ∧ d'.store = d.store
    | .remove false => d.zombie = false → (r = 0 ↔ d.store.bindings = [])
    | _ => True

variable {d d' : TimelineDevice} {f : BindingStore → Int × BindingStore} {r : Int}

/-- A call through a file acts on the bindings, or is refused. -/
theorem ioctl_cases (h : d.ioctl f = some (r, d')) :
    (r = -enodev ∧ d' = d) ∨ (r = (f d.store).1 ∧ d' = { d with store := (f d.store).2 }) := by
  unfold TimelineDevice.ioctl at h
  split at h
  · cases h
  · split at h
    · cases h
      exact Or.inl ⟨rfl, rfl⟩
    · cases h
      exact Or.inr ⟨rfl, rfl⟩

/-- A call that fails on the bindings fails through the file. -/
theorem ioctl_error (h : d.ioctl f = some (r, d')) (hf : f d.store = (-eacces, d.store)) :
    r < 0 ∧ d'.store = d.store := by
  rcases ioctl_cases h with ⟨rfl, rfl⟩ | ⟨rfl, rfl⟩
  · exact ⟨by decide, rfl⟩
  · simp only [hf, and_true]
    decide

theorem OneSet.ioctl (h : OneSet d.store) (hcall : d.ioctl f = some (r, d'))
    (hf : OneSet (f d.store).2) : OneSet d'.store := by
  rcases ioctl_cases hcall with ⟨-, rfl⟩ | ⟨-, rfl⟩
  · exact h
  · exact hf

theorem OneSet.call (rb : Rbtree) (h : OneSet d.store) {op : DeviceOp}
    (hcall : d.call rb op = some (r, d')) : OneSet d'.store := by
  revert hcall
  fun_cases TimelineDevice.call rb d op with
  | case1 => split <;> rintro ⟨⟩ <;> exact h
  | case2 => exact nofun
  | case3 => -- the last file of a zombie is closed
    rintro ⟨⟩
    exact (h.deleteAll rb).1
  | case4 =>
    rintro ⟨⟩
    exact h
  | case5 pid msgb alloc copiedBack =>
    exact fun hcall => h.ioctl hcall (h.join rb pid msgb alloc copiedBack)
  | case6 pid msgb => exact fun hcall => h.ioctl hcall (h.bindUpdate pid msgb)
  | case7 pid copied => exact fun hcall => h.ioctl hcall (h.leave rb pid copied)
  | case8 adminFlag =>
    unfold TimelineDevice.qotTimelineChdevUnregister
    split_ifs <;> rintro ⟨⟩
    · exact h
    · exact h
    · exact (h.deleteAll rb).1
    · exact h

theorem OneSet.contract (rb : Rbtree) (h : OneSet d.store) (op : DeviceOp) :
    BindingContract rb d op := by
  intro r d' hcall
  cases op with
  | openDevice => trivial
  | closeDevice => trivial
  | join pid msgb alloc copiedBack =>
    intro hbound
    simp only [TimelineDevice.call] at hcall
    refine ioctl_error hcall ?_
    unfold BindingStore.timelineBindJoin
    cases msgb with
    | none => rfl
    | some info => simp only [h.qotBindingAdd_eq_none rb hbound info alloc]
  | update pid msgb =>
    intro hunbound
    simp only [TimelineDevice.call] at hcall
    refine ioctl_error hcall ?_
    unfold BindingStore.timelineBindUpdate
    cases msgb with
    | none => rfl
    | some info => simp only [h.findBinding_eq_none.mpr hunbound]
  | leave pid copied =>
    intro hunbound
    simp only [TimelineDevice.call] at hcall
    refine ioctl_error hcall ?_
    unfold BindingStore.timelineBindLeave
    cases copied with
    | false => rfl
    | true => simp only [h.findBinding_eq_none.mpr hunbound, if_true]
  | remove adminFlag =>
    cases adminFlag with
    | true => trivial
    | false =>
      intro hlive
      simp only [TimelineDevice.call, TimelineDevice.qotTimelineChdevUnregister, hlive,
        Option.some.injEq, Bool.false_eq_true, if_false, and_true] at hcall
      cases hbindings : d.store.bindings with
      | nil =>
        -- the removal marks the device, and deletes it unless a file is open
        simp only [hbindings, List.head?_nil, Option.isSome_none, Bool.false_eq_true,
          if_false] at hcall
        split at hcall <;> cases hcall <;> simp
      | cons b rest =>
        simp only [hbindings, List.head?_cons, Option.isSome_some, if_true] at hcall
        cases hcall
        simp

/-- **The four structures describe one set, all along every run of a timeline.** -/
theorem bindings_one_set (rb : Rbtree) (ops : List DeviceOp) :
    Runs.AllStates (TimelineDevice.step rb) (fun d => OneSet d.store) TimelineDevice.registered ops
      ∧ Runs.AllSteps (TimelineDevice.step rb) (BindingContract rb) TimelineDevice.registered
        ops := by
  have hstep : ∀ (d : TimelineDevice) op d', OneSet d.store → True → d.step rb op = some d' →
      OneSet d'.store := by
    intro d op d' h _ hs
    obtain ⟨⟨r, d₁⟩, hcall, rfl⟩ := Option.map_eq_some_iff.mp hs
    exact OneSet.call rb h hcall
  have hall : Runs.AllSteps (TimelineDevice.step rb) (fun _ _ => True) TimelineDevice.registered
    ops :=
    Runs.allSteps_true _ _
  exact ⟨Runs.allStates_of_inv (fun _ h => h) hstep oneSet_empty hall,
    Runs.allSteps_of_inv (fun d op h _ => OneSet.contract rb h op) hstep oneSet_empty hall⟩

end Qot
