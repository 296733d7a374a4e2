import QotStack.Lib.OrderedInsert
import QotStack.Types.Uncertain

/-!
# QotStack — the bindings of a timeline (`qot_timeline_chdev.c`)

A process that joins a timeline leaves a binding there, with the quality of time it demands. The
kernel keeps the bindings of a timeline in a tree keyed by process id, and threads each of them on
three lists from whose heads `TIMELINE_GET_BINDING_INFO` reads the tightest demand.

The tree is modelled by its in-order traversal, a list entry by the process id of the binding it
points to: an update rewrites the binding in place, and every list sees the new demand.
-/

namespace Qot

open OrderedInsert

/-- A (min, max) accuracy and a tick resolution. -/
structure Timequality where
  resolution : Timelength
  accuracy : Timeinterval
  deriving DecidableEq, Repr

/-- What a process asks of a timeline (`qot_binding_t`, without the fields no code here reads). -/
structure QotBinding where
  demand : Timequality
  id : Int32
  deriving DecidableEq, Repr

/-- A binding. `timer` is the address of the sleeper of its periodic timer. -/
structure BindingImpl where
  info : QotBinding
  pid : Int32
  timer : Option Nat
  deriving DecidableEq, Repr

/-- The part of `timeline_impl_t` that holds bindings. -/
structure BindingTable where
  root : List BindingImpl
  headRes : List Int32
  headLow : List Int32
  headUpp : List Int32
  deriving DecidableEq, Repr

def BindingTable.empty : BindingTable := ⟨[], [], [], []⟩

/-! ## The tree -/

def findBinding (root : List BindingImpl) (pid : Int32) : Option BindingImpl :=
  root.find? fun b => b.pid = pid

def insertBinding (root : List BindingImpl) (binding : BindingImpl) : Option (List BindingImpl) :=
  match findBinding root binding.pid with
  | some _ => none
  | none => some (insertBefore (fun this => binding.pid < this.pid) binding root)

/-- The demand a list entry points to. -/
def demandOf (root : List BindingImpl) (pid : Int32) : Timequality :=
  match findBinding root pid with
  | some b => b.info.demand
  | none => ⟨⟨0, 0⟩, ⟨⟨0, 0⟩, ⟨0, 0⟩⟩⟩

/-! ## The lists -/

/-- Link a binding before the first entry whose key *differs* from its own. -/
def insertList (key : Timequality → Timelength) (root : List BindingImpl) (pid : Int32)
    (head : List Int32) : List Int32 :=
  insertBefore
    (fun p => timelengthCmp (key (demandOf root p)) (key (demandOf root pid)) ≠ 0) pid head

def qotInsertListRes : List BindingImpl → Int32 → List Int32 → List Int32 :=
  insertList fun d => d.resolution

/-- Insert a binding into the accuracy lower list, which is keyed by the *upper* accuracy. -/
def qotInsertListLow : List BindingImpl → Int32 → List Int32 → List Int32 :=
  insertList fun d => d.accuracy.above

/-- Insert a binding into the accuracy upper list, which is keyed by the *lower* accuracy. -/
def qotInsertListUpp : List BindingImpl → Int32 → List Int32 → List Int32 :=
  insertList fun d => d.accuracy.below

def BindingTable.link (tl : BindingTable) (pid : Int32) : BindingTable :=
  { tl with
    headRes := qotInsertListRes tl.root pid tl.headRes
    headLow := qotInsertListLow tl.root pid tl.headLow
    headUpp := qotInsertListUpp tl.root pid tl.headUpp }

def BindingTable.unlink (tl : BindingTable) (pid : Int32) : BindingTable :=
  { tl with
    headRes := tl.headRes.erase pid
    headLow := tl.headLow.erase pid
    headUpp := tl.headUpp.erase pid }

/-! ## The calls

Each returns `none` where the code returns `-EACCES`. -/

def qotBindingAdd (tl : BindingTable) (pid : Int32) (info : QotBinding) (alloc : Bool) :
    Option BindingTable :=
  if alloc then
    (insertBinding tl.root ⟨{ info with id := pid }, pid, none⟩).map fun root =>
      { tl with root := root }.link pid
  else none

def qotBindingDel (tl : BindingTable) (pid : Int32) : BindingTable :=
  { tl.unlink pid with root := tl.root.filter fun b => b.pid ≠ pid }

def modifyBinding (root : List BindingImpl) (pid : Int32) (f : BindingImpl → BindingImpl) :
    List BindingImpl :=
  root.map fun b => if b.pid = pid then f b else b

/-- `TIMELINE_BIND_JOIN`; `msgb` is what `copy_from_user` delivers. -/
def timelineBindJoin (tl : BindingTable) (pid : Int32) (msgb : Option QotBinding) (alloc : Bool) :
    Option BindingTable :=
  msgb.bind fun info => qotBindingAdd tl pid info alloc

/-- `TIMELINE_BIND_LEAVE`; the copied binding is not used, the copy may still fault. -/
def timelineBindLeave (tl : BindingTable) (pid : Int32) (copied : Bool) : Option BindingTable :=
  if copied then (findBinding tl.root pid).map fun _ => qotBindingDel tl pid else none

/-- `TIMELINE_BIND_UPDATE`: overwrite the binding, then delete and add to resort the lists. -/
def timelineBindUpdate (tl : BindingTable) (pid : Int32) (msgb : Option QotBinding) :
    Option BindingTable :=
  msgb.bind fun info => (findBinding tl.root pid).map fun _ =>
    ({ tl with root := modifyBinding tl.root pid fun b => { b with info := info } }.unlink pid).link
      pid

/-- `TIMELINE_GET_BINDING_INFO`: the first entry of each list. With no binding the code reads
through the list heads themselves. -/
def timelineGetBindingInfo (tl : BindingTable) : Option Timequality :=
  match tl.headRes, tl.headLow, tl.headUpp with
  | res :: _, low :: _, upp :: _ =>
    some ⟨(demandOf tl.root res).resolution,
      ⟨(demandOf tl.root low).accuracy.below, (demandOf tl.root upp).accuracy.above⟩⟩
  | _, _, _ => none

/-! ## Reading the tree -/

def pids (root : List BindingImpl) : List Int32 := root.map (·.pid)

variable {root : List BindingImpl} {pid q : Int32} {b : BindingImpl} {f : BindingImpl → BindingImpl}

theorem findBinding_eq_none : findBinding root pid = none ↔ pid ∉ pids root := by
  simp [findBinding, pids, List.find?_eq_none]

theorem findBinding_of_mem (hnodup : (pids root).Nodup) (hb : b ∈ root) :
    findBinding root b.pid = some b := by
  induction root with
  | nil => simp at hb
  | cons a root ih =>
    simp only [pids, List.map_cons, List.nodup_cons] at hnodup
    rcases List.mem_cons.mp hb with rfl | hb
    · simp [findBinding]
    · -- the head has another pid, so the search goes on
      have hne : a.pid ≠ b.pid := fun h => hnodup.1 (h ▸ List.mem_map_of_mem hb)
      have htail : findBinding root b.pid = some b := ih hnodup.2 hb
      simpa [findBinding, hne] using htail

theorem demandOf_of_mem (hnodup : (pids root).Nodup) (hb : b ∈ root) :
    demandOf root b.pid = b.info.demand := by
  simp [demandOf, findBinding_of_mem hnodup hb]

theorem findBinding_filter (h : q ≠ pid) :
    findBinding (root.filter fun b => b.pid ≠ pid) q = findBinding root q := by
  induction root with
  | nil => rfl
  | cons a root ih =>
    simp only [findBinding] at ih ⊢
    by_cases ha : a.pid = pid
    · have hq : a.pid ≠ q := fun h' => h (h'.symm.trans ha)
      simp only [ha, ne_eq, not_true_eq_false, decide_false, Bool.false_eq_true,
        not_false_eq_true, List.filter_cons_of_neg]
      rw [ih, List.find?_cons_of_neg (by simpa using hq)]
    · rw [List.filter_cons_of_pos (by simpa using ha), List.find?_cons, List.find?_cons, ih]

theorem demandOf_filter (h : q ≠ pid) :
    demandOf (root.filter fun b => b.pid ≠ pid) q = demandOf root q := by
  unfold demandOf
  rw [findBinding_filter h]

theorem findBinding_modifyBinding (hf : ∀ b, (f b).pid = b.pid) :
    findBinding (modifyBinding root pid f) q
      = (findBinding root q).map fun b => if b.pid = pid then f b else b := by
  have hkey : ∀ b : BindingImpl, (if b.pid = pid then f b else b).pid = b.pid := by
    intro b
    split
    · exact hf b
    · rfl
  simp only [findBinding, modifyBinding, List.find?_map, Function.comp_def, hkey]

theorem pids_modifyBinding (hf : ∀ b, (f b).pid = b.pid) :
    pids (modifyBinding root pid f) = pids root := by
  induction root with
  | nil => rfl
  | cons a root ih =>
    simp only [pids, modifyBinding, List.map_cons, List.map_map] at ih ⊢
    rw [ih]
    split
    · rw [hf a]
    · rfl

theorem insertBinding_cases {root' : List BindingImpl} (h : insertBinding root b = some root') :
    b.pid ∉ pids root ∧ root' = insertBefore (fun this => b.pid < this.pid) b root := by
  simp only [insertBinding] at h
  cases hfind : findBinding root b.pid with
  | some b' => simp [hfind] at h
  | none =>
    simp only [hfind, Option.some.injEq] at h
    exact ⟨findBinding_eq_none.mp hfind, h.symm⟩

theorem demandOf_insertBefore {stop : BindingImpl → Bool} (h : q ≠ b.pid)
    (root : List BindingImpl) : demandOf (insertBefore stop b root) q = demandOf root q := by
  have hfind : findBinding (insertBefore stop b root) q = findBinding root q :=
    find?_insertBefore stop b (by simpa using Ne.symm h) root
  simp [demandOf, hfind]

theorem demandOf_modifyBinding (hf : ∀ b, (f b).pid = b.pid) (h : q ≠ pid) :
    demandOf (modifyBinding root pid f) q = demandOf root q := by
  unfold demandOf
  rw [findBinding_modifyBinding hf]
  cases hfind : findBinding root q with
  | none => rfl
  | some b =>
    have hb : b.pid = q := by simpa using List.find?_some hfind
    simp [hb, h]

theorem pids_insertBefore_perm (stop : BindingImpl → Bool) (b : BindingImpl)
    (root : List BindingImpl) : (pids (insertBefore stop b root)).Perm (b.pid :: pids root) :=
  (insertBefore_perm stop b root).map _

theorem pids_filter (root : List BindingImpl) (pid : Int32) :
    pids (root.filter fun b => b.pid ≠ pid) = (pids root).filter fun q => q ≠ pid := by
  simp [pids, List.filter_map, Function.comp_def]

theorem mem_modifyBinding {b' : BindingImpl} :
    b' ∈ modifyBinding root pid f ↔ ∃ b ∈ root, (if b.pid = pid then f b else b) = b' := by
  simp [modifyBinding]

/-- A join changes nothing, or adds one binding without a timer for a process that had none. -/
theorem timelineBindJoin_root (tl : BindingTable) (pid : Int32) (msgb : Option QotBinding)
    (alloc : Bool) :
    ((timelineBindJoin tl pid msgb alloc).getD tl).root = tl.root
      ∨ pid ∉ pids tl.root ∧ ∃ info,
        ((timelineBindJoin tl pid msgb alloc).getD tl).root.Perm
          (⟨info, pid, none⟩ :: tl.root) := by
  cases msgb with
  | none => exact Or.inl rfl
  | some info =>
    simp only [timelineBindJoin, Option.bind_some, qotBindingAdd]
    split
    · cases hins : insertBinding tl.root ⟨{ info with id := pid }, pid, none⟩ with
      | none => exact Or.inl rfl
      | some root' =>
        obtain ⟨hfresh, hroot'⟩ := insertBinding_cases hins
        refine Or.inr ⟨hfresh, { info with id := pid }, ?_⟩
        show root'.Perm _
        rw [hroot']
        exact insertBefore_perm _ _ _
    · exact Or.inl rfl

/-- A leave changes nothing, or removes the binding of the caller. -/
theorem timelineBindLeave_root (tl : BindingTable) (pid : Int32) (copied : Bool) :
    ((timelineBindLeave tl pid copied).getD tl).root = tl.root
      ∨ copied = true ∧ (∃ b, findBinding tl.root pid = some b)
        ∧ ((timelineBindLeave tl pid copied).getD tl).root
          = tl.root.filter fun b => b.pid ≠ pid := by
  cases copied with
  | false => exact Or.inl rfl
  | true =>
    simp only [timelineBindLeave, if_true]
    cases hfind : findBinding tl.root pid with
    | none => exact Or.inl rfl
    | some b => exact Or.inr ⟨trivial, ⟨b, rfl⟩, rfl⟩

theorem findBinding_mem (h : findBinding root pid = some b) : b ∈ root ∧ b.pid = pid :=
  ⟨List.mem_of_find?_eq_some h, by simpa using List.find?_some h⟩

end Qot
