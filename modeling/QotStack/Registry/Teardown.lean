import Mathlib.Logic.Function.Basic
import QotStack.Lib.Runs
import QotStack.Registry.Bind
import QotStack.Scheduler.Timers

/-!
# QotStack — what a removed timeline leaves behind

A timeline lives in three places: the registry, a tree by name that holds its record with its
information and its event tree (`qot_timeline.c`); `qot_timelines_map`, which leads from an index to
the device, and the device points to the information (`qot_timeline_chdev.c`); and the sleepers,
each linked in the event tree and pointing back to the information (`qot_scheduler.c`).

`qot_timeline_remove` takes the timeline out of the registry and frees its record at once. The
device stays in the map until its last open file is closed, and the sleepers stay where they are:
the only thing a removal asks for is whether there are bindings, and the administrator's not even
that. The module says that these two omissions are all: nothing is left behind exactly if every
timeline that is removed has no sleeper and no open file.

Records have addresses that are not used again, so that a pointer to a freed record is not taken for
one to a new record in its place. Each call is one step; a wait is one step when it begins and one
when it ends. The name of the device node and the sysfs files are left out.
-/

namespace Qot

open OrderedInsert

/-- A record of the registry (`timeline_t`), at its address. Its event tree is kept apart. -/
structure TimelinePriv where
  addr : Nat
  info : QotTimeline
  deriving DecidableEq

/-- A device (`timeline_impl_t`): the address of the information it points to, its bindings, the
number of open files, and whether its POSIX clock is unregistered. -/
structure TimelineImpl where
  info : Nat
  table : BindingTable
  files : Nat
  zombie : Bool
  deriving DecidableEq, Repr

structure Timelines where
  registry : List TimelinePriv
  map : Int32 → Option TimelineImpl
  /-- The event tree in the record at an address. What is linked there stays linked when the record
  is freed. -/
  events : Nat → List TimelineSleeper
  /-- The next address. -/
  allocated : Nat

def Timelines.empty : Timelines := ⟨[], fun _ => none, fun _ => [], 0⟩

/-! ## Devices -/

def Timelines.put (s : Timelines) (index : Int32) (impl : TimelineImpl) : Timelines :=
  { s with map := Function.update s.map index (some impl) }

/-- The release function of the POSIX clock: the bindings go, and the device with its index. -/
def Timelines.qotTimelineChdevDelete (s : Timelines) (index : Int32) : Timelines :=
  { s with map := Function.update s.map index none }

/-- The clock is a zombie from now on; it is released when its last file is closed. -/
def Timelines.posixClockUnregister (s : Timelines) (index : Int32) (impl : TimelineImpl) :
    Timelines :=
  if impl.files = 0 then s.qotTimelineChdevDelete index
  else s.put index { impl with zombie := true }

/-- Destroy the timeline based on an index. -/
def Timelines.qotTimelineChdevUnregister (s : Timelines) (index : Int32) (adminFlag : Bool) :
    Int × Timelines :=
  match s.map index with
  | none => (1, s)
  | some impl =>
    if impl.table.root ≠ [] ∧ adminFlag = false then (1, s)
    else (0, s.posixClockUnregister index impl)

/-- What the kernel answers during a registration: whether there is memory, the index `idr_alloc`
draws, negative on failure, and whether the clock and the sysfs files can be registered. -/
structure RegisterServices where
  kzalloc : Bool
  idrAlloc : Int32
  posixClockRegister : Bool
  sysfsInit : Bool
  deriving DecidableEq, Repr

/-- Create the device and return its index, negative on failure. -/
def Timelines.qotTimelineChdevRegister (s : Timelines) (info : Nat) (svc : RegisterServices) :
    Option (Int32 × Timelines) :=
  if svc.kzalloc = false ∨ svc.idrAlloc < 0 then some (-1, s)
  -- `idr_alloc` draws no index in use
  else if (s.map svc.idrAlloc).isSome then none
  else if svc.posixClockRegister = false then some (-1, s)
  -- the release function would walk lists that are not initialised yet: a fault
  else if svc.sysfsInit = false then none
  else some (svc.idrAlloc, s.put svc.idrAlloc ⟨info, BindingTable.empty, 0, false⟩)

/-! ## The registry -/

def Timelines.qotTimelineFind (s : Timelines) (name : CName) : Option TimelinePriv :=
  s.registry.find? fun r => r.info.name = name

/-- `qot_timeline_insert`, on the records in the order of their names. -/
def insertByName (registry : List TimelinePriv) (timeline : TimelinePriv) :
    Option (List TimelinePriv) :=
  match registry.find? fun r => r.info.name = timeline.info.name with
  | some _ => none
  | none =>
    some (insertBefore (fun r => timeline.info.name.bytes < r.info.name.bytes) timeline registry)

namespace Timelines

def qotTimelineInsert (s : Timelines) (timeline : TimelinePriv) : Option Timelines :=
  (insertByName s.registry timeline).map fun registry => { s with registry := registry }

/-- Take a record out of the tree and free it. -/
def rbErase (s : Timelines) (timeline : TimelinePriv) : Timelines :=
  { s with registry := s.registry.filter fun r => r.addr ≠ timeline.addr }

/-- Memory for a record, with an empty event tree. -/
def allocate (s : Timelines) : Timelines :=
  { s with allocated := s.allocated + 1, events := Function.update s.events s.allocated [] }

/-- Create a new timeline: the return value, the caller's structure, and the state afterwards. -/
def qotTimelineCreate (s : Timelines) (timeline : QotTimeline) (kzalloc : Bool)
    (svc : RegisterServices) : Option (Int × QotTimeline × Timelines) :=
  match s.qotTimelineFind timeline.name with
  | some existing => some (-1, existing.info, s)
  | none =>
    if kzalloc then
      (s.allocate.qotTimelineChdevRegister s.allocated svc).map fun (index, s') =>
        if index < 0 then (1, timeline, s')
        else
          match s'.qotTimelineInsert ⟨s.allocated, { timeline with index := index }⟩ with
          | none => (1, timeline, (s'.qotTimelineChdevUnregister index false).2)
          | some s'' => (0, { timeline with index := index }, s'')
    else some (1, timeline, s)

/-- Remove a timeline. -/
def qotTimelineRemove (s : Timelines) (name : CName) (adminFlag : Bool) :
    Int × Timelines :=
  match s.qotTimelineFind name with
  | none => (1, s)
  | some r =>
    let (failed, s') := s.qotTimelineChdevUnregister r.info.index adminFlag
    if failed ≠ 0 then (1, s) else (0, s'.rbErase r)

/-- One round of the loop of `qot_timeline_remove_all`. -/
def removeRound (s : Timelines) (r : TimelinePriv) : Timelines :=
  (s.qotTimelineChdevUnregister r.info.index true).2.rbErase r

/-- The loop erases nodes from the tree it walks, which rebalances the tree under it, so that it may
miss some: it meets these. -/
abbrev Walk (s : Timelines) (reached : List TimelinePriv) : Prop :=
  reached ⊆ s.registry ∧ reached.Nodup

/-- Remove all timelines. -/
def qotTimelineRemoveAll (s : Timelines) (reached : List TimelinePriv) : Timelines :=
  reached.foldl removeRound s

end Timelines

/-! ## The registry by itself

Without addresses and devices this is the registry of `Registry.Bind`. -/

def Timelines.infos (s : Timelines) : List QotTimeline := s.registry.map (·.info)

theorem find_map_info (registry : List TimelinePriv) (name : CName) :
    Qot.qotTimelineFind (registry.map (·.info)) name
      = (registry.find? fun r => r.info.name = name).map (·.info) := by
  rw [Qot.qotTimelineFind, List.find?_map]
  rfl

theorem insertByName_infos (registry : List TimelinePriv) (r : TimelinePriv) :
    Qot.qotTimelineInsert (registry.map (·.info)) r.info
      = (insertByName registry r).map (List.map (·.info)) := by
  unfold Qot.qotTimelineInsert insertByName
  rw [find_map_info]
  cases registry.find? fun r' => r'.info.name = r.info.name with
  | some _ => rfl
  | none => exact congrArg some (map_insertBefore (·.info)
      (fun t : QotTimeline => decide (r.info.name.bytes < t.name.bytes)) r registry).symm

theorem qotTimelineInsert_infos (s : Timelines) (r : TimelinePriv) :
    Qot.qotTimelineInsert s.infos r.info = (s.qotTimelineInsert r).map (·.infos) := by
  rw [Timelines.qotTimelineInsert, Option.map_map]
  exact insertByName_infos s.registry r

variable {s s' : Timelines} {r r' : TimelinePriv} {svc : RegisterServices} {index : Int32}
  {impl : TimelineImpl}

/-- A name that is free can be inserted, so the last error path of a create is never taken. -/
theorem qotTimelineInsert_of_free (h : s.qotTimelineFind r.info.name = none) :
    ∃ s', s.qotTimelineInsert r = some s' := by
  unfold Timelines.qotTimelineFind at h
  simp only [Timelines.qotTimelineInsert, insertByName, h, Option.map_some, Option.some.injEq,
    exists_eq']

/-- The outcomes of a registration: it fails and changes nothing, or takes a free index. -/
theorem qotTimelineChdevRegister_cases {info : Nat}
    (h : s.qotTimelineChdevRegister info svc = some (index, s')) :
    (index = -1 ∧ s' = s) ∨ (¬ index < 0 ∧ s.map index = none
      ∧ s' = s.put index ⟨info, BindingTable.empty, 0, false⟩) := by
  revert h
  fun_cases Timelines.qotTimelineChdevRegister s info svc with
  | case5 hmem hfree =>
    rintro ⟨⟩
    refine Or.inr ⟨fun hneg => hmem (Or.inr hneg), ?_, rfl⟩
    simpa using hfree
  | case2 => exact nofun
  | case4 => exact nofun
  | _ =>
    rintro ⟨⟩
    exact Or.inl ⟨rfl, rfl⟩

/-- **The create of the registry is the create here**, for the index the registration returns. -/
theorem qotTimelineCreate_infos {timeline t' : QotTimeline} {kzalloc : Bool} {retval : Int}
    (h : s.qotTimelineCreate timeline kzalloc svc = some (retval, t', s')) :
    ∃ index, Qot.qotTimelineCreate s.infos timeline ⟨kzalloc, index⟩ = (retval, t', s'.infos) := by
  unfold Timelines.qotTimelineCreate at h
  unfold Qot.qotTimelineCreate
  rw [show Qot.qotTimelineFind s.infos timeline.name
    = (s.qotTimelineFind timeline.name).map (·.info)
    from find_map_info s.registry timeline.name]
  cases hfind : s.qotTimelineFind timeline.name with
  | some existing =>
    simp only [hfind] at h
    cases h
    exact ⟨0, rfl⟩
  | none =>
    simp only [hfind] at h
    cases kzalloc with
    | false =>
      cases h
      exact ⟨0, rfl⟩
    | true =>
      obtain ⟨⟨index, s₁⟩, hreg, hres⟩ := Option.map_eq_some_iff.mp h
      refine ⟨index, ?_⟩
      rcases qotTimelineChdevRegister_cases hreg with ⟨rfl, rfl⟩ | ⟨hpos, -, rfl⟩
      · cases hres
        rfl
      · have hins := qotTimelineInsert_infos
          (s.allocate.put index ⟨s.allocated, BindingTable.empty, 0, false⟩)
          ⟨s.allocated, { timeline with index := index }⟩
        have hinfos : (s.allocate.put index ⟨s.allocated, BindingTable.empty, 0, false⟩).infos
            = s.infos := rfl
        rw [hinfos] at hins
        simp only [if_neg hpos, Option.map_none, if_true, hins] at hres ⊢
        obtain ⟨s₂, hsome⟩ := qotTimelineInsert_of_free
          (s := s.allocate.put index ⟨s.allocated, BindingTable.empty, 0, false⟩)
          (r := ⟨s.allocated, { timeline with index := index }⟩) hfind
        simp only [hsome] at hres ⊢
        cases hres
        rfl

/-! ## Runs -/

/-- A call on a device: binding, leaving, the timers. -/
def Timelines.ioctl (s : Timelines) (index : Int32)
    (call : TimerState → Option TimerState) : Option Timelines :=
  match s.map index with
  | none => none
  | some impl =>
    if impl.files = 0 then none
    -- `-ENODEV`
    else if impl.zombie then some s
    else
      (call ⟨impl.table, s.events impl.info⟩).map fun t =>
        { s.put index { impl with table := t.table } with
          events := Function.update s.events impl.info t.events }

inductive TimelinesOp where
  | create (timeline : QotTimeline) (kzalloc : Bool) (svc : RegisterServices)
  | remove (name : CName) (adminFlag : Bool)
  | removeAll (reached : List TimelinePriv)
  | openDevice (index : Int32)
  | closeDevice (index : Int32)
  | join (index : Int32) (pid : Int32) (msgb : Option QotBinding) (alloc : Bool)
  | leave (index : Int32) (pid : Int32) (copied : Bool)
  | update (index : Int32) (pid : Int32) (msgb : Option QotBinding)
  | createTimer (index : Int32) (pid : Int32) (timer : Option QotTimer) (env : CreateTimerEnv)
  | destroyTimer (index : Int32) (pid : Int32) (copied : Bool)
  /-- `QOTUSR_WAIT_UNTIL` with a node at `addr` -/
  | waitUntil (name : CName) (addr : Nat) (pid : Int32) (expires : Timepoint)
  /-- `qot_attosleep` takes its node off again and returns -/
  | endWait (timeline addr : Nat)
  /-- the scheduler, on its way through the registry, wakes the sleeper at `addr` -/
  | expire (name : CName) (addr : Nat) (alive : Bool)

def Timelines.openDevice (s : Timelines) (index : Int32) : Timelines :=
  match s.map index with
  | none => s
  | some impl => if impl.zombie then s else s.put index { impl with files := impl.files + 1 }

def Timelines.closeDevice (s : Timelines) (index : Int32) : Option Timelines :=
  match s.map index with
  | none => none
  | some impl =>
    if impl.files = 0 then none
    else if impl.zombie = true ∧ impl.files = 1 then some (s.qotTimelineChdevDelete index)
    else some (s.put index { impl with files := impl.files - 1 })

def Timelines.waitUntil (s : Timelines) (name : CName) (addr : Nat) (pid : Int32)
    (expires : Timepoint) : Option Timelines :=
  match s.qotTimelineFind name with
  | none => some s
  | some r =>
    -- the node is on the stack of the caller
    if addr ∈ addrs (s.events r.addr) then none
    else
      some { s with
        events := Function.update s.events r.addr
          (qotTimelineEventAdd (s.events r.addr) (qotInitSleeper addr pid expires)) }

/-- A wake-up through the registry. The binding that forgets a timer is looked up in the map. -/
def Timelines.expire (s : Timelines) (name : CName) (addr : Nat) (alive : Bool) : Timelines :=
  match s.qotTimelineFind name with
  | none => s
  | some r =>
    match s.map r.info.index with
    | none =>
      let t := expireSleeper ⟨BindingTable.empty, s.events r.addr⟩ addr alive
      { s with events := Function.update s.events r.addr t.events }
    | some impl =>
      let t := expireSleeper ⟨impl.table, s.events r.addr⟩ addr alive
      { s.put r.info.index { impl with table := t.table } with
        events := Function.update s.events r.addr t.events }

def timelinesStep (s : Timelines) : TimelinesOp → Option Timelines
  | .create timeline kzalloc svc => (s.qotTimelineCreate timeline kzalloc svc).map fun r => r.2.2
  | .remove name adminFlag => some (s.qotTimelineRemove name adminFlag).2
  | .removeAll reached =>
    if s.Walk reached then some (s.qotTimelineRemoveAll reached) else none
  | .openDevice index => some (s.openDevice index)
  | .closeDevice index => s.closeDevice index
  | .join index pid msgb alloc => s.ioctl index (timerStep · (.join pid msgb alloc))
  | .leave index pid copied => s.ioctl index (timerStep · (.leave pid copied))
  | .update index pid msgb => s.ioctl index fun t =>
      some { t with table := (timelineBindUpdate t.table pid msgb).getD t.table }
  | .createTimer index pid timer env => s.ioctl index (timerStep · (.create pid timer env))
  | .destroyTimer index pid copied => s.ioctl index (timerStep · (.destroy pid copied))
  | .waitUntil name addr pid expires => s.waitUntil name addr pid expires
  | .endWait timeline addr =>
    some { s with
      events := Function.update s.events timeline (eventErase (s.events timeline) addr) }
  | .expire name addr alive => some (s.expire name addr alive)

/-- **Removed timelines leave nothing behind.** A sleeper that is queued belongs to a timeline of
the registry, and so does a device in the map. -/
structure NothingLeft (s : Timelines) : Prop where
  queued : ∀ a, ∀ t ∈ s.events a, ∃ r ∈ s.registry, r.addr = a
  mapped : ∀ index impl, s.map index = some impl → ∃ r ∈ s.registry, r.addr = impl.info

def Timelines.openFiles (s : Timelines) (index : Int32) : Nat :=
  match s.map index with
  | none => 0
  | some impl => impl.files

/-- No sleeper, and no open file. -/
def Timelines.Idle (s : Timelines) (r : TimelinePriv) : Prop :=
  s.events r.addr = [] ∧ s.openFiles r.info.index = 0

def Timelines.bindings (s : Timelines) (index : Int32) : List BindingImpl :=
  match s.map index with
  | none => []
  | some impl => impl.table.root

/-- There are bindings, and the caller is not the administrator. -/
def Timelines.Refused (s : Timelines) (r : TimelinePriv) (adminFlag : Bool) : Prop :=
  s.bindings r.info.index ≠ [] ∧ adminFlag = false

/-- The condition on a step: what is removed is idle. A removal that is refused removes nothing. -/
def RemovesIdle (s : Timelines) : TimelinesOp → Prop
  | .remove name adminFlag => ∀ r, s.qotTimelineFind name = some r →
      s.Refused r adminFlag ∨ s.Idle r
  | .removeAll reached => s.Walk reached → ∀ r ∈ reached, s.Idle r
  | _ => True

/-! ## A settled state -/

/-- The inductive form: records and devices belong together one to one, by address and by index, and
no device waits for its last file to be closed. -/
structure Settled (s : Timelines) : Prop where
  registered : ∀ r ∈ s.registry, ∃ impl, s.map r.info.index = some impl ∧ impl.info = r.addr
  mapped : ∀ index impl, s.map index = some impl → impl.zombie = false
    ∧ ∃ r ∈ s.registry, r.addr = impl.info ∧ r.info.index = index
  queued : ∀ a, ∀ t ∈ s.events a, ∃ r ∈ s.registry, r.addr = a
  distinct : ∀ r ∈ s.registry, ∀ r' ∈ s.registry, r.addr = r'.addr → r = r'
  given : ∀ r ∈ s.registry, r.addr < s.allocated

theorem Settled.nothingLeft (h : Settled s) : NothingLeft s where
  queued := h.queued
  mapped index impl hmap := by
    obtain ⟨-, r, hr, hinfo, -⟩ := h.mapped index impl hmap
    exact ⟨r, hr, hinfo⟩

theorem settled_empty : Settled Timelines.empty where
  registered _ hr := nomatch hr
  mapped _ _ h := nomatch h
  queued _ _ ht := nomatch ht
  distinct _ hr := nomatch hr
  given _ hr := nomatch hr

/-- Two records do not share an index. -/
theorem Settled.index_ne (h : Settled s) (hr : r ∈ s.registry) (hr' : r' ∈ s.registry)
    (hne : r'.addr ≠ r.addr) : r'.info.index ≠ r.info.index := by
  intro heq
  obtain ⟨impl, hmap, hinfo⟩ := h.registered r hr
  obtain ⟨impl', hmap', hinfo'⟩ := h.registered r' hr'
  rw [heq, hmap, Option.some.injEq] at hmap'
  subst hmap'
  exact hne (hinfo'.symm.trans hinfo)

theorem Settled.put (h : Settled s) {impl' : TimelineImpl} (hmap : s.map index = some impl)
    (hinfo : impl'.info = impl.info) (hzombie : impl'.zombie = impl.zombie) :
    Settled (s.put index impl') where
  registered r hr := by
    obtain ⟨i, hi, hir⟩ := h.registered r hr
    by_cases heq : r.info.index = index
    · rw [heq, hmap, Option.some.injEq] at hi
      subst hi
      refine ⟨impl', ?_, hinfo.trans hir⟩
      rw [heq]
      exact Function.update_self _ _ _
    · exact ⟨i, (Function.update_of_ne heq _ _).trans hi, hir⟩
  mapped index' i hi := by
    by_cases heq : index' = index
    · subst heq
      have hself : (s.put index' impl').map index' = some impl' := Function.update_self _ _ _
      cases hself.symm.trans hi
      obtain ⟨hz, r, hr, hri⟩ := h.mapped index' impl hmap
      exact ⟨hzombie.trans hz, r, hr, hri.1.trans hinfo.symm, hri.2⟩
    · exact h.mapped index' i ((Function.update_of_ne heq _ _).symm.trans hi)
  queued := h.queued
  distinct := h.distinct
  given := h.given

theorem Settled.setEvents (h : Settled s) {a : Nat} {l : List TimelineSleeper}
    (hl : ∀ t ∈ l, ∃ r ∈ s.registry, r.addr = a) :
    Settled { s with events := Function.update s.events a l } where
  registered := h.registered
  mapped := h.mapped
  queued b t ht := by
    by_cases heq : b = a
    · subst heq
      exact hl t ((Function.update_self b l s.events) ▸ ht)
    · exact h.queued b t ((Function.update_of_ne heq l s.events) ▸ ht)
  distinct := h.distinct
  given := h.given

/-! ## A removal -/

theorem qotTimelineChdevUnregister_of_map (hmap : s.map index = some impl) (adminFlag : Bool) :
    s.qotTimelineChdevUnregister index adminFlag
      = if impl.table.root ≠ [] ∧ adminFlag = false then (1, s)
        else (0, s.posixClockUnregister index impl) := by
  simp only [Timelines.qotTimelineChdevUnregister, hmap]

theorem removeRound_of_map (hmap : s.map r.info.index = some impl) :
    s.removeRound r = (s.posixClockUnregister r.info.index impl).rbErase r := by
  rw [Timelines.removeRound, qotTimelineChdevUnregister_of_map hmap, if_neg (by simp)]

theorem posixClockUnregister_registry (s : Timelines) (index : Int32) (impl : TimelineImpl) :
    (s.posixClockUnregister index impl).registry = s.registry
      ∧ (s.posixClockUnregister index impl).events = s.events := by
  unfold Timelines.posixClockUnregister
  split <;> exact ⟨rfl, rfl⟩

theorem mem_rbErase : r' ∈ (s.rbErase r).registry ↔ r' ∈ s.registry ∧ r'.addr ≠ r.addr := by
  simp [Timelines.rbErase]

theorem settled_removeRound (h : Settled s) (hr : r ∈ s.registry) (hidle : s.Idle r) :
    Settled (s.removeRound r) := by
  obtain ⟨impl, hmap, hinfo⟩ := h.registered r hr
  have hfiles : impl.files = 0 := by
    have hopen := hidle.2
    simpa only [Timelines.openFiles, hmap] using hopen
  have hround : s.removeRound r = (s.qotTimelineChdevDelete r.info.index).rbErase r := by
    rw [removeRound_of_map hmap, Timelines.posixClockUnregister, if_pos hfiles]
  rw [hround]
  refine ⟨fun r' hr' => ?_, fun index i hi => ?_, fun a t ht => ?_, fun r₁ h₁ r₂ h₂ => ?_,
    fun r' hr' => h.given r' (mem_rbErase.mp hr').1⟩
  · obtain ⟨hr', hne⟩ := mem_rbErase.mp hr'
    obtain ⟨i, hi, hinfo'⟩ := h.registered r' hr'
    refine ⟨i, ?_, hinfo'⟩
    exact (Function.update_of_ne (h.index_ne hr hr' hne) _ _).trans hi
  · have hne : index ≠ r.info.index := by
      rintro rfl
      have hself : (s.qotTimelineChdevDelete r.info.index).map r.info.index = none :=
        Function.update_self _ _ _
      cases hself.symm.trans hi
    obtain ⟨hz, r', hr', haddr, hindex⟩ :=
      h.mapped index i ((Function.update_of_ne hne _ _).symm.trans hi)
    refine ⟨hz, r', mem_rbErase.mpr ⟨hr', fun heq => ?_⟩, haddr, hindex⟩
    rw [h.distinct r' hr' r hr heq] at hindex
    exact hne hindex.symm
  · obtain ⟨r', hr', haddr⟩ := h.queued a t ht
    refine ⟨r', mem_rbErase.mpr ⟨hr', fun heq => ?_⟩, haddr⟩
    -- the tree of `r` is empty
    have ht : t ∈ s.events r.addr := by
      rw [← heq, haddr]
      exact ht
    rw [hidle.1] at ht
    cases ht
  · exact h.distinct r₁ (mem_rbErase.mp h₁).1 r₂ (mem_rbErase.mp h₂).1

theorem removeRound_other (h : Settled s) (hr : r ∈ s.registry) (hr' : r' ∈ s.registry)
    (hne : r' ≠ r) : r' ∈ (s.removeRound r).registry ∧ ((s.removeRound r).Idle r' ↔ s.Idle r') := by
  have haddr : r'.addr ≠ r.addr := fun heq => hne (h.distinct r' hr' r hr heq)
  obtain ⟨impl, hmap, -⟩ := h.registered r hr
  obtain ⟨hreg, hevents⟩ := posixClockUnregister_registry s r.info.index impl
  have hother : (s.posixClockUnregister r.info.index impl).map r'.info.index
      = s.map r'.info.index := by
    unfold Timelines.posixClockUnregister
    split <;> exact Function.update_of_ne (h.index_ne hr hr' haddr) _ _
  rw [removeRound_of_map hmap]
  refine ⟨mem_rbErase.mpr ⟨hreg.symm ▸ hr', haddr⟩, ?_⟩
  unfold Timelines.Idle Timelines.openFiles
  show (s.posixClockUnregister r.info.index impl).events r'.addr = []
    ∧ (match (s.posixClockUnregister r.info.index impl).map r'.info.index with
      | none => 0
      | some impl => impl.files) = 0 ↔ _
  rw [hevents, hother]

theorem settled_removeAll (h : Settled s) {reached : List TimelinePriv}
    (hsub : reached ⊆ s.registry) (hnodup : reached.Nodup) (hidle : ∀ r ∈ reached, s.Idle r) :
    Settled (s.qotTimelineRemoveAll reached) := by
  induction reached generalizing s with
  | nil => exact h
  | cons r rest ih =>
    obtain ⟨hr, hrest⟩ := List.cons_subset.mp hsub
    obtain ⟨hnotin, hnodup⟩ := List.nodup_cons.mp hnodup
    have hother : ∀ r' ∈ rest, r' ∈ (s.removeRound r).registry
        ∧ ((s.removeRound r).Idle r' ↔ s.Idle r') := fun r' hr' =>
      removeRound_other h hr (hrest hr') fun heq => hnotin (heq ▸ hr')
    refine ih (settled_removeRound h hr (hidle r List.mem_cons_self)) ?_ hnodup ?_
    · exact fun r' hr' => (hother r' hr').1
    · exact fun r' hr' => (hother r' hr').2.mpr (hidle r' (List.mem_cons_of_mem r hr'))

/-! ## What a removal leaves -/

/-- One round touches no event tree, and a device with an open file stays, with its pointer. -/
theorem removeRound_leaves (s : Timelines) (r : TimelinePriv) :
    (s.removeRound r).events = s.events
      ∧ (∀ r', r' ∈ (s.removeRound r).registry ↔ r' ∈ s.registry ∧ r'.addr ≠ r.addr)
      ∧ ∀ index impl, s.map index = some impl → impl.files ≠ 0 →
        ∃ impl', (s.removeRound r).map index = some impl' ∧ impl'.info = impl.info
          ∧ impl'.files ≠ 0 := by
  cases hmap : s.map r.info.index with
  | none =>
    have hround : s.removeRound r = s.rbErase r := by
      simp only [Timelines.removeRound, Timelines.qotTimelineChdevUnregister, hmap]
    rw [hround]
    exact ⟨rfl, fun _ => mem_rbErase, fun index impl hi hf => ⟨impl, hi, rfl, hf⟩⟩
  | some dev =>
    obtain ⟨hreg, hevents⟩ := posixClockUnregister_registry s r.info.index dev
    rw [removeRound_of_map hmap]
    refine ⟨hevents, fun r' => ?_, fun index impl hi hf => ?_⟩
    · rw [mem_rbErase, hreg]
    · by_cases heq : index = r.info.index
      · subst heq
        cases hmap.symm.trans hi
        refine ⟨{ dev with zombie := true }, ?_, rfl, hf⟩
        show (s.posixClockUnregister r.info.index dev).map r.info.index = _
        rw [Timelines.posixClockUnregister, if_neg hf]
        exact Function.update_self _ _ _
      · refine ⟨impl, ?_, rfl, hf⟩
        rw [← hi]
        show (s.posixClockUnregister r.info.index dev).map index = _
        unfold Timelines.posixClockUnregister
        split <;> exact Function.update_of_ne heq _ _

theorem removeAll_leaves (s : Timelines) (reached : List TimelinePriv) :
    (s.qotTimelineRemoveAll reached).events = s.events
      ∧ (∀ r', r' ∈ (s.qotTimelineRemoveAll reached).registry →
        r' ∈ s.registry ∧ ∀ r ∈ reached, r'.addr ≠ r.addr)
      ∧ ∀ index impl, s.map index = some impl → impl.files ≠ 0 →
        ∃ impl', (s.qotTimelineRemoveAll reached).map index = some impl'
          ∧ impl'.info = impl.info ∧ impl'.files ≠ 0 := by
  induction reached generalizing s with
  | nil => exact ⟨rfl, fun r' hr' => ⟨hr', fun _ h => nomatch h⟩, fun _ impl hi hf =>
      ⟨impl, hi, rfl, hf⟩⟩
  | cons r rest ih =>
    obtain ⟨hevents, hreg, hmap⟩ := removeRound_leaves s r
    obtain ⟨hevents', hreg', hmap'⟩ := ih (s.removeRound r)
    refine ⟨hevents'.trans hevents, fun r' hr' => ?_, fun index impl hi hf => ?_⟩
    · obtain ⟨hr', hrest⟩ := hreg' r' hr'
      obtain ⟨hr', hne⟩ := (hreg r').mp hr'
      exact ⟨hr', List.forall_mem_cons.mpr ⟨hne, hrest⟩⟩
    · obtain ⟨i₁, h₁, hinfo₁, hf₁⟩ := hmap index impl hi hf
      obtain ⟨i₂, h₂, hinfo₂, hf₂⟩ := hmap' index i₁ h₁ hf₁
      exact ⟨i₂, h₂, hinfo₂.trans hinfo₁, hf₂⟩

section
variable (h : Settled s)
include h

/-- **The condition is exact**: a sleeper, or a device with an open file, outlives its record. -/
theorem idle_of_nothingLeft {reached : List TimelinePriv}
    (hsub : reached ⊆ s.registry) (hleft : NothingLeft (s.qotTimelineRemoveAll reached)) :
    ∀ r ∈ reached, s.Idle r := by
  intro r hr
  obtain ⟨hevents, hreg, hmap⟩ := removeAll_leaves s reached
  have hgone : ¬ ∃ r' ∈ (s.qotTimelineRemoveAll reached).registry, r'.addr = r.addr := by
    rintro ⟨r', hr', haddr⟩
    exact (hreg r' hr').2 r hr haddr
  refine ⟨?_, ?_⟩
  · refine List.eq_nil_iff_forall_not_mem.mpr fun t ht => hgone ?_
    exact hleft.queued r.addr t (hevents.symm ▸ ht)
  · obtain ⟨impl, hi, hinfo⟩ := h.registered r (hsub hr)
    by_contra hopen
    have hf : impl.files ≠ 0 := by
      simpa only [Timelines.openFiles, hi] using hopen
    obtain ⟨impl', hi', hinfo', -⟩ := hmap r.info.index impl hi hf
    obtain ⟨r', hr', haddr⟩ := hleft.mapped r.info.index impl' hi'
    exact hgone ⟨r', hr', haddr.trans (hinfo'.trans hinfo)⟩

/-- A removal is refused, or is one round of the loop. -/
theorem qotTimelineRemove_eq {name : CName}
    (hfind : s.qotTimelineFind name = some r) (adminFlag : Bool)
    [Decidable (s.Refused r adminFlag)] :
    (s.qotTimelineRemove name adminFlag).2
      = if s.Refused r adminFlag then s else s.qotTimelineRemoveAll [r] := by
  obtain ⟨impl, hmap, -⟩ := h.registered r (List.mem_of_find?_eq_some hfind)
  have hrefused : s.Refused r adminFlag ↔ impl.table.root ≠ [] ∧ adminFlag = false := by
    unfold Timelines.Refused Timelines.bindings
    rw [hmap]
  have hround : s.qotTimelineRemoveAll [r] = s.removeRound r := rfl
  simp only [Timelines.qotTimelineRemove, hfind, qotTimelineChdevUnregister_of_map hmap, hrefused,
    hround, removeRound_of_map hmap]
  by_cases hb : impl.table.root ≠ [] ∧ adminFlag = false
  · simp only [if_pos hb]
    rfl
  · simp only [if_neg hb]
    rfl

/-! ## The other calls -/

theorem Settled.allocate : Settled s.allocate := by
  have hevents : Settled { s with events := Function.update s.events s.allocated [] } :=
    h.setEvents fun _ ht => nomatch ht
  exact ⟨hevents.registered, hevents.mapped, hevents.queued, hevents.distinct,
    fun r hr => Nat.lt_succ_of_lt (h.given r hr)⟩

/-- A device at a free index, with its record. -/
theorem Settled.insert {table : BindingTable} (hfree : s.map r.info.index = none)
    (hnew : ∀ r' ∈ s.registry, r'.addr ≠ r.addr) (hgiven : r.addr < s.allocated)
    (hins : (s.put r.info.index ⟨r.addr, table, 0, false⟩).qotTimelineInsert r = some s') :
    Settled s' := by
  obtain ⟨registry, hreg, rfl⟩ := Option.map_eq_some_iff.mp hins
  unfold insertByName at hreg
  split at hreg
  · cases hreg
  · cases hreg
    refine ⟨fun r' hr' => ?_, fun index i hi => ?_, fun a t ht => ?_, fun r₁ h₁ r₂ h₂ heq => ?_,
      fun r' hr' => ?_⟩
    · rcases (mem_insertBefore _ r).mp hr' with rfl | hr'
      · exact ⟨_, Function.update_self _ _ _, rfl⟩
      · obtain ⟨i, hi, hinfo⟩ := h.registered r' hr'
        refine ⟨i, (Function.update_of_ne (fun heq => ?_) _ _).trans hi, hinfo⟩
        rw [heq, hfree] at hi
        cases hi
    · by_cases heq : index = r.info.index
      · subst heq
        have hself : (s.put r.info.index ⟨r.addr, table, 0, false⟩).map r.info.index
            = some ⟨r.addr, table, 0, false⟩ := Function.update_self _ _ _
        cases hself.symm.trans hi
        exact ⟨rfl, r, (mem_insertBefore _ r).mpr (Or.inl rfl), rfl, rfl⟩
      · obtain ⟨hz, r', hr', hri⟩ :=
          h.mapped index i ((Function.update_of_ne heq _ _).symm.trans hi)
        exact ⟨hz, r', (mem_insertBefore _ r).mpr (Or.inr hr'), hri⟩
    · obtain ⟨r', hr', haddr⟩ := h.queued a t ht
      exact ⟨r', (mem_insertBefore _ r).mpr (Or.inr hr'), haddr⟩
    · rcases (mem_insertBefore _ r).mp h₁ with rfl | h₁
      · rcases (mem_insertBefore _ r₁).mp h₂ with rfl | h₂
        · rfl
        · exact absurd heq.symm (hnew r₂ h₂)
      · rcases (mem_insertBefore _ r).mp h₂ with rfl | h₂
        · exact absurd heq (hnew r₁ h₁)
        · exact h.distinct r₁ h₁ r₂ h₂ heq
    · rcases (mem_insertBefore _ r).mp hr' with rfl | hr'
      · exact hgiven
      · exact h.given r' hr'

theorem settled_create {timeline t' : QotTimeline} {kzalloc : Bool} {retval : Int}
    (hc : s.qotTimelineCreate timeline kzalloc svc = some (retval, t', s')) : Settled s' := by
  unfold Timelines.qotTimelineCreate at hc
  cases hfind : s.qotTimelineFind timeline.name with
  | some existing =>
    simp only [hfind] at hc
    cases hc
    exact h
  | none =>
    simp only [hfind] at hc
    split at hc
    · obtain ⟨⟨index, s₁⟩, hreg, hres⟩ := Option.map_eq_some_iff.mp hc
      rcases qotTimelineChdevRegister_cases hreg with ⟨rfl, rfl⟩ | ⟨hpos, hfree, rfl⟩
      · cases hres
        exact h.allocate
      · simp only [if_neg hpos] at hres
        obtain ⟨s₂, hins⟩ := qotTimelineInsert_of_free
          (s := s.allocate.put index ⟨s.allocated, BindingTable.empty, 0, false⟩)
          (r := ⟨s.allocated, { timeline with index := index }⟩) hfind
        simp only [hins] at hres
        cases hres
        exact h.allocate.insert (r := ⟨s.allocated, { timeline with index := index }⟩) hfree
          (fun r' hr' => (h.given r' hr').ne) (Nat.lt_succ_self _) hins
    · cases hc
      exact h

theorem settled_ioctl {call : TimerState → Option TimerState}
    (hc : s.ioctl index call = some s') : Settled s' := by
  unfold Timelines.ioctl at hc
  cases hmap : s.map index with
  | none => simp only [hmap, reduceCtorEq] at hc
  | some impl =>
    simp only [hmap] at hc
    split at hc
    · cases hc
    · split at hc
      · cases hc
        exact h
      · obtain ⟨t, -, rfl⟩ := Option.map_eq_some_iff.mp hc
        obtain ⟨-, r, hr, haddr, -⟩ := h.mapped index impl hmap
        have hput : Settled (s.put index { impl with table := t.table }) := h.put hmap rfl rfl
        exact hput.setEvents fun _ _ => ⟨r, hr, haddr⟩

theorem settled_openDevice (index : Int32) : Settled (s.openDevice index) := by
  unfold Timelines.openDevice
  cases hmap : s.map index with
  | none => exact h
  | some impl =>
    show Settled (if impl.zombie then s else _)
    rw [(h.mapped index impl hmap).1]
    exact h.put hmap rfl (h.mapped index impl hmap).1.symm

theorem settled_closeDevice (hs : s.closeDevice index = some s') : Settled s' := by
  unfold Timelines.closeDevice at hs
  cases hmap : s.map index with
  | none => simp only [hmap, reduceCtorEq] at hs
  | some impl =>
    have hlive := (h.mapped index impl hmap).1
    simp only [hmap, hlive, Bool.false_eq_true, false_and, if_false] at hs
    split at hs
    · cases hs
    · cases hs
      exact h.put hmap rfl hlive.symm

theorem settled_waitUntil {name : CName} {addr : Nat} {pid : Int32}
    {expires : Timepoint} (hs : s.waitUntil name addr pid expires = some s') : Settled s' := by
  unfold Timelines.waitUntil at hs
  cases hfind : s.qotTimelineFind name with
  | none =>
    simp only [hfind, Option.some.injEq] at hs
    exact hs ▸ h
  | some r =>
    simp only [hfind] at hs
    split at hs
    · cases hs
    · cases hs
      exact h.setEvents fun _ _ => ⟨r, List.mem_of_find?_eq_some hfind, rfl⟩

theorem settled_expire (name : CName) (addr : Nat) (alive : Bool) :
    Settled (s.expire name addr alive) := by
  unfold Timelines.expire
  cases hfind : s.qotTimelineFind name with
  | none => exact h
  | some r =>
    have hr := List.mem_of_find?_eq_some hfind
    obtain ⟨impl, hmap, -⟩ := h.registered r hr
    simp only [hmap]
    have hput : Settled (s.put r.info.index { impl with
        table := (expireSleeper ⟨impl.table, s.events r.addr⟩ addr alive).table }) :=
      h.put hmap rfl rfl
    exact hput.setEvents fun _ _ => ⟨r, hr, rfl⟩

end

theorem settled_step (s : Timelines) (op : TimelinesOp) (s' : Timelines) (h : Settled s)
    (hidle : RemovesIdle s op) (hs : timelinesStep s op = some s') : Settled s' := by
  classical
  cases op with
  | create timeline kzalloc svc =>
    obtain ⟨⟨retval, t', s₁⟩, hc, rfl⟩ := Option.map_eq_some_iff.mp hs
    exact settled_create h hc
  | remove name adminFlag =>
    cases hs
    cases hfind : s.qotTimelineFind name with
    | none =>
      simp only [Timelines.qotTimelineRemove, hfind]
      exact h
    | some r =>
      rw [qotTimelineRemove_eq h hfind]
      split
      · exact h
      · next hacc =>
        -- one removal is a walk that reaches one record
        have hidle := (hidle r hfind).resolve_left hacc
        exact settled_removeAll h
          (List.cons_subset.mpr ⟨List.mem_of_find?_eq_some hfind, List.nil_subset _⟩)
          (List.nodup_singleton r) (List.forall_mem_singleton.mpr hidle)
  | removeAll reached =>
    obtain ⟨hwalk, hs⟩ := Option.ite_none_right_eq_some.mp hs
    cases hs
    exact settled_removeAll h hwalk.1 hwalk.2 (hidle hwalk)
  | openDevice index =>
    cases hs
    exact settled_openDevice h index
  | closeDevice index => exact settled_closeDevice h hs
  | join index pid msgb alloc | leave index pid copied | update index pid msgb
  | createTimer index pid timer env | destroyTimer index pid copied =>
    unfold timelinesStep at hs
    exact settled_ioctl h hs
  | waitUntil name addr pid expires => exact settled_waitUntil h hs
  | endWait timeline addr =>
    cases hs
    exact h.setEvents fun t ht => h.queued timeline t (mem_eventErase.mp ht).1
  | expire name addr alive =>
    cases hs
    exact settled_expire h name addr alive

theorem removesIdle_of_nothingLeft (s : Timelines) (op : TimelinesOp) (h : Settled s)
    (hleft : ∀ s', timelinesStep s op = some s' → NothingLeft s') : RemovesIdle s op := by
  classical
  cases op with
  | remove name adminFlag =>
    intro r hfind
    by_cases href : s.Refused r adminFlag
    · exact Or.inl href
    · right
      have hleft := hleft _ rfl
      rw [qotTimelineRemove_eq h hfind, if_neg href] at hleft
      exact idle_of_nothingLeft h
        (List.cons_subset.mpr ⟨List.mem_of_find?_eq_some hfind, List.nil_subset _⟩)
        hleft r List.mem_cons_self
  | removeAll reached =>
    intro hwalk
    exact idle_of_nothingLeft h hwalk.1 (hleft _ (if_pos hwalk))
  | _ => trivial

/-- **Nothing is left behind exactly if only idle timelines are removed.** In every run from the
empty registry: every queued sleeper and every device in the map belongs to a timeline of the
registry all along, if and only if every timeline that is removed has no sleeper and no open
file. -/
theorem nothing_left_iff (ops : List TimelinesOp) :
    Runs.AllStates timelinesStep NothingLeft Timelines.empty ops
      ↔ Runs.AllSteps timelinesStep RemovesIdle Timelines.empty ops :=
  Runs.allStates_iff_allSteps (fun _ => Settled.nothingLeft) settled_step
    removesIdle_of_nothingLeft settled_empty

/-- A timeline is created, its device opened, and the timeline destroyed by a user. -/
def openThenRemove : List TimelinesOp :=
  [.create ⟨nameA, 0, .qotTimelineLocal⟩ true ⟨true, 0, true, true⟩, .openDevice 0,
    .remove nameA false]

/-- The same, with a wait in place of the open file. -/
def waitThenRemove : List TimelinesOp :=
  [.create ⟨nameA, 0, .qotTimelineLocal⟩ true ⟨true, 0, true, true⟩,
    .waitUntil nameA 7 1 ⟨100, 0⟩, .remove nameA false]

/-- **A removal leaves behind what it does not ask for.** With an open file, the device stays in the
map and points to the record at address 0, which is freed; with a wait, the sleeper stays linked in
the event tree of that record. -/
theorem nothing_left_fails :
    ((Runs.exec timelinesStep Timelines.empty openThenRemove).map
        fun s => (s.registry, s.map 0, s.events 0))
      = some ([], some ⟨0, BindingTable.empty, 1, true⟩, [])
    ∧ ((Runs.exec timelinesStep Timelines.empty waitThenRemove).map
        fun s => (s.registry, s.map 0, s.events 0))
      = some ([], none, [qotInitSleeper 7 1 ⟨100, 0⟩])
    ∧ ¬ Runs.AllStates timelinesStep NothingLeft Timelines.empty openThenRemove
    ∧ ¬ Runs.AllStates timelinesStep NothingLeft Timelines.empty waitThenRemove := by
  refine ⟨by decide, by decide, fun h => ?_, fun h => ?_⟩
  · obtain ⟨s, hs, hreg, hmap⟩ :
        ∃ s, Runs.exec timelinesStep Timelines.empty openThenRemove = some s
        ∧ s.registry = [] ∧ s.map 0 = some ⟨0, BindingTable.empty, 1, true⟩ :=
      Runs.exists_exec (by decide)
    obtain ⟨r, hr, -⟩ := (h.exec hs).mapped 0 _ hmap
    rw [hreg] at hr
    cases hr
  · obtain ⟨s, hs, hreg, hevents⟩ :
        ∃ s, Runs.exec timelinesStep Timelines.empty waitThenRemove = some s
        ∧ s.registry = [] ∧ s.events 0 = [qotInitSleeper 7 1 ⟨100, 0⟩] :=
      Runs.exists_exec (by decide)
    obtain ⟨r, hr, -⟩ := (h.exec hs).queued 0 _ (hevents.symm ▸ List.mem_cons_self)
    rw [hreg] at hr
    cases hr

end Qot
